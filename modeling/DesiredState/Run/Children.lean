import DesiredState.Entity.Document
import DesiredState.Run.Entity

/-!
# Handling an entity with its children

When an entity is in place, its children are handled in one batch for each declared child
type, in name order. Children of an undeclared type are a fault of the model, found before
any child is handled. A batch with a failed child, or one that takes too long, fails the
parent, and no later batch is started.
-/

set_option autoImplicit false

namespace DesiredState.Run

/-- The first child type with nodes that the blueprint does not declare. -/
def undeclared? (blueprint : Blueprint) (parent : Entity) : Option String :=
  (parent.children.entries.find? fun entry =>
    !entry.2.isEmpty && (blueprint.child? entry.1).isNone).map (·.1)

/-- The class name of the children of a type: the declared one, else the child type in the
package of the parent. -/
def childClassName (parent : Entity) (childType : String) (blueprint : Blueprint) : String :=
  blueprint.className.getD (ClassName.sibling parent.className childType)

/-- The nodes that are no entities are logged. -/
def logSkipped (className : String) (nodes : List Json) : Plan Unit :=
  Plan.forEach (fun node => Plan.log (.nodeSkipped className node.print))
    (Document.skipped nodes)

/-- One batch. A batch without children is passed over. -/
def children (run : Run) (batch : Batch) : Plan Unit := do
  if batch.children.isEmpty then
    pure ()
  else
    let total := batch.children.length
    Plan.log (.batchStarted run.label batch.type total (run.settings.permits total))
    let result ← Plan.batch batch pure
    if result.timedOut then
      Plan.log (.batchTimedOut run.label batch.type run.settings.timeoutSeconds)
    if result.isSuccess then pure ()
    else Plan.fail (.batchFailed batch.type run.label total result.failures result.timedOut)

/-- The children of one declared type. -/
def childrenOfType (run : Run) (parent : Entity) (lineage : Lineage)
    (declared : String × Blueprint) : Plan Unit := do
  match parent.children.find? declared.1 with
  | none | some [] => pure ()
  | some nodes =>
      let className := childClassName parent declared.1 declared.2
      logSkipped className nodes
      run.children
        { type := ClassName.simple className
          blueprint := declared.2
          children := Document.entities className nodes
          lineage }

/-- All children of an entity. -/
def descend (run : Run) (blueprint : Blueprint) (parent : Entity) (lineage : Lineage) :
    Plan Unit :=
  match undeclared? blueprint parent with
  | some childType => Plan.fail (.childrenUndeclared parent.type childType)
  | none => Plan.forEach (run.childrenOfType parent lineage) blueprint.childTypes

/-- An entity and all its descendants. The entity in place is remembered, and the children see
it as their nearest ancestor. -/
def reconcile (run : Run) (blueprint : Blueprint) (lineage : Lineage) (desired : Entity) :
    Plan (Option Entity) := do
  Plan.tell (.begun ⟨blueprint, lineage, desired⟩)
  match ← run.settle blueprint lineage desired with
  | none => pure none
  | some settled =>
      Plan.remember run.session settled (pure ())
      let entity := { settled with children := desired.children }
      if entity.hasChildren then
        run.descend blueprint entity (lineage.insert desired.type entity)
      pure (some entity)

/-- The task of one child of a batch. -/
def childTask (run : Run) (batch : Batch) (child : Entity) : Plan (Option Entity) :=
  run.reconcile batch.blueprint batch.lineage child

end DesiredState.Run
