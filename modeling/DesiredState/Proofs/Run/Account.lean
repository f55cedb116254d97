import DesiredState.Proofs.Run.Handling
import DesiredState.Proofs.Schedule.Braid

/-!
# The account of a run

A run is a tree of tasks: a catalog hands out its documents, a document its roots, and an entity
that is in place its children. An account says for each of these tasks what the task itself has
done, which tasks it has handed out, in what order all of it has come, and what has become of the
task. Every run has an account, wherever it has got to, however it ended and in whatever order
its tasks acted; that is the matter of `Run.Accounting`.

**Origins.** In the history of a task each event has an origin: the way from that task to the one
that did it, which is empty for what the task did itself. A task is pinned down by the plan that
it follows (`Task.Stops`, `Task.GoesOn`), and so is what an origin stands for.
-/

set_option autoImplicit false

namespace DesiredState

/-! ## Ways to a task -/

/-- One step on the way from a task to one that it has handed out. -/
inductive Waypoint
  | document (number : Nat)
  | root (number : Nat)
  | child (type : String) (number : Nat)
  deriving DecidableEq

/-- The way from a task to a task below it. -/
abbrev Origin := List Waypoint

/-- Events as they came, with the task that each is of. -/
abbrev History := List (Origin × Event)

/-- The task of the first waypoint is handed out before that of the second. The children of one
type are handed out together. -/
def Waypoint.Precedes : Waypoint → Waypoint → Prop
  | .document first, .document second => first < second
  | .root first, .root second => first < second
  | .child first _, .child second _ => first < second
  | _, _ => False

/-- Two ways go together for a while, and then the first one turns off to an earlier task. -/
def Origin.PrecedesAt (above first second : Origin) : Prop :=
  ∃ turn other rest others, first = above ++ turn :: rest ∧ second = above ++ other :: others ∧
    turn.Precedes other

/-- The first way turns off to an earlier task than the second one. -/
def Origin.Precedes (first second : Origin) : Prop :=
  ∃ above, Origin.PrecedesAt above first second

/-! ## Tasks -/

/-- What is to be done. -/
inductive Task
  | catalog (documents : List (String × String))
  | document (type text : String)
  | entity (visit : Visit)

namespace Visit

/-- Settling the entity of a visit. -/
def settle (run : Run) (visit : Visit) : Plan (Option Entity) :=
  run.settle visit.blueprint visit.lineage visit.desired

/-- The entity in place, with the children of the desired one. -/
def placed (visit : Visit) (settled : Entity) : Entity :=
  { settled with children := visit.desired.children }

/-- What the children of a visited entity have as ancestors. -/
def below (visit : Visit) (settled : Entity) : Lineage :=
  visit.lineage.insert visit.desired.type (visit.placed settled)

end Visit

namespace Run

/-- What is done for a document before its first root. -/
def opening (run : Run) (type text : String) : Plan (Blueprint × List Entity) := do
  run.observe (.beforeBlueprint type)
  let blueprint ← run.fetchBlueprint type
  run.observe (.afterBlueprint type blueprint)
  let entities ← readDocument (blueprint.rootClassName type) text
  Plan.log (.documentRead type entities.length)
  pure (blueprint, entities)

end Run

/-- The children of an entity that are of a declared type. -/
def Entity.childrenOf (parent : Entity) (declared : String × Blueprint) : List Entity :=
  Document.entities (Run.childClassName parent declared.1 declared.2)
    ((parent.children.find? declared.1).getD [])

namespace Task

/-- The documents of a catalog are handed out one by one. -/
def documents (documents : List (String × String)) : List (List (Waypoint × Task)) :=
  documents.zipIdx.map fun named =>
    [(.document named.2, .document (ClassName.ofModelName named.1.1) named.1.2)]

/-- The roots of a document are handed out one by one. -/
def roots (blueprint : Blueprint) (entities : List Entity) : List (List (Waypoint × Task)) :=
  entities.zipIdx.map fun root => [(.root root.2, .entity ⟨blueprint, .empty, root.1⟩)]

/-- The children of one type are handed out together. -/
def brood (declared : String × Blueprint) (lineage : Lineage) (children : List Entity) :
    List (Waypoint × Task) :=
  children.zipIdx.map fun child =>
    (.child declared.1 child.2, .entity ⟨declared.2, lineage, child.1⟩)

/-- The children of an entity in place are handed out type after type. -/
def broods (visit : Visit) (settled : Entity) : List (List (Waypoint × Task)) :=
  visit.blueprint.childTypes.map fun declared =>
    brood declared (visit.below settled) ((visit.placed settled).childrenOf declared)

/-- The task has done the events and hands out no other task. -/
inductive Stops (run : Run) : Task → List Event → Fate → Prop
  /-- The document has not been opened. -/
  | unopened {type text : String} {own : List Event} {outcome}
      (opens : (run.opening type text).Takes run (.ofEvents own .idle) outcome)
      (short : Fate.of outcome ≠ .succeeded) :
      Stops run (.document type text) own (Fate.of outcome)
  | unbegun (visit : Visit) : Stops run (.entity visit) [] .pending
  /-- No entity is in place: the task has not got further, or it has failed, or there is none. -/
  | unsettled {visit : Visit} {own : List Event} {outcome}
      (settles : (visit.settle run).Takes run (.ofEvents own .idle) outcome)
      (nothing : ∀ settled, outcome ≠ some (.value (some settled))) :
      Stops run (.entity visit) (.told (.begun visit) :: own) (Fate.of outcome)
  /-- The entity has children of a type that its blueprint does not declare. -/
  | undeclared {visit : Visit} {own : List Event} {settled : Entity} {fate : Fate}
      (settles : (visit.settle run).Takes run (.ofEvents own .idle) (some (.value (some settled))))
      (unknown : (Run.undeclared? visit.blueprint (visit.placed settled)).isSome)
      (short : fate ≠ .succeeded) :
      Stops run (.entity visit)
        (.told (.begun visit) :: (own ++ [.remembered run.session settled])) fate

/-- The task has done the events and goes on to hand out the given tasks, group after group. -/
inductive GoesOn (run : Run) : Task → List Event → List (List (Waypoint × Task)) → Prop
  | catalog (documents : List (String × String)) :
      GoesOn run (.catalog documents) [] (Task.documents documents)
  | document {type text : String} {own : List Event} {blueprint : Blueprint}
      {entities : List Entity}
      (opens : (run.opening type text).Takes run (.ofEvents own .idle)
        (some (.value (blueprint, entities)))) :
      GoesOn run (.document type text) own (roots blueprint entities)
  | entity {visit : Visit} {own : List Event} {settled : Entity}
      (settles : (visit.settle run).Takes run (.ofEvents own .idle) (some (.value (some settled))))
      (declared : Run.undeclared? visit.blueprint (visit.placed settled) = none) :
      GoesOn run (.entity visit)
        (.told (.begun visit) :: (own ++ [.remembered run.session settled]))
        (broods visit settled)

end Task

/-! ## Accounts -/

/-- What has become of a task and of the tasks below it. -/
structure Account where
  task : Task
  /-- What the task did itself, before it handed out others. -/
  own : List Event
  /-- The tasks that were handed out, group after group. -/
  gangs : List (List (Waypoint × Account))
  /-- All events, in the order in which they came. -/
  history : History
  fate : Fate

namespace Account

/-- An event of the task itself. -/
def stay (event : Event) : Origin × Event := ([], event)

/-- An event of a task below, as the task above sees it. -/
def enter (place : Waypoint) (entry : Origin × Event) : Origin × Event :=
  (place :: entry.1, entry.2)

/-- What a member contributes to the history of the task that handed it out. -/
def thread (member : Waypoint × Account) : History := member.2.history.map (enter member.1)

/-- The task of a member and the way to it. -/
def tag (member : Waypoint × Account) : Waypoint × Task := (member.1, member.2.task)

/-- The groups of tasks have been handed out in their order as far as the gangs go, the members
of a gang side by side, and each gang when all members of the gangs before it had succeeded. -/
inductive Sequel : List (List (Waypoint × Task)) → List (List (Waypoint × Account)) → History →
    Fate → Prop
  | pending (groups : List (List (Waypoint × Task))) : Sequel groups [] [] .pending
  | through : Sequel [] [] [] .succeeded
  /-- No further gang is handed out, since this one is not through, or has failed, or was given
  up. -/
  | last {group : List (Waypoint × Task)} {groups : List (List (Waypoint × Task))}
      {gang : List (Waypoint × Account)} {braid : History} {fate : Fate} (closing : List Event)
      (handed : gang.map tag = group) (braids : Braids (gang.map thread) braid)
      (quiet : closing = [] ∨ closing = [.gaveUp]) (short : fate ≠ .succeeded)
      (cause : fate = .failed → closing ≠ [] ∨ ∃ member ∈ gang, member.2.fate = .failed) :
      Sequel (group :: groups) [gang] (braid ++ closing.map stay) fate
  | next {group : List (Waypoint × Task)} {groups : List (List (Waypoint × Task))}
      {gang : List (Waypoint × Account)} {gangs : List (List (Waypoint × Account))}
      {braid history : History} {fate : Fate} (handed : gang.map tag = group)
      (braids : Braids (gang.map thread) braid) (well : ∀ member ∈ gang, member.2.fate = .succeeded)
      (later : Sequel groups gangs history fate) :
      Sequel (group :: groups) (gang :: gangs) (braid ++ history) fate

/-- The account is true of a run: each task has done what its plan does. -/
inductive Sound (run : Run) : Account → Prop
  | stopped {task : Task} {own : List Event} {fate : Fate} (stops : task.Stops run own fate) :
      Sound run ⟨task, own, [], own.map stay, fate⟩
  | handing {task : Task} {own : List Event} {groups : List (List (Waypoint × Task))}
      {gangs : List (List (Waypoint × Account))} {history : History} {fate : Fate}
      (goesOn : task.GoesOn run own groups) (sequel : Sequel groups gangs history fate)
      (each : ∀ gang ∈ gangs, ∀ member ∈ gang, Sound run member.2) :
      Sound run ⟨task, own, gangs, own.map stay ++ history, fate⟩

/-- The tasks that were handed out. -/
def members (account : Account) : List (Waypoint × Account) := account.gangs.flatten

/-- The account of the task at the end of a way. -/
def part? (account : Account) : Origin → Option Account
  | [] => some account
  | place :: rest =>
      (account.members.find? fun member => member.1 = place).bind fun member => member.2.part? rest

end Account

/-- What the task at the end of a way did itself. -/
def History.own (history : History) (origin : Origin) : List Event :=
  history.filterMap fun entry => if entry.1 = origin then some entry.2 else none

/-- The events of a history without their origins. -/
def History.events (history : History) : List Event := history.map (·.2)

end DesiredState
