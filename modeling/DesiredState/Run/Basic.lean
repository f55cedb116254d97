import DesiredState.Api.Access
import DesiredState.Settings
import DesiredState.Template

/-!
# Runs

A run is given its settings, an observer or none, and the access to the API; a dry run
reports instead of writing. This module holds the steps that the handling of entities is
made of: telling the observer, resolving templates, setting the field that refers to the
parent, and substitution.
-/

set_option autoImplicit false

namespace DesiredState

/-- What a run works with. -/
structure Run where
  settings : Settings
  observer : Option Observer
  /-- Nothing is written; reports are made instead. -/
  dry : Bool
  session : SessionId
  access : Access

/-- The value that a field takes from the ancestor it refers to. -/
def ParentLink.value (link : ParentLink) (field : String) (lineage : Lineage)
    (entity : Entity) : Except Failure Json :=
  let parentType :=
    if link.reference.entity = FieldReference.parentSentinel then field
    else link.reference.entity
  match lineage.nearest? parentType with
  | none => .error (.parentMissing parentType field entity.type entity.label)
  | some parent =>
      match parent.field? link.reference.field with
      | none | some .null =>
          .error (.parentMissing (parentType ++ "." ++ link.reference.field) field entity.type
            entity.label)
      | some value => .ok value

namespace Run

/-- The label of the run. -/
def label (run : Run) : String := run.settings.label

/-- The observer is told of a moment, and may break off. -/
def observe (run : Run) (moment : Moment) : Plan Unit :=
  match run.observer with
  | none => pure ()
  | some observer =>
      match observer.breaks moment with
      | some cause => .done (.broken cause)
      | none => Plan.tell (.moment moment)

/-- The failure of a call that concerns a type and a path. -/
def callFailure (run : Run) (type uri : String) (source : CallFailure) : Failure :=
  .callFailed type run.label uri source

/-- A template filled for an entity; it stays without a path while its uuid is unknown. -/
def resolve (lineage : Lineage) (entity : Entity) (template : String) :
    Plan (Option String) :=
  match Template.resolve lineage entity template with
  | .path uri => pure (some uri)
  | .unidentified uri => do
      Plan.log (.uuidUnknown uri)
      pure none
  | .unfilled uri => Plan.fail (.templateUnfilled template uri)

/-- The path at which an entity is looked up, if it can be. -/
def lookupPath (blueprint : Blueprint) (lineage : Lineage) (entity : Entity) :
    Plan (Option String) :=
  match blueprint.lookupUri? with
  | none => pure none
  | some template => resolve lineage entity template

/-- The path of a write, which must be known. -/
def required (template : String) (path : Option String) : Plan String :=
  match path with
  | some uri => pure uri
  | none => Plan.fail (.templateUnfilled template template)

/-- The entity with the field set that refers to its parent. -/
def linkParent (blueprint : Blueprint) (lineage : Lineage) (entity : Entity) : Plan Entity :=
  match blueprint.parentLink with
  | none => pure entity
  | some link =>
      match link.name with
      | none => do
          Plan.log (.parentFieldUnnamed entity.type)
          pure entity
      | some field => do
          let value ← Plan.ofExcept (link.value field lineage entity)
          pure (entity.setField field value)

/-- The entity that the observer puts in the place of a flagged one. -/
def substitute (run : Run) (flagged : Bool) (entity : Entity) : Plan Entity :=
  match run.observer, flagged with
  | some observer, true => do
      run.observe (.substitution entity)
      pure (observer.substitute entity)
  | _, _ => pure entity

/-- The report on an entity that does not exist. -/
def reportMissing (blueprint : Blueprint) (entity : Entity) : Plan Unit := do
  Plan.log (.wouldCreate blueprint.name entity.label)
  Plan.tell (.report (.ofMissing entity))

/-- The report on an entity that exists. -/
def reportExisting (blueprint : Blueprint) (remote desired : Entity) : Plan Unit := do
  Plan.log (.wouldCompare blueprint.name desired.label
    (Report.differences remote desired).length)
  Plan.tell (.report (.ofExisting remote desired))

end Run

end DesiredState
