import DesiredState.Entity.Basic

/-!
# Reports of a dry run

A dry run writes nothing. Instead it reports of each entity that it reaches either that
the entity would be created, or which of the desired fields differ from the remote ones.
-/

set_option autoImplicit false

namespace DesiredState

/-- A desired field whose remote value is another one or missing. -/
structure FieldDifference where
  field : String
  remote : Option Json
  desired : Json

/-- What a dry run found out about an entity. -/
inductive Report
  /-- The entity does not exist and would be created with the given fields. -/
  | creation (type label : String) (fields : Json)
  /-- The entity exists and differs in the given fields. -/
  | difference (type label : String) (differences : List FieldDifference)

namespace Report

/-- Whether a remote field says the same as a desired value. -/
def holds (remote : Option Json) (desired : Json) : Bool :=
  match remote with
  | some value => value.agrees desired
  | none => false

/-- The desired fields that differ from the remote ones, in name order. -/
def differences (remote desired : Entity) : List FieldDifference :=
  (desired.fields.entries.filter fun entry => !holds (remote.field? entry.1) entry.2).map
    fun entry => ⟨entry.1, remote.field? entry.1, entry.2⟩

/-- The report on an entity that does not exist. -/
def ofMissing (desired : Entity) : Report :=
  .creation desired.type desired.label desired.body

/-- The report on an entity that exists. -/
def ofExisting (remote desired : Entity) : Report :=
  .difference desired.type desired.label (differences remote desired)

/-- How the report names its entity. -/
def label : Report → String
  | .creation _ label _ => label
  | .difference _ label _ => label

/-- Whether the report says that the entity would be created. -/
def isCreation : Report → Bool
  | .creation .. => true
  | .difference .. => false

/-- A difference as JSON. -/
def differenceJson (difference : FieldDifference) : Json :=
  .object [("desired", difference.desired), ("field", .string difference.field),
    ("remote", difference.remote.getD .null)]

/-- A report as JSON, with its kind as a member. -/
def json : Report → Json
  | .creation type label fields =>
      .object [("entity", .string label), ("entity_type", .string type), ("fields", fields),
        ("kind", .string "create")]
  | .difference type label differences =>
      .object [("diffs", .array (differences.map differenceJson)), ("entity", .string label),
        ("entity_type", .string type), ("kind", .string "difference")]

end Report

end DesiredState
