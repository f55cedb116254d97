import DesiredState.Blueprint.Basic
import DesiredState.Json.Basic

/-!
# Blueprints as JSON

A blueprint is written as an object in which absent options have no member. Reading
accepts members in any order and ignores unknown ones; a missing member takes its
default, and an option may also be `null`. A record may also be given as the array of
its members' values in the order of their declaration, with defaults for those left out at
the end.

**Which fault is told.** Members are read in name order, and the first fault decides. Only an
unknown verb is told apart from the other faults.
-/

set_option autoImplicit false

namespace DesiredState.Blueprint

/-- Why a value is no blueprint. -/
inductive Defect
  /-- A value has the wrong type, or an array has too many items. -/
  | shape
  /-- A verb is unknown. -/
  | verb (unknown : Method.Unknown)
  deriving DecidableEq, Repr

/-! ## Reading -/

/-- A string. -/
def readString : Json → Except Defect String
  | .string value => .ok value
  | _ => .error .shape

/-- A string or `null`. -/
def readOptionalString : Json → Except Defect (Option String)
  | .null => .ok none
  | .string value => .ok (some value)
  | _ => .error .shape

/-- A verb. -/
def readMethod (value : Json) : Except Defect Method := do
  match Method.read (← readString value) with
  | .ok method => .ok method
  | .error unknown => .error (.verb unknown)

/-- The members of a field reference read one by one over the defaults. -/
def readReferenceMembers :
    FieldReference → List (String × Json) → Except Defect FieldReference
  | reference, [] => .ok reference
  | reference, (name, value) :: rest => do
      let next ← match name with
        | "entity" => (readString value).map fun entity => { reference with entity }
        | "field" => (readString value).map fun field => { reference with field }
        | _ => .ok reference
      readReferenceMembers next rest

/-- A field reference. -/
def readReference : Json → Except Defect FieldReference
  | .object members => readReferenceMembers .standard members
  | .array [] => .ok .standard
  | .array [entity] => do .ok { FieldReference.standard with entity := ← readString entity }
  | .array [entity, field] => do .ok ⟨← readString entity, ← readString field⟩
  | _ => .error .shape

/-- The members of a parent link read one by one over the defaults. -/
def readLinkMembers : ParentLink → List (String × Json) → Except Defect ParentLink
  | link, [] => .ok link
  | link, (name, value) :: rest => do
      let next ← match name with
        | "name" => (readOptionalString value).map fun name => { link with name }
        | "reference" => (readReference value).map fun reference => { link with reference }
        | _ => .ok link
      readLinkMembers next rest

/-- A parent link or `null`. -/
def readLink : Json → Except Defect (Option ParentLink)
  | .null => .ok none
  | .object members => (readLinkMembers ⟨none, .standard⟩ members).map some
  | .array [] => .ok (some ⟨none, .standard⟩)
  | .array [name] => do .ok (some ⟨← readOptionalString name, .standard⟩)
  | .array [name, reference] => do
      .ok (some ⟨← readOptionalString name, ← readReference reference⟩)
  | _ => .error .shape

/-- A member that holds no blueprints, read over what is known so far. -/
def readPlainMember (blueprint : Blueprint) (name : String) (value : Json) :
    Except Defect Blueprint :=
  match name with
  | "name" => (readString value).map fun name => { blueprint with name }
  | "className" =>
      (readOptionalString value).map fun className => { blueprint with className }
  | "createUri" => (readString value).map fun createUri => { blueprint with createUri }
  | "createMethod" =>
      (readMethod value).map fun createMethod => { blueprint with createMethod }
  | "updateUri" =>
      (readOptionalString value).map fun updateUri => { blueprint with updateUri }
  | "updateMethod" =>
      (readMethod value).map fun updateMethod => { blueprint with updateMethod }
  | "parentField" => (readLink value).map fun parentLink => { blueprint with parentLink }
  | _ => .ok blueprint

/-- The members of a blueprint in the order in which an array gives them. -/
def memberOrder : List String :=
  ["name", "className", "createUri", "createMethod", "updateUri", "updateMethod",
    "parentField", "children"]

mutual

/-- A blueprint. -/
def read : Json → Except Defect Blueprint
  | .object members => readMembers blank members
  | .array items => readItems blank memberOrder items
  | _ => .error .shape

/-- The members of a blueprint read one by one over what is known so far. -/
def readMembers : Blueprint → List (String × Json) → Except Defect Blueprint
  | blueprint, [] => .ok blueprint
  | blueprint, (name, value) :: rest => do
      if name = "children" then
        let children ← readChildren value
        readMembers { blueprint with children } rest
      else
        let next ← readPlainMember blueprint name value
        readMembers next rest

/-- The items of an array read as the members with the given names. -/
def readItems : Blueprint → List String → List Json → Except Defect Blueprint
  | blueprint, _, [] => .ok blueprint
  | _, [], _ :: _ => .error .shape
  | blueprint, name :: names, value :: rest => do
      if name = "children" then
        let children ← readChildren value
        readItems { blueprint with children } names rest
      else
        let next ← readPlainMember blueprint name value
        readItems next names rest

/-- The blueprints of the child types, or `null`. -/
def readChildren : Json → Except Defect (Option (List (String × Blueprint)))
  | .null => .ok none
  | .object members => do .ok (some (← readEach members))
  | _ => .error .shape

/-- The blueprints of the child types one by one. -/
def readEach : List (String × Json) → Except Defect (List (String × Blueprint))
  | [] => .ok []
  | (name, value) :: rest => do
      let child ← read value
      let others ← readEach rest
      .ok (insertEntry name child others)

end

/-! ## Writing -/

/-- The member of an option, if it has a value. -/
def optional (name : String) (value : Option Json) : List (String × Json) :=
  (value.map fun value => (name, value)).toList

/-- A field reference as JSON. -/
def writeReference (reference : FieldReference) : Json :=
  .object [("entity", .string reference.entity), ("field", .string reference.field)]

/-- A parent link as JSON. -/
def writeLink (link : ParentLink) : Json :=
  .object (optional "name" (link.name.map .string)
    ++ [("reference", writeReference link.reference)])

mutual

/-- A blueprint as JSON, with its members in name order. -/
def write : Blueprint → Json
  | ⟨name, className, createUri, createMethod, updateUri, updateMethod, parentLink, children⟩ =>
      .object (
        (match children with
          | none => []
          | some types => [("children", .object (writeEach types))])
        ++ optional "className" (className.map .string)
        ++ [("createMethod", .string createMethod.text), ("createUri", .string createUri),
          ("name", .string name)]
        ++ optional "parentField" (parentLink.map writeLink)
        ++ [("updateMethod", .string updateMethod.text)]
        ++ optional "updateUri" (updateUri.map .string))

/-- The blueprints of the child types as members. -/
def writeEach : List (String × Blueprint) → List (String × Json)
  | [] => []
  | (name, child) :: rest => (name, write child) :: writeEach rest

end

end DesiredState.Blueprint
