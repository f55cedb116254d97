import DesiredState.Lineage
import DesiredState.Text.Ascii
import DesiredState.Text.Percent

/-!
# URI templates

A template holds placeholders in braces: `{Type.field}` stands for a field of an
ancestor and `{field}` for a field of the entity itself. Values are percent-encoded, so
a value never adds a character that structures a URI. The placeholder `{uuid}` may be
filled by the entity's name; if it stays, the entity cannot be addressed yet. Any other
placeholder that stays is a fault of the template.

The fields of the ancestors are filled in first, from the root downwards, and then
those of the entity in name order.
-/

set_option autoImplicit false

namespace DesiredState.Template

/-! ## Values in a URI -/

/-- A name without the suffix that starts at the first `$$`. -/
def stripSuffix : List Char → List Char
  | '$' :: '$' :: _ => []
  | [] => []
  | character :: rest => character :: stripSuffix rest

/-- The text of a value before it is encoded: a string as it is, any other value as JSON. -/
def plainText? : Json → Option String
  | .null => none
  | .string text => some text
  | value => some value.print

/-- The characters of a value in a URI; `null` has none. -/
def render? (value : Json) : Option (List Char) :=
  (plainText? value).map fun text => (Text.Percent.encode text).toList

/-! ## Fields of ancestors -/

/-- What a placeholder stands for in an ancestor: the part before its first dot must be the
ancestor's type, ignoring case, and the part after it a field with a value. -/
def ancestorValue? (type : List Char) (fields : NameMap Json) (placeholder : List Char) :
    Option (List Char) :=
  match placeholder.dropWhile (· != '.') with
  | [] => none
  | _ :: field =>
      if Text.sameLetters (String.ofList (placeholder.takeWhile (· != '.')))
          (String.ofList type) then
        (fields.find? (String.ofList field)).bind render?
      else none

/-- A text with every placeholder replaced that `value?` knows. A brace opens a placeholder
that ends with the next closing brace. -/
def fillPlaceholders (value? : List Char → Option (List Char)) : List Char → List Char
  | [] => []
  | '\x7b' :: rest =>
      match _closed : rest.dropWhile (· != '\x7d') with
      | [] => '\x7b' :: rest
      | _ :: after =>
          let placeholder := rest.takeWhile (· != '\x7d')
          let shown := (value? placeholder).getD ('\x7b' :: placeholder ++ ['\x7d'])
          shown ++ fillPlaceholders value? after
  | character :: rest => character :: fillPlaceholders value? rest
termination_by text => text.length
decreasing_by
  · have suffix := (List.dropWhile_suffix (l := rest) (· != '\x7d')).length_le
    rw [_closed] at suffix
    simp only [List.length_cons] at suffix ⊢
    omega
  · simp

/-- A text with the fields of all ancestors filled in. -/
def fillAncestors (lineage : Lineage) (text : List Char) : List Char :=
  lineage.entries.foldl
    (fun filled entry =>
      fillPlaceholders (ancestorValue? (stripSuffix entry.1.toList) entry.2.fields) filled)
    text

/-! ## Fields of the entity -/

/-- A text with every occurrence of `pattern` replaced, from left to right. -/
def replaceAll (pattern replacement : List Char) : List Char → List Char
  | [] => []
  | character :: rest =>
      if _matched : pattern ≠ [] ∧ pattern.isPrefixOf (character :: rest) then
        replacement ++ replaceAll pattern replacement ((character :: rest).drop pattern.length)
      else character :: replaceAll pattern replacement rest
termination_by text => text.length
decreasing_by
  · have nonempty := List.length_pos_iff.mpr _matched.1
    simp only [List.length_drop, List.length_cons]
    omega
  · simp

/-- The placeholder with the given content. -/
def placeholder (content : List Char) : List Char := '\x7b' :: content ++ ['\x7d']

/-- A text with one field of the entity filled in. -/
def fillField (text : List Char) (field : String × Json) : List Char :=
  match render? field.2 with
  | some shown => replaceAll (placeholder (stripSuffix field.1.toList)) shown text
  | none => text

/-- A text with the fields of an entity filled in, in name order. -/
def fillFields (fields : NameMap Json) (text : List Char) : List Char :=
  fields.entries.foldl fillField text

/-! ## Resolution -/

/-- The placeholder for the entity's uuid. -/
def uuidPlaceholder : List Char := placeholder "uuid".toList

/-- Whether `pattern` occurs in a text. -/
def occursIn (pattern : List Char) : List Char → Bool
  | [] => pattern.isEmpty
  | character :: rest => pattern.isPrefixOf (character :: rest) || occursIn pattern rest

/-- A text in which the name of the entity stands for its uuid. -/
def fillUuid (entity : Entity) (text : List Char) : List Char :=
  match (entity.field? "name").bind render? with
  | some shown => replaceAll uuidPlaceholder shown text
  | none => text

/-- What has become of a template. -/
inductive Resolution
  /-- The path of a request. -/
  | path (uri : String)
  /-- The uuid is not known; the rest of the template is filled. -/
  | unidentified (uri : String)
  /-- A placeholder stayed. -/
  | unfilled (uri : String)
  deriving DecidableEq, Repr

/-- The text of a template with everything filled in that has a value. -/
def fill (lineage : Lineage) (entity : Entity) (template : String) : List Char :=
  fillUuid entity (fillFields entity.fields (fillAncestors lineage template.toList))

/-- A path starts with a slash. -/
def rooted (text : List Char) : List Char :=
  match text with
  | '/' :: _ => text
  | _ => '/' :: text

/-- A template filled for an entity with the given ancestors. -/
def resolve (lineage : Lineage) (entity : Entity) (template : String) : Resolution :=
  let filled := fill lineage entity template
  if occursIn uuidPlaceholder filled then .unidentified (String.ofList filled)
  else if filled.contains '\x7b' then .unfilled (String.ofList filled)
  else .path (String.ofList (rooted filled))

end DesiredState.Template
