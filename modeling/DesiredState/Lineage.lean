import DesiredState.Entity.Basic
import DesiredState.Text.Ascii

/-!
# The ancestors of an entity

While an entity is handled its ancestors are at hand under their types, root first.
A type occurs once: an ancestor of a type that already occurs replaces the earlier one
where it stands. Each child is handed its own lineage, so nothing that one child adds
is seen by another.
-/

set_option autoImplicit false

namespace DesiredState

/-- The ancestors by type, root first. -/
structure Lineage where
  entries : List (String × Entity)

namespace Lineage

/-- The lineage of a root. -/
def empty : Lineage := ⟨[]⟩

instance : Inhabited Lineage := ⟨empty⟩

/-- Entries with the one of a type replaced, or a new one at the end. -/
def put (type : String) (entity : Entity) : List (String × Entity) → List (String × Entity)
  | [] => [(type, entity)]
  | entry :: rest =>
      if entry.1 = type then (entry.1, entity) :: rest else entry :: put type entity rest

/-- The lineage with an entity under a type. -/
def insert (lineage : Lineage) (type : String) (entity : Entity) : Lineage :=
  ⟨put type entity lineage.entries⟩

/-- The ancestor of a type. -/
def find? (lineage : Lineage) (type : String) : Option Entity :=
  lookupEntry type lineage.entries

/-- Looking a type up among entries in which the one of a type has been replaced. -/
theorem lookupEntry_put (type other : String) (entity : Entity) :
    ∀ entries : List (String × Entity),
      lookupEntry other (put type entity entries) =
        if other = type then some entity else lookupEntry other entries
  | [] => rfl
  | entry :: rest => by
      unfold put
      split
      · rename_i found
        simp only [lookupEntry, found]
        split <;> rfl
      · rename_i passed
        simp only [lookupEntry, lookupEntry_put type other entity rest]
        split
        · rename_i here
          simp [here, passed]
        · rfl

/-- An inserted entity is found under its type, and the others are found as before. -/
@[simp] theorem find?_insert (lineage : Lineage) (type other : String) (entity : Entity) :
    (lineage.insert type entity).find? other =
      if other = type then some entity else lineage.find? other :=
  lookupEntry_put type other entity lineage.entries

/-- The nearest ancestor of a type, ignoring the case of ASCII letters. -/
def nearest? (lineage : Lineage) (type : String) : Option Entity :=
  (lineage.entries.reverse.find? fun entry => Text.sameLetters entry.1 type).map (·.2)

/-- The number of types. -/
def size (lineage : Lineage) : Nat := lineage.entries.length

/-- Whether there is no ancestor. -/
def isEmpty (lineage : Lineage) : Bool := lineage.entries.isEmpty

/-- Whether two lineages have the same ancestors in the same order. -/
def agrees (left right : Lineage) : Bool :=
  left.size == right.size
    && (left.entries.zip right.entries).all fun pair =>
      pair.1.1 == pair.2.1 && pair.1.2.agrees pair.2.2

end Lineage

end DesiredState
