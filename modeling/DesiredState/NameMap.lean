/-!
# Maps from names, listed in name order

Fields of an entity and child lists by type are finite maps from names. They are
kept as association lists whose names strictly increase, so each map has one
representation, its entries are enumerated in the order of the names' code
points, and a name occurs at most once.

**View.** `find?` is the view of a map. Every operation is described by what it
does to this view (`find?_insert`, `find?_erase`, `find?_empty`).
-/

set_option autoImplicit false

namespace DesiredState

/-! ## Sorted entries -/

/-- The entry for `name` put at its place, replacing an entry of the same name. -/
def insertEntry {β : Type} (name : String) (value : β) :
    List (String × β) → List (String × β)
  | [] => [(name, value)]
  | entry :: rest =>
      if name < entry.1 then (name, value) :: entry :: rest
      else if entry.1 < name then entry :: insertEntry name value rest
      else (name, value) :: rest

/-- The names of a list of entries strictly increase. -/
abbrev NamesIncrease {β : Type} (entries : List (String × β)) : Prop :=
  entries.Pairwise fun left right => left.1 < right.1

/-- The value of the first entry with the given name. -/
def lookupEntry {β : Type} (name : String) : List (String × β) → Option β
  | [] => none
  | entry :: rest => if name = entry.1 then some entry.2 else lookupEntry name rest

/-- What is looked up stands among the entries. -/
theorem mem_of_lookupEntry {β : Type} {name : String} {value : β} :
    ∀ {entries : List (String × β)}, lookupEntry name entries = some value →
      (name, value) ∈ entries
  | [], found => nomatch found
  | entry :: rest, found => by
      unfold lookupEntry at found
      split at found
      · rename_i here
        cases found
        exact here ▸ List.mem_cons_self
      · exact List.mem_cons_of_mem _ (mem_of_lookupEntry found)

/-- Names that are not ordered either way are equal. -/
theorem name_eq_of_not_lt {left right : String} (notBelow : ¬ left < right)
    (notAbove : ¬ right < left) : left = right :=
  String.le_antisymm (String.not_lt.mp notAbove) (String.not_lt.mp notBelow)

/-- An entry of the list after an insertion is the inserted one or an old one. -/
theorem mem_insertEntry {β : Type} {name : String} {value : β} {entry : String × β} :
    ∀ {entries : List (String × β)}, entry ∈ insertEntry name value entries →
      entry = (name, value) ∨ entry ∈ entries
  | [], member => .inl (by simpa [insertEntry] using member)
  | first :: rest, member => by
      unfold insertEntry at member
      split at member
      · rcases List.mem_cons.mp member with same | old
        · exact .inl same
        · exact .inr old
      · split at member
        · rcases List.mem_cons.mp member with same | old
          · exact .inr (same ▸ List.mem_cons_self)
          · exact (mem_insertEntry old).imp id (List.mem_cons_of_mem _)
        · rcases List.mem_cons.mp member with same | old
          · exact .inl same
          · exact .inr (List.mem_cons_of_mem _ old)

/-- Insertion keeps the names increasing. -/
theorem namesIncrease_insertEntry {β : Type} (name : String) (value : β) :
    ∀ {entries : List (String × β)}, NamesIncrease entries →
      NamesIncrease (insertEntry name value entries)
  | [], _ => List.pairwise_singleton _ _
  | first :: rest, ordered => by
      obtain ⟨below, restOrdered⟩ := List.pairwise_cons.mp ordered
      unfold insertEntry
      split
      · rename_i nameBelow
        refine List.pairwise_cons.mpr ⟨fun entry member => ?_, ordered⟩
        rcases List.mem_cons.mp member with same | old
        · exact same ▸ nameBelow
        · exact String.lt_trans nameBelow (below entry old)
      · split
        · rename_i nameAbove
          refine List.pairwise_cons.mpr
            ⟨fun entry member => ?_, namesIncrease_insertEntry name value restOrdered⟩
          rcases mem_insertEntry member with same | old
          · exact same ▸ nameAbove
          · exact below entry old
        · rename_i notBelow notAbove
          refine List.pairwise_cons.mpr ⟨fun entry member => ?_, restOrdered⟩
          have same : name = first.1 := name_eq_of_not_lt notBelow notAbove
          exact same ▸ below entry member

/-! ## The map -/

/-- A finite map from names to values, with its entries in name order. -/
structure NameMap (β : Type) where
  entries : List (String × β)
  ordered : NamesIncrease entries

namespace NameMap

variable {β γ : Type}

/-- The map without entries. -/
def empty : NameMap β := ⟨[], .nil⟩

instance : Inhabited (NameMap β) := ⟨empty⟩

/-- The value under a name, if there is one. -/
def find? (map : NameMap β) (name : String) : Option β :=
  lookupEntry name map.entries

/-- The map with `name` bound to `value`. -/
def insert (map : NameMap β) (name : String) (value : β) : NameMap β :=
  ⟨insertEntry name value map.entries, namesIncrease_insertEntry name value map.ordered⟩

/-- The map without an entry for `name`. -/
def erase (map : NameMap β) (name : String) : NameMap β :=
  ⟨map.entries.filter (·.1 != name), map.ordered.filter _⟩

/-- The map of a list of entries; of entries with one name the last counts. -/
def ofList (entries : List (String × β)) : NameMap β :=
  entries.foldl (fun map entry => map.insert entry.1 entry.2) empty

/-- The names in order. -/
def names (map : NameMap β) : List String := map.entries.map (·.1)

/-- The values in the order of their names. -/
def values (map : NameMap β) : List β := map.entries.map (·.2)

/-- The map with every value replaced by its image. -/
def map (transform : β → γ) (source : NameMap β) : NameMap γ :=
  ⟨source.entries.map fun entry => (entry.1, transform entry.2),
    List.pairwise_map.mpr source.ordered⟩

/-! ## The view of each operation -/

@[simp] theorem find?_empty (name : String) : (empty : NameMap β).find? name = none := rfl

/-- Looking a name up after an insertion into a list of entries. -/
theorem lookupEntry_insertEntry (name other : String) (value : β) :
    ∀ {entries : List (String × β)}, NamesIncrease entries →
      lookupEntry other (insertEntry name value entries) =
        if other = name then some value else lookupEntry other entries
  | [], _ => rfl
  | first :: rest, ordered => by
      obtain ⟨below, restOrdered⟩ := List.pairwise_cons.mp ordered
      unfold insertEntry
      split
      · rfl
      · split
        · rename_i nameAbove
          have apart : first.1 ≠ name := fun same => String.lt_irrefl name (same ▸ nameAbove)
          simp only [lookupEntry, lookupEntry_insertEntry name other value restOrdered]
          split
          · rename_i atFirst
            simp [atFirst, apart]
          · rfl
        · rename_i notBelow notAbove
          have same : name = first.1 := name_eq_of_not_lt notBelow notAbove
          simp only [lookupEntry, same]
          split <;> rfl

/-- An insertion is seen at its own name and nowhere else. -/
@[simp] theorem find?_insert (map : NameMap β) (name other : String) (value : β) :
    (map.insert name value).find? other = if other = name then some value else map.find? other :=
  lookupEntry_insertEntry name other value map.ordered

/-- Looking a name up among the entries whose name is not `name`. -/
theorem lookupEntry_filter_ne (name other : String) :
    ∀ entries : List (String × β),
      lookupEntry other (entries.filter (·.1 != name)) =
        if other = name then none else lookupEntry other entries
  | [] => by simp [lookupEntry]
  | first :: rest => by
      by_cases dropped : first.1 = name
      · simp only [List.filter_cons, dropped, bne_self_eq_false, Bool.false_eq_true, if_false,
          lookupEntry, lookupEntry_filter_ne name other rest]
        split <;> simp_all
      · have kept : (first.1 != name) = true := by simpa using dropped
        simp only [List.filter_cons, kept, if_true, lookupEntry,
          lookupEntry_filter_ne name other rest]
        by_cases atFirst : other = first.1
        · simp [atFirst, dropped]
        · simp [atFirst]

/-- An erased name has no value; other names keep theirs. -/
@[simp] theorem find?_erase (map : NameMap β) (name other : String) :
    (map.erase name).find? other = if other = name then none else map.find? other :=
  lookupEntry_filter_ne name other map.entries

end NameMap

end DesiredState
