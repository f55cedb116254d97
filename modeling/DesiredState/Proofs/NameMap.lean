import DesiredState.Json.Basic
import Mathlib.Data.List.Perm.Basic

/-!
# Entries of maps

More on the entries of maps from names: each entry is found under its name, a list without
repetitions that covers the names goes through all entries (`flatMap_lookupEntry_perm`), and a
map is rebuilt from its entries.
-/

set_option autoImplicit false

namespace DesiredState

variable {β γ : Type}

/-- An entry is found under its name. -/
theorem lookupEntry_of_mem : ∀ {entries : List (String × β)}, NamesIncrease entries →
    ∀ entry ∈ entries, lookupEntry entry.1 entries = some entry.2
  | first :: rest, ordered, entry, member => by
      obtain ⟨below, restOrdered⟩ := List.pairwise_cons.mp ordered
      unfold lookupEntry
      rcases List.mem_cons.mp member with rfl | inRest
      · rw [if_pos rfl]
      · have apart : entry.1 ≠ first.1 := fun same =>
          String.lt_irrefl first.1 (same ▸ below entry inRest)
        rw [if_neg apart, lookupEntry_of_mem restOrdered entry inRest]

/-- The names of a list of entries are all different. -/
theorem nodup_names {entries : List (String × β)} (ordered : NamesIncrease entries) :
    (entries.map (·.1)).Nodup := by
  refine List.pairwise_map.mpr (ordered.imp fun {left right} below same => ?_)
  rw [same] at below
  exact String.lt_irrefl right.1 below

theorem lookupEntry_cons_ne {name : String} {entry : String × β} {entries : List (String × β)}
    (apart : name ≠ entry.1) : lookupEntry name (entry :: entries) = lookupEntry name entries := by
  rw [lookupEntry, if_neg apart]

/-- Names that cover the entries lead through all entries. -/
theorem flatMap_lookupEntry_perm (image : String → List β → List γ)
    (nothing : ∀ name, image name [] = []) :
    ∀ {entries : List (String × List β)} {names : List String},
      NamesIncrease entries → names.Nodup →
      (∀ entry ∈ entries, entry.2 ≠ [] → entry.1 ∈ names) →
      (names.flatMap fun name => image name ((lookupEntry name entries).getD [])).Perm
        (entries.flatMap fun entry => image entry.1 entry.2)
  | [], names, _, _, _ => by
      have none : (names.flatMap fun name => image name ((lookupEntry name []).getD [])) = [] :=
        List.flatMap_eq_nil_iff.mpr fun name _ => nothing name
      rw [none]
      exact .nil
  | entry :: rest, names, ordered, nodup, covers => by
      obtain ⟨below, restOrdered⟩ := List.pairwise_cons.mp ordered
      obtain ⟨first, others⟩ := List.forall_mem_cons.mp covers
      have apart : ∀ other ∈ rest, other.1 ≠ entry.1 := fun other member same =>
        String.lt_irrefl entry.1 (same ▸ below other member)
      by_cases named : entry.1 ∈ names
      · have split := (List.perm_cons_erase named).flatMap_right fun name =>
          image name ((lookupEntry name (entry :: rest)).getD [])
        refine split.trans ?_
        rw [List.flatMap_cons, List.flatMap_cons, lookupEntry, if_pos rfl]
        refine List.Perm.append_left _ ?_
        have same : ∀ name ∈ names.erase entry.1,
            image name ((lookupEntry name (entry :: rest)).getD [])
              = image name ((lookupEntry name rest).getD []) := fun name member => by
          rw [lookupEntry_cons_ne (nodup.mem_erase_iff.mp member).1]
        rw [List.flatMap_congr same]
        exact flatMap_lookupEntry_perm image nothing restOrdered (nodup.erase _)
          fun other member some => nodup.mem_erase_iff.mpr
            ⟨apart other member, others other member some⟩
      · have empty : entry.2 = [] := by
          by_contra some
          exact named (first some)
        have same : ∀ name ∈ names, image name ((lookupEntry name (entry :: rest)).getD [])
            = image name ((lookupEntry name rest).getD []) := fun name member => by
          rw [lookupEntry_cons_ne fun same => named (same ▸ member)]
        rw [List.flatMap_congr same, List.flatMap_cons, empty, nothing, List.nil_append]
        exact flatMap_lookupEntry_perm image nothing restOrdered nodup others

/-! ## Rebuilding a map -/

/-- An entry behind all others is put at the end. -/
theorem insertEntry_last (name : String) (value : β) :
    ∀ {entries : List (String × β)}, (∀ entry ∈ entries, entry.1 < name) →
      insertEntry name value entries = entries ++ [(name, value)]
  | [], _ => rfl
  | first :: rest, behind => by
      obtain ⟨here, there⟩ := List.forall_mem_cons.mp behind
      have passed : ¬ name < first.1 := fun above => String.lt_irrefl _ (String.lt_trans above here)
      rw [insertEntry, if_neg passed, if_pos here, insertEntry_last name value there,
        List.cons_append]

/-- Entries in order are put one behind the other. -/
theorem foldl_insert_entries :
    ∀ {entries : List (String × β)} {map : NameMap β}, NamesIncrease (map.entries ++ entries) →
      (entries.foldl (fun map entry => map.insert entry.1 entry.2) map).entries
        = map.entries ++ entries
  | [], map, _ => (List.append_nil _).symm
  | entry :: rest, map, ordered => by
      have behind : ∀ other ∈ map.entries, other.1 < entry.1 := fun other member =>
        (List.pairwise_append.mp ordered).2.2 other member entry List.mem_cons_self
      have put : (map.insert entry.1 entry.2).entries = map.entries ++ [entry] :=
        insertEntry_last entry.1 entry.2 behind
      have all : NamesIncrease ((map.insert entry.1 entry.2).entries ++ rest) := by
        rwa [put, List.append_assoc]
      rw [List.foldl_cons, foldl_insert_entries all, put, List.append_assoc, List.singleton_append]

/-- A map is made from its entries. -/
@[simp] theorem NameMap.ofList_entries (map : NameMap β) : ofList map.entries = map := by
  obtain ⟨entries, ordered⟩ := map
  have same : (ofList entries).entries = entries := by
    rw [ofList, foldl_insert_entries ordered]
    rfl
  cases rebuilt : ofList entries with
  | mk others _ =>
      rw [rebuilt] at same
      cases same
      rfl

@[simp] theorem Json.members?_ofMap (map : NameMap Json) :
    (Json.ofMap map).members? = some map := by
  rw [ofMap, members?, NameMap.ofList_entries]

/-- Objects of different maps differ. -/
theorem Json.ofMap_inj {first second : NameMap Json} (same : Json.ofMap first = .ofMap second) :
    first = second := by
  have members := congrArg members? same
  rw [members?_ofMap, members?_ofMap] at members
  exact Option.some.inj members

end DesiredState
