import DesiredState.Lineage
import Mathlib.Data.List.Induction
import Mathlib.Data.List.Nodup

/-!
# Lineages of chains

On the way from a root down to an entity each entity is put under its type. A type that occurs
again replaces the earlier entity where it stands, so in the lineage of such a chain a type stands
where its outermost entity stood (`names_ofChain`), and holds the deepest one (`entry_ofChain`).
-/

set_option autoImplicit false

namespace DesiredState.Lineage

/-! ## Putting an entity under its type -/

/-- A type that already occurs stays where it is, and a new one comes last. -/
theorem names_put (type : String) (entity : Entity) : ∀ entries : List (String × Entity),
    (put type entity entries).map (·.1)
      = if type ∈ entries.map (·.1) then entries.map (·.1) else entries.map (·.1) ++ [type]
  | [] => rfl
  | entry :: rest => by
      unfold put
      split
      · rename_i here
        simp [here]
      · rename_i passed
        have other : type ≠ entry.1 := Ne.symm passed
        rw [List.map_cons, names_put type entity rest, List.map_cons]
        by_cases known : type ∈ rest.map (·.1)
        · rw [if_pos known, if_pos (List.mem_cons_of_mem _ known)]
        · rw [if_neg known, List.cons_append,
            if_neg fun member => ((List.mem_cons.mp member).elim other known)]

/-- No type comes to stand twice. -/
theorem nodup_put {entries : List (String × Entity)} (distinct : (entries.map (·.1)).Nodup)
    (type : String) (entity : Entity) : ((put type entity entries).map (·.1)).Nodup := by
  rw [names_put]
  split
  · exact distinct
  · rename_i unknown
    exact distinct.append (List.nodup_singleton _) (by simpa using unknown)

/-- Where no type stands twice, an entry is found under its type. -/
theorem lookupEntry_of_nodup {entries : List (String × Entity)}
    (distinct : (entries.map (·.1)).Nodup) :
    ∀ entry ∈ entries, lookupEntry entry.1 entries = some entry.2 := by
  induction entries with
  | nil => exact List.forall_mem_nil _
  | cons first rest ih =>
      obtain ⟨apart, distinct⟩ := List.nodup_cons.mp distinct
      refine List.forall_mem_cons.mpr ⟨by simp [lookupEntry], fun entry member => ?_⟩
      have other : entry.1 ≠ first.1 := fun same =>
        apart (List.mem_map.mpr ⟨entry, member, same⟩)
      rw [lookupEntry, if_neg other, ih distinct entry member]

/-! ## Chains -/

/-- The lineage of a chain of entities, each of them put under its type, root first. -/
def ofChain (chain : List (String × Entity)) : Lineage :=
  chain.foldl (fun lineage link => lineage.insert link.1 link.2) .empty

theorem ofChain_concat (chain : List (String × Entity)) (link : String × Entity) :
    ofChain (chain ++ [link]) = (ofChain chain).insert link.1 link.2 := List.foldl_append

variable {chain : List (String × Entity)}

/-- **Each type stands once, at the place of its outermost entity.** -/
theorem names_ofChain (chain : List (String × Entity)) :
    (ofChain chain).entries.map (·.1) = (chain.map (·.1)).eraseDups := by
  induction chain using List.reverseRecOn with
  | nil => rfl
  | append_singleton chain link ih =>
      rw [ofChain_concat, insert, names_put, ih, List.map_append, List.map_singleton,
        List.eraseDups_append]
      by_cases known : link.1 ∈ chain.map (·.1)
      · have nothing : [link.1].removeAll (chain.map (·.1)) = [] :=
          List.filter_eq_nil_iff.mpr (by simpa using known)
        rw [if_pos (List.mem_eraseDups.mpr known), nothing, List.eraseDups_nil, List.append_nil]
      · have kept : [link.1].removeAll (chain.map (·.1)) = [link.1] :=
          List.filter_eq_self.mpr (by simpa using known)
        rw [if_neg fun member => known (List.mem_eraseDups.mp member), kept]
        rfl

theorem nodup_ofChain (chain : List (String × Entity)) :
    ((ofChain chain).entries.map (·.1)).Nodup := by
  induction chain using List.reverseRecOn with
  | nil => exact List.nodup_nil
  | append_singleton chain link ih =>
      rw [ofChain_concat]
      exact nodup_put ih link.1 link.2

/-- **A type holds its deepest entity.** -/
theorem find?_ofChain (chain : List (String × Entity)) (type : String) :
    (ofChain chain).find? type = (chain.reverse.find? (·.1 = type)).map (·.2) := by
  induction chain using List.reverseRecOn with
  | nil => rfl
  | append_singleton chain link ih =>
      rw [ofChain_concat, find?_insert, ih, List.reverse_append, List.reverse_singleton,
        List.singleton_append, List.find?_cons]
      by_cases here : type = link.1
      · simp [here]
      · simp [here, Ne.symm here]

/-- What stands in the lineage of a chain is the deepest entity of its type. -/
theorem entry_ofChain :
    ∀ entry ∈ (ofChain chain).entries, chain.reverse.find? (·.1 = entry.1) = some entry := by
  rintro ⟨type, entity⟩ member
  have found : (ofChain chain).find? type = some entity :=
    lookupEntry_of_nodup (nodup_ofChain chain) _ member
  rw [find?_ofChain] at found
  obtain ⟨⟨other, _⟩, deepest, rfl⟩ := Option.map_eq_some_iff.mp found
  obtain rfl : other = type := by simpa using List.find?_some deepest
  exact deepest

end DesiredState.Lineage
