import DesiredState.Entity.Basic
import DesiredState.Proofs.NameMap

/-!
# Fields of entities

When a desired entity is laid over a remote one, each field has one of three values: that of the
desired entity where it is there and not null, else that of the remote entity, else none. No other
field and no other part of either entity plays a role.
-/

set_option autoImplicit false

namespace DesiredState

namespace Entity

/-- What is laid over fields shows where it is there and not null. -/
theorem find?_foldl_lay (name : String) :
    ∀ {entries : List (String × Json)} {below : NameMap Json}, NamesIncrease entries →
      (entries.foldl (fun fields entry =>
          if entry.2.isNull then fields else fields.insert entry.1 entry.2) below).find? name
        = ((lookupEntry name entries).filter fun value => !value.isNull).or (below.find? name)
  | [], below, _ => by simp [lookupEntry]
  | entry :: rest, below, ordered => by
      obtain ⟨apart, restOrdered⟩ := List.pairwise_cons.mp ordered
      rw [List.foldl_cons, find?_foldl_lay name restOrdered, lookupEntry]
      by_cases here : name = entry.1
      · -- no later entry has the name again
        have once : lookupEntry name rest = none := by
          by_contra again
          obtain ⟨value, found⟩ := Option.ne_none_iff_exists'.mp again
          exact String.lt_irrefl entry.1 (here ▸ apart _ (mem_of_lookupEntry found))
        rw [once, if_pos here, Option.filter_some, Option.filter_none, Option.none_or]
        by_cases null : entry.2.isNull = true
        · simp [null]
        · simp [null, here]
      · rw [if_neg here]
        by_cases null : entry.2.isNull = true
        · rw [if_pos null]
        · rw [if_neg null, NameMap.find?_insert, if_neg here]

/-- **The fields of an entity laid over another one.** -/
theorem field?_laidOver (desired remote : Entity) (name : String) :
    (desired.laidOver remote).field? name
      = ((desired.field? name).filter fun value => !value.isNull).or (remote.field? name) :=
  find?_foldl_lay name desired.fields.ordered

/-- A field is set at its own name and nowhere else. -/
theorem field?_setField (entity : Entity) (name other : String) (value : Json) :
    (entity.setField name value).field? other
      = if other = name then some value else entity.field? other :=
  NameMap.find?_insert entity.fields name other value

end Entity

end DesiredState
