import DesiredState.Proofs.Schedule.Course

/-!
# Braids

The events of the members of a batch come as a braid: one thread for each member, which keeps
its own order, and no order between the threads. So a braid can be taken apart again if each
item tells its thread: what is picked of one thread only is that thread
(`Braids.filterMap_eq`). And what the items are said to be apart from their order may be said
before they are braided or afterwards (`Braids.lift`).
-/

set_option autoImplicit false

namespace DesiredState

variable {β γ : Type}

/-! ## Merges -/

namespace Merges

/-- A merge of images is the image of a merge. -/
theorem lift {image : β → γ} {first second : List β} {merged : List γ}
    (merges : Merges (first.map image) (second.map image) merged) :
    ∃ whole, Merges first second whole ∧ whole.map image = merged := by
  generalize left : first.map image = before at merges
  generalize right : second.map image = after at merges
  induction merges generalizing first second with
  | nil =>
      rw [List.map_eq_nil_iff] at left right
      subst left right
      exact ⟨[], .nil, rfl⟩
  | left item _ ih =>
      obtain ⟨head, rest, rfl, rfl, same⟩ := List.map_eq_cons_iff.mp left
      obtain ⟨whole, merges, rfl⟩ := ih same right
      exact ⟨head :: whole, .left head merges, rfl⟩
  | right item _ ih =>
      obtain ⟨head, rest, rfl, rfl, same⟩ := List.map_eq_cons_iff.mp right
      obtain ⟨whole, merges, rfl⟩ := ih left same
      exact ⟨head :: whole, .right head merges, rfl⟩

end Merges

/-! ## Braids -/

/-- The list holds the items of the threads, those of each thread in its order. -/
def Braids : List (List β) → List β → Prop
  | [], braid => braid = []
  | thread :: threads, braid => ∃ others, Braids threads others ∧ Merges thread others braid

namespace Braids

theorem perm : ∀ {threads : List (List β)} {braid : List β}, Braids threads braid →
    braid.Perm threads.flatten
  | [], _, braids => by rw [braids, List.flatten_nil]
  | thread :: threads, _, braids => by
      obtain ⟨others, rest, merges⟩ := braids
      exact merges.perm.trans (rest.perm.append_left thread)

/-- What is picked from a braid is a braid of what is picked from the threads. -/
theorem filterMap (pick : β → Option γ) : ∀ {threads : List (List β)} {braid : List β},
    Braids threads braid → Braids (threads.map (·.filterMap pick)) (braid.filterMap pick)
  | [], _, braids => by
      rw [braids]
      exact rfl
  | thread :: threads, _, braids => by
      obtain ⟨others, rest, merges⟩ := braids
      exact ⟨_, rest.filterMap pick, merges.filterMap pick⟩

/-- Threads without items leave nothing. -/
theorem eq_nil {threads : List (List β)} {braid : List β} (braids : Braids threads braid)
    (empty : ∀ thread ∈ threads, thread = []) : braid = [] := by
  have nothing : threads.flatten = [] := List.flatten_eq_nil_iff.mpr empty
  exact List.perm_nil.mp (nothing ▸ braids.perm)

/-- Threads without items are braided to nothing. -/
theorem of_nil : ∀ {threads : List (List β)}, (∀ thread ∈ threads, thread = []) →
    Braids threads []
  | [], _ => rfl
  | thread :: threads, empty => by
      obtain ⟨rfl, rest⟩ := List.forall_mem_cons.mp empty
      exact ⟨[], of_nil rest, .nil⟩

theorem singleton (thread : List β) : Braids [thread] thread :=
  ⟨[], rfl, by simpa using Merges.append thread []⟩

/-- A braid of images is the image of a braid. -/
theorem lift {image : β → γ} : ∀ {threads : List (List β)} {braid : List γ},
    Braids (threads.map (·.map image)) braid →
      ∃ whole, Braids threads whole ∧ whole.map image = braid
  | [], _, braids => ⟨[], rfl, braids.symm⟩
  | thread :: threads, _, braids => by
      obtain ⟨_, rest, merges⟩ := braids
      obtain ⟨others, together, rfl⟩ := rest.lift
      obtain ⟨whole, combined, rfl⟩ := Merges.lift merges
      exact ⟨whole, ⟨others, together, combined⟩, rfl⟩

/-- **What is picked of one thread only is picked of the braid.** The threads are told apart by a
key. -/
theorem filterMap_eq {ι κ : Type} {key : ι → κ} {pick : β → Option γ} {thread : ι → List β} :
    ∀ {items : List ι} {braid : List β}, Braids (items.map thread) braid →
      (items.map key).Nodup → ∀ item ∈ items,
      (∀ other ∈ items, key other ≠ key item → (thread other).filterMap pick = []) →
      braid.filterMap pick = (thread item).filterMap pick
  | [], _, _, _, _, member, _ => nomatch member
  | head :: items, _, braids, distinct, item, member, apart => by
      obtain ⟨others, rest, merges⟩ := braids
      obtain ⟨fresh, following⟩ := List.nodup_cons.mp distinct
      obtain ⟨first, later⟩ := List.forall_mem_cons.mp apart
      have picked := merges.filterMap pick
      rcases List.mem_cons.mp member with rfl | inside
      · have nothing : others.filterMap pick = [] := by
          refine (rest.filterMap pick).eq_nil ?_
          intro picks inThreads
          rw [List.map_map] at inThreads
          obtain ⟨other, inItems, rfl⟩ := List.mem_map.mp inThreads
          exact later other inItems fun same => fresh (same ▸ List.mem_map_of_mem inItems)
        rw [nothing] at picked
        exact picked.eq_of_nil_right
      · have nothing : (thread head).filterMap pick = [] :=
          first fun same => fresh (same ▸ List.mem_map_of_mem inside)
        rw [nothing] at picked
        rw [picked.eq_of_nil_left]
        exact rest.filterMap_eq following item inside later

end Braids

/-- The members of a batch come as a braid. -/
theorem Course.MembersOrder.braids {courses : List Course} {events : List Event}
    (orders : Course.MembersOrder courses events) :
    ∃ threads, List.Forall₂ Course.Orders courses threads ∧ Braids threads events := by
  induction courses generalizing events with
  | nil => exact ⟨[], .nil, orders⟩
  | cons course courses ih =>
      obtain ⟨own, others, ordered, rest, merges⟩ := orders
      obtain ⟨threads, each, braids⟩ := ih rest
      exact ⟨own :: threads, .cons ordered each, others, braids, merges⟩

end DesiredState
