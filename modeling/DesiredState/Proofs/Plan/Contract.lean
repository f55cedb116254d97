import DesiredState.Proofs.Plan.Endings

/-!
# Contracts

A contract says which requests a task may send, which answers it may rely on, which entities may
be begun and which children may be handed out. A plan keeps a contract if it does only what it
may as long as it gets only answers that it may rely on. When the tasks of all children that may
be handed out keep it as well, then so does every interleaving: up to the first answer that
could not be relied on, nothing is done that is not allowed (`Takes.allowed`), and a task that
has ended by then has ended as the contract promises (`Takes.ends`).

**Strict contracts.** Under a strict contract no batch is given up and every task ends with a
value.
-/

set_option autoImplicit false

namespace DesiredState

/-- What tasks may do, and what they may rely on. -/
structure Contract where
  asks : Request → Prop
  hears : Request → Exchange → Prop
  begins : Visit → Prop
  /-- The children that may be handed out. -/
  accepts : Batch → Entity → Prop
  /-- Every task ends with a value, and no batch is given up. -/
  strict : Prop

/-- What may be relied on. -/
def Contract.Fine (contract : Contract) : Event → Prop
  | .called call => contract.hears call.request call.exchange
  | .gaveUp => ¬ contract.strict
  | _ => True

/-- What may be done. -/
def Contract.Allowed (contract : Contract) : Event → Prop
  | .called call => contract.asks call.request
  | .told (.begun visit) => contract.begins visit
  | _ => True

namespace Plan

variable {α β : Type} {contract : Contract} {run : Run}

/-- The plan keeps the contract and can end only with a value as promised; under a contract that
is not strict it may also fail. -/
def Keeps (contract : Contract) (promise : α → Prop) : Plan α → Prop
  | .done (.value value) => promise value
  | .done (.failed _) => ¬ contract.strict
  | .done (.broken _) => ¬ contract.strict
  | .call request next =>
      contract.asks request ∧
        ∀ exchange, contract.hears request exchange → (next exchange).Keeps contract promise
  | .note (.begun visit) next => contract.begins visit ∧ next.Keeps contract promise
  | .note (.moment _) next => next.Keeps contract promise
  | .note (.report _) next => next.Keeps contract promise
  | .note (.event _) next => next.Keeps contract promise
  | .remember _ _ next => next.Keeps contract promise
  | .recall _ _ next => ∀ known, (next known).Keeps contract promise
  | .batch group next =>
      (∀ child ∈ group.children, contract.accepts group child) ∧
        ∀ result, (contract.strict → result = ⟨[], false⟩) →
          (next result).Keeps contract promise

namespace Keeps

variable {promise : α → Prop}

theorem of_note {notice : Notice} {next : Plan α}
    (keeps : (Plan.note notice next).Keeps contract promise) : next.Keeps contract promise := by
  cases notice with
  | begun visit => exact keeps.2
  | moment moment => exact keeps
  | report report => exact keeps
  | event line => exact keeps

theorem pure {value : α} (kept : promise value) :
    (Pure.pure value : Plan α).Keeps contract promise := kept

theorem pure_eq (value : α) : (Pure.pure value : Plan α).Keeps contract (· = value) := rfl

/-- A sequence keeps the contract if its parts do. -/
theorem bind {goal : β → Prop} {continuation : α → Plan β}
    (after : ∀ value, promise value → (continuation value).Keeps contract goal) :
    ∀ {plan : Plan α}, plan.Keeps contract promise →
      (plan >>= continuation).Keeps contract goal
  | .done (.value value), keeps => after value keeps
  | .done (.failed _), keeps => keeps
  | .done (.broken _), keeps => keeps
  | .call _ _, keeps => ⟨keeps.1, fun exchange hears => bind after (keeps.2 exchange hears)⟩
  | .note (.begun _) next, keeps =>
      ⟨keeps.1, (bind after keeps.2 : (next >>= continuation).Keeps contract goal)⟩
  | .note (.moment _) next, keeps =>
      (bind after keeps : (next >>= continuation).Keeps contract goal)
  | .note (.report _) next, keeps =>
      (bind after keeps : (next >>= continuation).Keeps contract goal)
  | .note (.event _) next, keeps =>
      (bind after keeps : (next >>= continuation).Keeps contract goal)
  | .remember _ _ next, keeps =>
      (bind after keeps : (next >>= continuation).Keeps contract goal)
  | .recall _ _ _, keeps => fun known => bind after (keeps known)
  | .batch _ _, keeps => ⟨keeps.1, fun result good => bind after (keeps.2 result good)⟩

/-- What a plan without batches goes on with after answers that could be relied on is as
promised. -/
theorem of_sends {plan : Plan α} : ∀ {sent : List Call} {value : α},
    plan.Keeps contract promise → plan.Sends sent value →
      (∀ call ∈ sent, contract.hears call.request call.exchange) → promise value := by
  induction plan with
  | done outcome =>
      intro sent value keeps sends _
      cases outcome with
      | value ended =>
          obtain ⟨_, rfl⟩ := sends
          exact keeps
      | failed failure => exact sends.elim
      | broken cause => exact sends.elim
  | call request next ih =>
      intro sent value keeps sends heard
      obtain ⟨exchange, rest, rfl, sends⟩ := sends
      obtain ⟨first, others⟩ := List.forall_mem_cons.mp heard
      exact ih exchange (keeps.2 exchange first) sends others
  | note notice next ih => exact fun keeps sends heard => ih keeps.of_note sends heard
  | remember session entity next ih => exact fun keeps sends heard => ih keeps sends heard
  | «recall» session entity next ih =>
      intro sent value keeps sends heard
      obtain ⟨known, sends⟩ := sends
      exact ih known (keeps known) sends heard
  | batch group next ih => exact fun _ sends => sends.elim

end Keeps

end Plan

/-! ## Splitting an order -/

/-- An item of two lists one after another is in the first or behind it. -/
theorem split_append {γ : Type} {before later first second : List γ} {item : γ}
    (same : before ++ item :: later = first ++ second) :
    (∃ rest, first = before ++ item :: rest) ∨
      ∃ behind, before = first ++ behind ∧ second = behind ++ item :: later := by
  rcases List.append_eq_append_iff.mp same with ⟨rest, whole, split⟩ | ⟨behind, whole, split⟩
  · cases rest with
    | nil => exact .inr ⟨[], by rw [whole, List.append_nil, List.append_nil], split.symm⟩
    | cons head rest =>
        obtain ⟨rfl, _⟩ := List.cons.inj split
        exact .inl ⟨rest, whole⟩
  · exact .inr ⟨behind, whole, split⟩

/-- An item of a merge is an item of one of its parts, and what precedes it there precedes it in
the merge. -/
theorem Merges.split {γ : Type} {first second merged : List γ}
    (merges : Merges first second merged) :
    ∀ {before later : List γ} {item : γ}, merged = before ++ item :: later →
      (∃ ahead rest, first = ahead ++ item :: rest ∧ ∀ other ∈ ahead, other ∈ before) ∨
      ∃ ahead rest, second = ahead ++ item :: rest ∧ ∀ other ∈ ahead, other ∈ before := by
  induction merges with
  | nil =>
      intro before later item same
      simp at same
  | @left first second merged head _ ih =>
      intro before later item same
      cases before with
      | nil =>
          obtain ⟨rfl, rfl⟩ := List.cons.inj same
          exact .inl ⟨[], first, rfl, List.forall_mem_nil _⟩
      | cons other before =>
          obtain ⟨rfl, rfl⟩ := List.cons.inj same
          rcases ih rfl with ⟨ahead, rest, rfl, inside⟩ | ⟨ahead, rest, rfl, inside⟩
          · exact .inl ⟨head :: ahead, rest, rfl, List.forall_mem_cons.mpr
              ⟨List.mem_cons_self, fun other member =>
                List.mem_cons_of_mem _ (inside other member)⟩⟩
          · exact .inr ⟨ahead, rest, rfl, fun other member =>
              List.mem_cons_of_mem _ (inside other member)⟩
  | @right first second merged head _ ih =>
      intro before later item same
      cases before with
      | nil =>
          obtain ⟨rfl, rfl⟩ := List.cons.inj same
          exact .inr ⟨[], second, rfl, List.forall_mem_nil _⟩
      | cons other before =>
          obtain ⟨rfl, rfl⟩ := List.cons.inj same
          rcases ih rfl with ⟨ahead, rest, rfl, inside⟩ | ⟨ahead, rest, rfl, inside⟩
          · exact .inl ⟨ahead, rest, rfl, fun other member =>
              List.mem_cons_of_mem _ (inside other member)⟩
          · exact .inr ⟨head :: ahead, rest, rfl, List.forall_mem_cons.mpr
              ⟨List.mem_cons_self, fun other member =>
                List.mem_cons_of_mem _ (inside other member)⟩⟩

/-- An event of courses side by side is one of a single course, and what precedes it there
precedes it among all. -/
theorem Course.MembersOrder.split {event : Event} :
    ∀ {courses : List Course} {before later : List Event},
      Course.MembersOrder courses (before ++ event :: later) →
      ∃ course ∈ courses, ∃ ahead rest, course.Orders (ahead ++ event :: rest) ∧
        ∀ other ∈ ahead, other ∈ before
  | [], before, later, orders => by
      simp [Course.MembersOrder] at orders
  | course :: courses, before, later, orders => by
      obtain ⟨own, others, ordered, together, merges⟩ := orders
      rcases merges.split rfl with ⟨ahead, rest, rfl, inside⟩ | ⟨ahead, rest, rfl, inside⟩
      · exact ⟨course, List.mem_cons_self, ahead, rest, ordered, inside⟩
      · obtain ⟨other, member, further, behind, theirs, within⟩ := split together
        exact ⟨other, List.mem_cons_of_mem _ member, further, behind, theirs,
          fun event here => inside event (within event here)⟩

/-! ## Tasks that keep a contract -/

section Tasks

variable {run : Run} {contract : Contract}

/-- Under a strict contract, a task that has ended as promised contributes no failure. -/
theorem Part.failure?_eq_none {promise : Option Entity → Prop} {part : Part}
    (kept : ∀ outcome, part.outcome = some outcome →
      (Plan.done outcome).Keeps contract promise) (strict : contract.strict) :
    part.failure? = none := by
  obtain ⟨child, course, outcome⟩ := part
  cases outcome with
  | none => rfl
  | some outcome =>
      cases outcome with
      | value result => rfl
      | failed failure => exact absurd strict (kept _ rfl)
      | broken cause => exact absurd strict (kept _ rfl)

/-- The result of a batch whose members have ended as promised. -/
theorem result_of_parts {parts : List Part} {failures : List ChildFailure}
    (told : failures.Perm (parts.filterMap Part.failure?))
    (kept : ∀ part ∈ parts, ∀ outcome, part.outcome = some outcome →
      (Plan.done outcome).Keeps contract fun _ => True) :
    contract.strict → (⟨failures, false⟩ : BatchResult) = ⟨[], false⟩ := by
  intro strict
  have none : parts.filterMap Part.failure? = [] :=
    List.filterMap_eq_nil_iff.mpr fun part member =>
      Part.failure?_eq_none (kept part member) strict
  rw [none] at told
  rw [told.eq_nil]

/-- What a plan that keeps a contract tells is allowed. -/
theorem allowed_of_note {α : Type} {promise : α → Prop} {notice : Notice} {next : Plan α}
    {event : Event} (seen : Event.ofNotice? notice = some event)
    (keeps : (Plan.note notice next).Keeps contract promise) : contract.Allowed event := by
  cases notice with
  | begun visit =>
      cases seen
      exact keeps.1
  | moment moment =>
      cases seen
      exact trivial
  | report report =>
      cases seen
      exact trivial
  | event line => nomatch seen

/-- An event of a course that begins with another is that one or comes later. -/
theorem allowed_of_act {shown event : Event} {course : Course} {before later : List Event}
    (orders : (Course.act shown course).Orders (before ++ event :: later))
    (fine : ∀ earlier ∈ before, contract.Fine earlier) (first : contract.Allowed shown)
    (rest : ∀ {ahead : List Event}, contract.Fine shown →
      course.Orders (ahead ++ event :: later) → (∀ earlier ∈ ahead, contract.Fine earlier) →
        contract.Allowed event) : contract.Allowed event := by
  obtain ⟨others, same, orders⟩ := orders
  cases before with
  | nil =>
      obtain ⟨rfl, rfl⟩ := List.cons.inj same
      exact first
  | cons earlier before =>
      obtain ⟨rfl, rfl⟩ := List.cons.inj same
      obtain ⟨heard, others⟩ := List.forall_mem_cons.mp fine
      exact rest heard orders others

/-- What is done while the members act is done by one of them. -/
theorem allowed_in_members {parts : List Part} {before later : List Event} {event : Event}
    (together : Course.MembersOrder (parts.map (·.course)) (before ++ event :: later))
    (fine : ∀ earlier ∈ before, contract.Fine earlier)
    (each : ∀ part ∈ parts, ∀ {ahead rest : List Event},
      part.course.Orders (ahead ++ event :: rest) →
      (∀ earlier ∈ ahead, contract.Fine earlier) → contract.Allowed event) :
    contract.Allowed event := by
  obtain ⟨course, member, ahead, rest, orders, inside⟩ := together.split
  obtain ⟨part, inParts, rfl⟩ := List.mem_map.mp member
  exact each part inParts orders fun earlier here => fine earlier (inside earlier here)

variable (tasks : ∀ group child, contract.accepts group child →
  (run.childTask group child).Keeps contract fun _ => True)

include tasks

/-- The task of a member keeps its contract. -/
theorem keeps_of_member {group : Batch} {parts : List Part}
    (whole : parts.map (·.child) = group.children)
    (accepted : ∀ child ∈ group.children, contract.accepts group child) {part : Part}
    (member : part ∈ parts) : (run.childTask group part.child).Keeps contract fun _ => True := by
  apply tasks
  apply accepted
  rw [← whole]
  exact List.mem_map_of_mem member

/-- **A task that relied on what it may has ended as promised.** -/
theorem Plan.Takes.ends {α : Type} {plan : Plan α} {course : Course}
    {ended : Option (Outcome α)} (takes : plan.Takes run course ended) :
    ∀ {promise : α → Prop} {outcome : Outcome α}, ended = some outcome →
      plan.Keeps contract promise → (∀ event ∈ course.inTurn, contract.Fine event) →
      (Plan.done outcome).Keeps contract promise := by
  induction takes with
  | pause plan =>
      intro promise outcome same
      nomatch same
  | done outcome =>
      intro promise other same keeps _
      cases same
      exact keeps
  | call request exchange next _ ih =>
      intro promise outcome same keeps fine
      obtain ⟨first, rest⟩ := List.forall_mem_cons.mp fine
      exact ih same (keeps.2 exchange first) rest
  | note notice next _ ih =>
      intro promise outcome same keeps fine
      rw [Course.inTurn_after] at fine
      exact ih same keeps.of_note fun event member => fine event (List.mem_append_right _ member)
  | remember session entity next _ ih =>
      intro promise outcome same keeps fine
      exact ih same keeps (List.forall_mem_cons.mp fine).2
  | «recall» session entity known next _ ih =>
      intro promise outcome same keeps fine
      exact ih same (keeps known) (List.forall_mem_cons.mp fine).2
  | skip group next nobody _ ih =>
      intro promise outcome same keeps fine
      exact ih same (keeps.2 _ fun _ => rfl) fine
  | fork group next parts whole each =>
      intro promise outcome same
      nomatch same
  | join group next parts failures whole each through told _ each_ih ih =>
      intro promise outcome same keeps fine
      rw [Course.inTurn] at fine
      refine ih same (keeps.2 _ (result_of_parts told fun part member result ended => ?_))
        fun event member => fine event (List.mem_append_right _ member)
      refine each_ih part member ended (keeps_of_member tasks whole keeps.1 member) ?_
      intro event here
      exact fine event (List.mem_append_left _
        (Course.mem_allInTurn (List.mem_map_of_mem member) here))
  | giveUp group next parts failures whole each _ each_ih ih =>
      intro promise outcome same keeps fine
      rw [Course.inTurn] at fine
      obtain ⟨_, patience⟩ := List.forall_mem_append.mp fine
      obtain ⟨lax, rest⟩ := List.forall_mem_cons.mp patience
      exact ih same (keeps.2 _ fun strict => absurd strict lax) rest

/-- **What is done while everything could be relied on is allowed.** -/
theorem Plan.Takes.allowed {α : Type} {plan : Plan α} {course : Course}
    {ended : Option (Outcome α)} (takes : plan.Takes run course ended) :
    ∀ {promise : α → Prop} {before later : List Event} {event : Event},
      plan.Keeps contract promise → course.Orders (before ++ event :: later) →
      (∀ earlier ∈ before, contract.Fine earlier) → contract.Allowed event := by
  induction takes with
  | pause plan =>
      intro promise before later event keeps orders
      simp [Course.Orders] at orders
  | done outcome =>
      intro promise before later event keeps orders
      simp [Course.Orders] at orders
  | call request exchange next _ ih =>
      intro promise before later event keeps orders fine
      apply allowed_of_act orders fine keeps.1
      intro ahead heard orders fine
      exact ih (keeps.2 exchange heard) orders fine
  | note notice next _ ih =>
      intro promise before later event keeps orders fine
      cases seen : Event.ofNotice? notice with
      | none =>
          rw [seen] at orders
          exact ih keeps.of_note orders fine
      | some shown =>
          rw [seen] at orders
          apply allowed_of_act orders fine (allowed_of_note seen keeps)
          intro ahead _ orders fine
          exact ih keeps.of_note orders fine
  | remember session entity next _ ih =>
      intro promise before later event keeps orders fine
      apply allowed_of_act orders fine trivial
      intro ahead _ orders fine
      exact ih keeps orders fine
  | «recall» session entity known next _ ih =>
      intro promise before later event keeps orders fine
      apply allowed_of_act orders fine trivial
      intro ahead _ orders fine
      exact ih (keeps known) orders fine
  | skip group next nobody _ ih =>
      intro promise before later event keeps orders fine
      exact ih (keeps.2 _ fun _ => rfl) orders fine
  | fork group next parts whole each each_ih =>
      intro promise before later event keeps orders fine
      obtain ⟨theirs, others, same, together, rfl⟩ := orders
      rw [List.append_nil] at same
      rw [← same] at together
      apply allowed_in_members together fine
      intro part member ahead rest orders early
      exact each_ih part member (keeps_of_member tasks whole keeps.1 member) orders early
  | join group next parts failures whole each through told _ each_ih ih =>
      intro promise before later event keeps orders fine
      obtain ⟨theirs, others, same, together, orders⟩ := orders
      rcases split_append same with ⟨rest, rfl⟩ | ⟨behind, rfl, rfl⟩
      · apply allowed_in_members together fine
        intro part member ahead rest orders early
        exact each_ih part member (keeps_of_member tasks whole keeps.1 member) orders early
      · obtain ⟨past, fine⟩ := List.forall_mem_append.mp fine
        refine ih (keeps.2 _ (result_of_parts told fun part member result ended => ?_)) orders fine
        refine (each part member).ends tasks ended (keeps_of_member tasks whole keeps.1 member) ?_
        intro event here
        apply past event
        rw [together.perm_allInTurn.mem_iff]
        exact Course.mem_allInTurn (List.mem_map_of_mem member) here
  | giveUp group next parts failures whole each _ each_ih ih =>
      intro promise before later event keeps orders fine
      obtain ⟨theirs, others, same, together, orders⟩ := orders
      rcases split_append same with ⟨rest, rfl⟩ | ⟨behind, rfl, rfl⟩
      · apply allowed_in_members together fine
        intro part member ahead rest orders early
        exact each_ih part member (keeps_of_member tasks whole keeps.1 member) orders early
      · apply allowed_of_act orders (List.forall_mem_append.mp fine).2 trivial
        intro ahead lax orders fine
        exact ih (keeps.2 _ fun strict => absurd strict lax) orders fine

end Tasks

end DesiredState
