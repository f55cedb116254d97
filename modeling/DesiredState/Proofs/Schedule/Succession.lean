import DesiredState.Proofs.Schedule.Interleaving

/-!
# One thing after another

The task of a plan that goes on with the value of another plan is, step for step, the task of the
first plan until that has come to a value, and the task of the second one from there on
(`Steps.of_bind`). Neither begins before the other has ended, whatever crews they lead.

**Items of a list.** A plan that does one thing for each item of a list is at one item at a time
(`InTurn`): those before it have come to a value, in the order of the list, and nothing has been
done for those after it. If the item at hand fails or is broken off, the plan ends with the outcome
of the item, and nothing is ever done for the others.
-/

set_option autoImplicit false

namespace DesiredState.Stage

variable {run : Run} {α β : Type}

/-- The stage of a task that goes on with the value of another one, where that one is at the given
stage. -/
def bind {Task : Type} : Stage Task α → (α → Plan β) → Stage Task β
  | .active plan, continuation => .active (plan.bind continuation)
  | .asleep wake plan, continuation => .asleep wake (plan.bind continuation)
  | .leading crew next, continuation =>
      .leading crew fun result => (next result).bind continuation
  | .finished (.value value), continuation => .active (continuation value)
  | .finished (.failed failure), _ => .finished (.failed failure)
  | .finished (.broken cause), _ => .finished (.broken cause)

/-! ## Two plans -/

/-- A step of a task whose first plan has no value yet is one of the task of the first plan. -/
theorem Step.of_bind {stage : Stage ChildTask α} {continuation : α → Plan β}
    {later : Stage ChildTask β} {event : Option Event}
    (step : Step run (stage.bind continuation) event later)
    (active : ∀ value, stage ≠ .active (.done (.value value)))
    (ended : ∀ value, stage ≠ .finished (.value value)) :
    ∃ next, Step run stage event next ∧ later = next.bind continuation := by
  cases stage with
  | active plan =>
      cases plan with
      | done outcome =>
          cases outcome with
          | value value => exact absurd rfl (active value)
          | failed failure =>
              cases step
              exact ⟨_, .finish _, rfl⟩
          | broken cause =>
              cases step
              exact ⟨_, .finish _, rfl⟩
      | call request next =>
          cases step with
          | call => exact ⟨_, .call _ _ _, rfl⟩
          | send => exact ⟨_, .send _ _ _ _, rfl⟩
      | note notice next =>
          cases step
          exact ⟨_, .tell _ _, rfl⟩
      | remember session entity next =>
          cases step
          exact ⟨_, .remember _ _ _, rfl⟩
      | «recall» session entity next =>
          cases step
          exact ⟨_, .recall _ _ _ _, rfl⟩
      | batch group next =>
          cases step with
          | skip _ _ nobody => exact ⟨_, .skip _ _ nobody, rfl⟩
          | lead _ _ now somebody => exact ⟨_, .lead _ _ now somebody, rfl⟩
  | asleep wake plan =>
      cases step
      exact ⟨_, .wake _ _, rfl⟩
  | leading crew next =>
      cases step with
      | enlist _ _ child rest waiting free => exact ⟨_, .enlist _ _ child rest waiting free, rfl⟩
      | gather _ _ started gathered => exact ⟨_, .gather _ _ started gathered, rfl⟩
      | join _ _ started through gathered => exact ⟨_, .join _ _ started through gathered, rfl⟩
      | giveUp => exact ⟨_, .giveUp _ _, rfl⟩
      | member _ _ index label stage later _ found step =>
          exact ⟨_, .member _ _ index label stage later _ found step, rfl⟩
  | finished outcome =>
      cases outcome with
      | value value => exact absurd rfl (ended value)
      | failed failure => exact absurd step.not_over (by simp [bind, isOver, outcome?])
      | broken cause => exact absurd step.not_over (by simp [bind, isOver, outcome?])

/-- **One plan after another.** As far as the task of two plans has come, it has done what the task
of the first plan does, or that one has come to a value and the rest is what the task of the second
plan does. -/
theorem Steps.of_bind {stage : Stage ChildTask α} {continuation : α → Plan β}
    {last : Stage ChildTask β} {events : List Event}
    (steps : Steps run (stage.bind continuation) events last) :
    (∃ reached, Steps run stage events reached ∧ last = reached.bind continuation) ∨
      ∃ value first second, events = first ++ second ∧
        Steps run stage first (.finished (.value value)) ∧
        Steps run (.active (continuation value)) second last := by
  generalize begun : stage.bind continuation = start at steps
  induction steps generalizing stage with
  | refl => exact .inl ⟨stage, .refl _, begun.symm⟩
  | @head first second last event events step rest ih =>
      subst begun
      by_cases active : ∃ value, stage = .active (.done (.value value))
      · obtain ⟨value, rfl⟩ := active
        exact .inr ⟨value, [], _, rfl, .single (.finish _), .head step rest⟩
      by_cases ended : ∃ value, stage = .finished (.value value)
      · obtain ⟨value, rfl⟩ := ended
        exact .inr ⟨value, [], _, rfl, .refl _, .head step rest⟩
      obtain ⟨next, own, rfl⟩ :=
        step.of_bind (fun value same => active ⟨value, same⟩) fun value same => ended ⟨value, same⟩
      rcases ih rfl with ⟨reached, steps, rfl⟩ | ⟨value, before, after, rfl, steps, follows⟩
      · exact .inl ⟨reached, .head own steps, rfl⟩
      · exact .inr ⟨value, event.toList ++ before, after, by simp, .head own steps, follows⟩

theorem Steps.of_active_bind {plan : Plan α} {continuation : α → Plan β}
    {last : Stage ChildTask β} {events : List Event}
    (steps : Steps run (.active (plan.bind continuation)) events last) :
    (∃ reached, Steps run (.active plan) events reached ∧ last = reached.bind continuation) ∨
      ∃ value first second, events = first ++ second ∧
        Steps run (.active plan) first (.finished (.value value)) ∧
        Steps run (.active (continuation value)) second last := by
  have bound : Steps run ((Stage.active plan).bind continuation) events last := steps
  exact bound.of_bind

/-- A task that has nothing to do but to end does so, and shows nothing. -/
theorem Steps.of_done {outcome : Outcome α} {events : List Event} {last : Stage ChildTask α}
    (steps : Steps run (.active (.done outcome)) events last) :
    events = [] ∧ (last = .active (.done outcome) ∨ last = .finished outcome) := by
  cases steps with
  | refl => exact ⟨rfl, .inl rfl⟩
  | head step rest =>
      cases step
      cases rest with
      | refl => exact ⟨rfl, .inr rfl⟩
      | head step _ => exact absurd step.not_over (by simp [isOver, outcome?])

/-- What is only given another value goes as far as without, and ends in the same way. -/
theorem Steps.of_bind_value {plan : Plan α} {result : α → β} {events : List Event}
    {last : Stage ChildTask β}
    (steps : Steps run (.active (plan.bind fun value => .done (.value (result value)))) events
      last) :
    ∃ reached, Steps run (.active plan) events reached ∧ ∀ ended, last.outcome? = some ended →
      ∃ own, reached.outcome? = some own ∧ own.forget = ended.forget ∧
        ∀ value, ended = .value value → ∃ before, own = .value before ∧ value = result before := by
  rcases steps.of_active_bind with ⟨reached, own, rfl⟩ | ⟨value, first, second, rfl, own, follows⟩
  · refine ⟨reached, own, fun ended closed => ?_⟩
    cases reached with
    | finished outcome =>
        cases outcome with
        | value value => cases closed
        | failed failure =>
            cases closed
            exact ⟨_, rfl, rfl, fun _ same => by cases same⟩
        | broken cause =>
            cases closed
            exact ⟨_, rfl, rfl, fun _ same => by cases same⟩
    | _ => cases closed
  · obtain ⟨rfl, rfl | rfl⟩ := follows.of_done
    · exact ⟨_, by simpa using own, fun ended closed => by cases closed⟩
    · refine ⟨_, by simpa using own, fun ended closed => ?_⟩
      cases closed
      refine ⟨_, rfl, rfl, fun _ same => ⟨value, rfl, ?_⟩⟩
      cases same
      rfl

/-! ## The items of a list -/

/-- How far a task has come that does one thing for each item of a list. What is done for an item
is given by the events and, if it has ended, the outcome. -/
inductive InTurn {ι : Type} (does : ι → List Event → Option (Outcome Unit) → Prop) :
    List ι → List Event → Option (Outcome Unit) → Prop
  /-- Nothing has been done for any of the items. -/
  | resting (items : List ι) : InTurn does items [] none
  | ended : InTurn does [] [] (some (.value ()))
  | atHand {item : ι} {events : List Event} (rest : List ι) (under : does item events none) :
      InTurn does (item :: rest) events none
  /-- The first item has no value, and nothing is ever done for the others. -/
  | stopped {item : ι} {events : List Event} {outcome : Outcome Unit} (rest : List ι)
      (closed : does item events (some outcome)) (failed : outcome ≠ .value ()) :
      InTurn does (item :: rest) events (some outcome)
  | next {item : ι} {first second : List Event} {rest : List ι} {outcome : Option (Outcome Unit)}
      (closed : does item first (some (.value ()))) (others : InTurn does rest second outcome) :
      InTurn does (item :: rest) (first ++ second) outcome

/-- **The items of a list are done in turn.** -/
theorem Steps.inTurn {ι : Type} {action : ι → Plan Unit} {items : List ι} {events : List Event}
    {stage : Stage ChildTask Unit}
    (steps : Steps run (.active (Plan.forEach action items)) events stage) :
    InTurn (fun item events outcome => ∃ reached,
      Steps run (.active (action item)) events reached ∧ reached.outcome? = outcome)
      items events stage.outcome? := by
  induction items generalizing events with
  | nil =>
      obtain ⟨rfl, rfl | rfl⟩ := steps.of_done
      · exact .resting []
      · exact .ended
  | cons item rest ih =>
      rcases Steps.of_active_bind steps with
        ⟨reached, own, rfl⟩ | ⟨⟨⟩, first, second, rfl, own, follows⟩
      · cases reached with
        | finished outcome =>
            cases outcome with
            | value value => simpa [bind, outcome?] using InTurn.next ⟨_, own, rfl⟩ (.resting rest)
            | failed failure => exact .stopped rest ⟨_, own, rfl⟩ (by simp)
            | broken cause => exact .stopped rest ⟨_, own, rfl⟩ (by simp)
        | _ => exact .atHand rest ⟨_, own, rfl⟩
      · exact .next ⟨_, own, rfl⟩ (ih follows)

/-- What is known of what is done for each item is known of all of them in turn. -/
theorem InTurn.imp {ι : Type} {does also : ι → List Event → Option (Outcome Unit) → Prop}
    {items : List ι} {events : List Event} {outcome : Option (Outcome Unit)}
    (each : ∀ item ∈ items, ∀ events outcome, does item events outcome → also item events outcome)
    (inTurn : InTurn does items events outcome) : InTurn also items events outcome := by
  induction inTurn with
  | resting items => exact .resting items
  | ended => exact .ended
  | atHand rest under => exact .atHand rest (each _ List.mem_cons_self _ _ under)
  | stopped rest closed failed => exact .stopped rest (each _ List.mem_cons_self _ _ closed) failed
  | next closed others ih =>
      exact .next (each _ List.mem_cons_self _ _ closed)
        (ih fun item member => each item (.tail _ member))

/-- Items for which there is nothing to do may be left out. -/
theorem InTurn.filter {ι : Type} {does : ι → List Event → Option (Outcome Unit) → Prop}
    {items : List ι} {events : List Event} {outcome : Option (Outcome Unit)} (keep : ι → Bool)
    (idle : ∀ item ∈ items, keep item = false → ∀ events outcome, does item events outcome →
      events = [] ∧ ∀ ended, outcome = some ended → ended = .value ())
    (inTurn : InTurn does items events outcome) :
    InTurn does (items.filter keep) events outcome := by
  induction inTurn with
  | resting items => exact .resting _
  | ended => exact .ended
  | @atHand item _ rest under =>
      cases kept : keep item with
      | true =>
          rw [List.filter_cons_of_pos kept]
          exact .atHand _ under
      | false =>
          obtain ⟨rfl, _⟩ := idle item List.mem_cons_self kept _ _ under
          exact .resting _
  | @stopped item _ _ rest closed failed =>
      cases kept : keep item with
      | true =>
          rw [List.filter_cons_of_pos kept]
          exact .stopped _ closed failed
      | false => exact absurd ((idle item List.mem_cons_self kept _ _ closed).2 _ rfl) failed
  | @next item _ _ rest _ closed others ih =>
      have follows := ih fun other member => idle other (.tail _ member)
      cases kept : keep item with
      | true =>
          rw [List.filter_cons_of_pos kept]
          exact .next closed follows
      | false =>
          obtain ⟨rfl, _⟩ := idle item List.mem_cons_self kept _ _ closed
          rw [List.filter_cons_of_neg (by simp [kept])]
          exact follows

end DesiredState.Stage
