import DesiredState.Proofs.Plan.Endings

/-!
# From beginning to end

A plan without batches, once it is through, has shown a list of events and has an outcome:
`Plan.Yields` says which events go with which outcome, failures included. A task that has got only
part of the way has done the beginning of such a list, since its plan can always be brought to an
end (`Takes.split_solitary`). So what is shown of whole lists of events holds wherever a task stops.
-/

set_option autoImplicit false

namespace DesiredState.Plan

variable {run : Run} {α β : Type}

/-- The plan can come to its end with the events, one after another, and has the outcome then. No
batch is handled. -/
def Yields : Plan α → List Event → Outcome α → Prop
  | .done ended, events, outcome => events = [] ∧ outcome = ended
  | .call request next, events, outcome =>
      ∃ exchange rest, events = .called ⟨request, exchange⟩ :: rest ∧
        (next exchange).Yields rest outcome
  | .note notice next, events, outcome =>
      ∃ rest, events = (Event.ofNotice? notice).toList ++ rest ∧ next.Yields rest outcome
  | .remember session entity next, events, outcome =>
      ∃ rest, events = .remembered session entity :: rest ∧ next.Yields rest outcome
  | .recall session entity next, events, outcome =>
      ∃ known rest, events = .recalled session entity known :: rest ∧
        (next known).Yields rest outcome
  | .batch _ _, _, _ => False

section Yields

variable {events : List Event}

@[simp] theorem yields_pure {value : α} {outcome : Outcome α} :
    (Pure.pure value : Plan α).Yields events outcome ↔ events = [] ∧ outcome = .value value :=
  Iff.rfl

@[simp] theorem yields_fail {failure : Failure} {outcome : Outcome α} :
    (Plan.fail failure : Plan α).Yields events outcome ↔
      events = [] ∧ outcome = .failed failure := Iff.rfl

/-- Log events do not show. -/
@[simp] theorem yields_log_bind {line : LogEvent} {continuation : Unit → Plan β}
    {outcome : Outcome β} :
    (Plan.log line >>= continuation).Yields events outcome ↔
      (continuation ()).Yields events outcome := by
  constructor
  · rintro ⟨rest, rfl, yields⟩
    exact yields
  · exact fun yields => ⟨events, rfl, yields⟩

@[simp] theorem yields_send_bind {request : Request} {continuation : Exchange → Plan β}
    {outcome : Outcome β} :
    (Plan.send request >>= continuation).Yields events outcome ↔
      ∃ exchange rest, events = .called ⟨request, exchange⟩ :: rest ∧
        (continuation exchange).Yields rest outcome := Iff.rfl

@[simp] theorem yields_recall_bind {session : SessionId} {entity : Entity}
    {continuation : Entity → Plan β} {outcome : Outcome β} :
    (Plan.recall session entity Pure.pure >>= continuation).Yields events outcome ↔
      ∃ known rest, events = .recalled session entity known :: rest ∧
        (continuation known).Yields rest outcome := Iff.rfl

end Yields

/-- A sequence ends as its first part, since that has not come to a value. -/
inductive Ends : Outcome α → Outcome β → Prop
  | failed (failure : Failure) : Ends (.failed failure) (.failed failure)
  | broken (cause : String) : Ends (.broken cause) (.broken cause)

/-- What a sequence can do, given what its first part and the rest can do: it has come to its end
within the first part, or has gone on with its value. -/
def InSequence (first : List Event → Outcome α → Prop)
    (after : α → List Event → Outcome β → Prop) (events : List Event) (outcome : Outcome β) :
    Prop :=
  (∃ value own rest, events = own ++ rest ∧ first own (.value value) ∧ after value rest outcome) ∨
    ∃ ended, first events ended ∧ Ends ended outcome

/-- What shows at the beginning of the first part shows at the beginning of the sequence. -/
theorem inSequence_shown {Choice : Type} (shown : Choice → List Event)
    (first : Choice → List Event → Outcome α → Prop) {after : α → List Event → Outcome β → Prop}
    {events : List Event} {outcome : Outcome β} :
    InSequence (fun events ended =>
        ∃ choice rest, events = shown choice ++ rest ∧ first choice rest ended)
        after events outcome ↔
      ∃ choice rest, events = shown choice ++ rest ∧
        InSequence (first choice) after rest outcome := by
  constructor
  · rintro (⟨value, _, rest, rfl, ⟨choice, own, rfl, before⟩, later⟩ |
      ⟨ended, ⟨choice, own, rfl, stops⟩, same⟩)
    · exact ⟨choice, _, List.append_assoc .., .inl ⟨value, own, rest, rfl, before, later⟩⟩
    · exact ⟨choice, _, rfl, .inr ⟨ended, stops, same⟩⟩
  · rintro ⟨choice, _, rfl, ⟨value, own, rest, rfl, before, later⟩ | ⟨ended, stops, same⟩⟩
    · exact .inl ⟨value, _, rest, (List.append_assoc ..).symm, ⟨choice, own, rfl, before⟩, later⟩
    · exact .inr ⟨ended, ⟨choice, _, rfl, stops⟩, same⟩

/-- **A sequence does what its parts do**, one after the other. -/
theorem yields_bind {continuation : α → Plan β} {outcome : Outcome β} {plan : Plan α} :
    ∀ {events : List Event}, (plan >>= continuation).Yields events outcome ↔
      InSequence plan.Yields (fun value => (continuation value).Yields) events outcome := by
  change ∀ {events : List Event}, (plan.bind continuation).Yields events outcome ↔ _
  induction plan with
  | done ended =>
      intro events
      cases ended with
      | value value =>
          constructor
          · exact fun yields => .inl ⟨value, [], events, rfl, ⟨rfl, rfl⟩, yields⟩
          · rintro (⟨_, _, rest, rfl, ⟨rfl, ⟨⟩⟩, yields⟩ | ⟨_, ⟨_, rfl⟩, ⟨⟩⟩)
            exact yields
      | failed failure =>
          constructor
          · rintro ⟨rfl, rfl⟩
            exact .inr ⟨_, ⟨rfl, rfl⟩, .failed failure⟩
          · rintro (⟨_, _, _, _, ⟨_, ⟨⟩⟩, _⟩ | ⟨_, ⟨rfl, rfl⟩, ⟨⟩⟩)
            exact ⟨rfl, rfl⟩
      | broken cause =>
          constructor
          · rintro ⟨rfl, rfl⟩
            exact .inr ⟨_, ⟨rfl, rfl⟩, .broken cause⟩
          · rintro (⟨_, _, _, _, ⟨_, ⟨⟩⟩, _⟩ | ⟨_, ⟨rfl, rfl⟩, ⟨⟩⟩)
            exact ⟨rfl, rfl⟩
  | call request next ih =>
      intro events
      simp only [bind, Yields, ih]
      exact (inSequence_shown (fun exchange => [.called ⟨request, exchange⟩])
        fun exchange => (next exchange).Yields).symm
  | note notice next ih =>
      intro events
      simp only [bind, Yields, ih]
      simpa only [exists_const] using (inSequence_shown
        (fun _ : Unit => (Event.ofNotice? notice).toList) fun _ => next.Yields).symm
  | remember session entity next ih =>
      intro events
      simp only [bind, Yields, ih]
      simpa only [exists_const, List.singleton_append] using (inSequence_shown
        (fun _ : Unit => [.remembered session entity]) fun _ => next.Yields).symm
  | «recall» session entity next ih =>
      intro events
      simp only [bind, Yields, ih]
      exact (inSequence_shown (fun known => [.recalled session entity known])
        fun known => (next known).Yields).symm
  | batch group next ih =>
      intro events
      simp [bind, Yields, InSequence]

/-- **What is answered decides.** A plan that is through after some events has not gone on with
others. -/
theorem Yields.unique {plan : Plan α} : ∀ {events more : List Event} {outcome other : Outcome α},
    plan.Yields events outcome → plan.Yields (events ++ more) other →
      more = [] ∧ other = outcome := by
  induction plan with
  | done ended =>
      rintro events more outcome other ⟨rfl, rfl⟩ ⟨none, rfl⟩
      exact ⟨none, rfl⟩
  | call request next ih =>
      rintro events more outcome other ⟨exchange, rest, rfl, yields⟩ ⟨again, others, same, yield⟩
      obtain ⟨⟨⟩, rfl⟩ := List.cons.inj same
      exact ih exchange yields yield
  | note notice next ih =>
      rintro events more outcome other ⟨rest, rfl, yields⟩ ⟨others, same, yield⟩
      rw [List.append_assoc] at same
      obtain rfl := List.append_cancel_left same
      exact ih yields yield
  | remember session entity next ih =>
      rintro events more outcome other ⟨rest, rfl, yields⟩ ⟨others, same, yield⟩
      obtain ⟨_, rfl⟩ := List.cons.inj same
      exact ih yields yield
  | «recall» session entity next ih =>
      rintro events more outcome other ⟨known, rest, rfl, yields⟩ ⟨again, others, same, yield⟩
      obtain ⟨⟨⟩, rfl⟩ := List.cons.inj same
      exact ih known yields yield
  | batch group next ih => exact fun yields => yields.elim

/-- What a plan yields can be carried out by its task. -/
theorem Yields.steps {plan : Plan α} : ∀ {events : List Event} {outcome : Outcome α},
    plan.Yields events outcome → Stage.Steps run (.active plan) events (.finished outcome) := by
  induction plan with
  | done ended =>
      rintro events outcome ⟨rfl, rfl⟩
      exact .single (.finish _)
  | call request next ih =>
      rintro events outcome ⟨exchange, rest, rfl, yields⟩
      exact .head (.call request exchange next) (ih exchange yields)
  | note notice next ih =>
      rintro events outcome ⟨rest, rfl, yields⟩
      exact .head (.tell notice next) (ih yields)
  | remember session entity next ih =>
      rintro events outcome ⟨rest, rfl, yields⟩
      exact .head (.remember session entity next) (ih yields)
  | «recall» session entity next ih =>
      rintro events outcome ⟨known, rest, rfl, yields⟩
      exact .head (.recall session entity known next) (ih known yields)
  | batch group next ih => exact fun yields => yields.elim

/-! ## Wherever a task stops -/

/-- A plan that keeps to one entity can come to an end. -/
theorem Solitary.exists_yields {recalls : Prop} {plan : Plan α} :
    plan.Solitary recalls → ∃ events outcome, plan.Yields events outcome := by
  induction plan with
  | done outcome => exact fun _ => ⟨[], outcome, rfl, rfl⟩
  | call request next ih =>
      intro solitary
      obtain ⟨events, outcome, yields⟩ := ih (.lost "") (solitary _)
      exact ⟨_, outcome, _, events, rfl, yields⟩
  | note notice next ih =>
      intro solitary
      obtain ⟨events, outcome, yields⟩ := ih solitary.of_note
      exact ⟨_, outcome, events, rfl, yields⟩
  | remember session entity next ih =>
      intro solitary
      obtain ⟨events, outcome, yields⟩ := ih solitary
      exact ⟨_, outcome, events, rfl, yields⟩
  | «recall» session entity next ih =>
      intro solitary
      obtain ⟨events, outcome, yields⟩ := ih entity (solitary.2 entity)
      exact ⟨_, outcome, _, events, rfl, yields⟩
  | batch group next => exact fun solitary => solitary.elim

/-- What has become of a sequence whose first part keeps to one entity: the events are the
beginning of what the first part can do, or all of it and then what the second part has done. -/
inductive Splits (run : Run) (plan : Plan α) (continuation : α → Plan β) :
    Course → Option (Outcome β) → Prop
  | underWay {own more : List Event} {outcome : Outcome α}
      (yields : plan.Yields (own ++ more) outcome) :
      Splits run plan continuation (.ofEvents own .idle) none
  | failed {own : List Event} {failure : Failure} (yields : plan.Yields own (.failed failure)) :
      Splits run plan continuation (.ofEvents own .idle) (some (.failed failure))
  | broken {own : List Event} {cause : String} (yields : plan.Yields own (.broken cause)) :
      Splits run plan continuation (.ofEvents own .idle) (some (.broken cause))
  | through {own : List Event} {value : α} {rest : Course} {ended : Option (Outcome β)}
      (yields : plan.Yields own (.value value))
      (later : (continuation value).Takes run rest ended) :
      Splits run plan continuation (.ofEvents own rest) ended

namespace Splits

variable {plan : Plan α} {continuation : α → Plan β} {course : Course} {ended : Option (Outcome β)}

/-- A task that has not begun. -/
theorem unbegun {recalls : Prop} (solitary : plan.Solitary recalls) :
    Splits run plan continuation .idle none := by
  obtain ⟨events, outcome, yields⟩ := solitary.exists_yields
  change Splits run plan continuation (.ofEvents [] .idle) none
  exact .underWay yields

/-- What shows before a plan shows before its parts. -/
theorem prepend {earlier : Plan α} (shown : List Event)
    (extends_ : ∀ events outcome, plan.Yields events outcome →
      earlier.Yields (shown ++ events) outcome)
    (splits : Splits run plan continuation course ended) :
    Splits run earlier continuation (.ofEvents shown course) ended := by
  cases splits with
  | underWay yields =>
      rw [← Course.ofEvents_of_append]
      exact .underWay (by rw [List.append_assoc]; exact extends_ _ _ yields)
  | failed yields =>
      rw [← Course.ofEvents_of_append]
      exact .failed (extends_ _ _ yields)
  | broken yields =>
      rw [← Course.ofEvents_of_append]
      exact .broken (extends_ _ _ yields)
  | through yields later =>
      rw [← Course.ofEvents_of_append]
      exact .through (extends_ _ _ yields) later

end Splits

/-- **Wherever a sequence stops, its first part has done the beginning of what it can do.** -/
theorem Takes.split_solitary {recalls : Prop} {continuation : α → Plan β}
    {ended : Option (Outcome β)} {plan : Plan α} :
    plan.Solitary recalls → ∀ {course : Course},
      (plan.bind continuation).Takes run course ended →
        Splits run plan continuation course ended := by
  induction plan with
  | done outcome =>
      intro solitary course takes
      cases outcome with
      | value value =>
          rw [← Course.ofEvents_nil course]
          exact .through ⟨rfl, rfl⟩ takes
      | failed failure =>
          cases takes with
          | pause => exact .unbegun solitary
          | done =>
              rw [← Course.ofEvents_nil .idle]
              exact .failed ⟨rfl, rfl⟩
      | broken cause =>
          cases takes with
          | pause => exact .unbegun solitary
          | done =>
              rw [← Course.ofEvents_nil .idle]
              exact .broken ⟨rfl, rfl⟩
  | call request next ih =>
      intro solitary course takes
      cases takes with
      | pause => exact .unbegun solitary
      | call _ exchange _ later =>
          exact (ih exchange (solitary exchange) later).prepend [_]
            fun _ _ yields => ⟨exchange, _, rfl, yields⟩
  | note notice next ih =>
      intro solitary course takes
      rcases takes.split_note with ⟨rfl, rfl⟩ | ⟨rest, rfl, later⟩
      · exact .unbegun solitary
      · have shown : rest.after (Event.ofNotice? notice)
            = .ofEvents (Event.ofNotice? notice).toList rest := by
          cases Event.ofNotice? notice <;> rfl
        rw [shown]
        exact (ih solitary.of_note later).prepend _ fun _ _ yields => ⟨_, rfl, yields⟩
  | remember session entity next ih =>
      intro solitary course takes
      cases takes with
      | pause => exact .unbegun solitary
      | remember _ _ _ later =>
          exact (ih solitary later).prepend [_] fun _ _ yields => ⟨_, rfl, yields⟩
  | «recall» session entity next ih =>
      intro solitary course takes
      cases takes with
      | pause => exact .unbegun solitary
      | «recall» _ _ known _ later =>
          exact (ih known (solitary.2 known) later).prepend [_]
            fun _ _ yields => ⟨known, _, rfl, yields⟩
  | batch group next => exact fun solitary => solitary.elim

/-- What a task has done that keeps to one entity is the beginning of what it can do. -/
theorem Takes.yields_own {recalls : Prop} {plan : Plan α} (solitary : plan.Solitary recalls)
    {own : List Event} {ended : Option (Outcome α)}
    (takes : plan.Takes run (.ofEvents own .idle) ended) :
    ∃ more outcome, plan.Yields (own ++ more) outcome := by
  rw [← bind_done_value plan] at takes
  generalize reached : Course.ofEvents own .idle = course at takes
  cases takes.split_solitary solitary with
  | underWay yields =>
      rw [Course.ofEvents_idle_inj reached]
      exact ⟨_, _, yields⟩
  | failed yields =>
      rw [Course.ofEvents_idle_inj reached]
      exact ⟨[], _, by rwa [List.append_nil]⟩
  | broken yields =>
      rw [Course.ofEvents_idle_inj reached]
      exact ⟨[], _, by rwa [List.append_nil]⟩
  | through yields later =>
      obtain ⟨rfl, _⟩ := later.of_pure
      rw [Course.ofEvents_idle_inj reached]
      exact ⟨[], _, by rwa [List.append_nil]⟩

end DesiredState.Plan
