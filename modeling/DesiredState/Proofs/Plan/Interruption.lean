import DesiredState.Proofs.Plan.Completion

/-!
# Plans that an observer breaks off

An observer may break off a task at each moment that it is told of. A patient observer does not, and
the task goes on there. So the plan for an observer is the plan for a patient one with some branches
cut off at a moment (`Interrupts`), and a task that was broken off has shown the beginning of what
it would have shown a patient observer; next comes the moment at which it was broken off
(`Interrupts.yields`). What is to be said of the moments of a task need be said for a patient
observer only.
-/

set_option autoImplicit false

namespace DesiredState.Plan

variable {α β : Type} {observer : Observer}

/-- A task that keeps to one entity and has ended has done all that its plan yields. -/
theorem Takes.yields_ended {run : Run} {recalls : Prop} {plan : Plan α}
    (solitary : plan.Solitary recalls) {own : List Event} {outcome : Outcome α}
    (takes : plan.Takes run (.ofEvents own .idle) (some outcome)) : plan.Yields own outcome := by
  rw [← bind_done_value plan] at takes
  generalize reached : Course.ofEvents own .idle = course at takes
  generalize ended : some outcome = result at takes
  cases takes.split_solitary solitary with
  | underWay yields => cases ended
  | failed yields =>
      cases ended
      rwa [Course.ofEvents_idle_inj reached]
  | broken yields =>
      cases ended
      rwa [Course.ofEvents_idle_inj reached]
  | through yields later =>
      subst ended
      obtain ⟨rfl, _, nothing | same⟩ := later.of_pure
      · cases nothing
      · cases same
        rwa [Course.ofEvents_idle_inj reached]

/-- The first plan does the same as the second one, but may be broken off at a moment that the
second one tells. -/
inductive Interrupts (observer : Observer) {α : Type} : Plan α → Plan α → Prop
  | done (outcome : Outcome α) : Interrupts observer (.done outcome) (.done outcome)
  | broken {moment : Moment} {cause : String} (breaks : observer.breaks moment = some cause)
      (next : Plan α) : Interrupts observer (.done (.broken cause)) (.note (.moment moment) next)
  | call (request : Request) {next patient : Exchange → Plan α}
      (after : ∀ exchange, Interrupts observer (next exchange) (patient exchange)) :
      Interrupts observer (.call request next) (.call request patient)
  | note (notice : Notice) {next patient : Plan α} (after : Interrupts observer next patient) :
      Interrupts observer (.note notice next) (.note notice patient)
  | remember (session : SessionId) (entity : Entity) {next patient : Plan α}
      (after : Interrupts observer next patient) :
      Interrupts observer (.remember session entity next) (.remember session entity patient)
  | recall (session : SessionId) (entity : Entity) {next patient : Entity → Plan α}
      (after : ∀ known, Interrupts observer (next known) (patient known)) :
      Interrupts observer (.recall session entity next) (.recall session entity patient)
  | batch (group : Batch) {next patient : BatchResult → Plan α}
      (after : ∀ result, Interrupts observer (next result) (patient result)) :
      Interrupts observer (.batch group next) (.batch group patient)

namespace Interrupts

/-- A plan that is not broken off. -/
theorem refl : ∀ plan : Plan α, Interrupts observer plan plan
  | .done outcome => .done outcome
  | .call request next => .call request fun exchange => refl (next exchange)
  | .note notice next => .note notice (refl next)
  | .remember session entity next => .remember session entity (refl next)
  | .recall session entity next => .recall session entity fun known => refl (next known)
  | .batch group next => .batch group fun result => refl (next result)

/-- A sequence may be broken off in each of its parts. -/
theorem bind {plan patient : Plan α} {continuation goesOn : α → Plan β}
    (first : Interrupts observer plan patient)
    (after : ∀ value, Interrupts observer (continuation value) (goesOn value)) :
    Interrupts observer (plan >>= continuation) (patient >>= goesOn) := by
  induction first with
  | done outcome =>
      cases outcome with
      | value value => exact after value
      | failed failure => exact .done (.failed failure)
      | broken cause => exact .done (.broken cause)
  | broken breaks next => exact .broken breaks (next >>= goesOn)
  | call request _ ih => exact .call request ih
  | note notice _ ih => exact .note notice ih
  | remember session entity _ ih => exact .remember session entity ih
  | «recall» session entity _ ih => exact .recall session entity ih
  | batch group _ ih => exact .batch group ih

/-- What comes after something that is not broken off. -/
theorem after {continuation goesOn : α → Plan β} (plan : Plan α)
    (each : ∀ value, Interrupts observer (continuation value) (goesOn value)) :
    Interrupts observer (plan >>= continuation) (plan >>= goesOn) := (refl plan).bind each

theorem map {plan patient : Plan α} (image : α → β)
    (interrupts : Interrupts observer plan patient) :
    Interrupts observer (image <$> plan) (image <$> patient) :=
  interrupts.bind fun value => refl (.done (.value (image value)))

end Interrupts

/-- The events and the outcome are those of a patient plan, or those up to a moment that the patient
plan tells next, at which the observer breaks off. -/
def Reaches (observer : Observer) (patient : Plan α) (events : List Event) (outcome : Outcome α) :
    Prop :=
  patient.Yields events outcome ∨
    ∃ moment cause rest ended, observer.breaks moment = some cause ∧ outcome = .broken cause ∧
      patient.Yields (events ++ .told (.moment moment) :: rest) ended

/-- What shows before a patient plan shows before what is reached of it. -/
theorem Reaches.prepend {patient earlier : Plan α} {events : List Event} {outcome : Outcome α}
    (shown : List Event) (lengthens : ∀ events outcome, patient.Yields events outcome →
      earlier.Yields (shown ++ events) outcome)
    (reaches : Reaches observer patient events outcome) :
    Reaches observer earlier (shown ++ events) outcome := by
  rcases reaches with yields | ⟨moment, cause, rest, ended, breaks, same, yields⟩
  · exact .inl (lengthens _ _ yields)
  · refine .inr ⟨moment, cause, rest, ended, breaks, same, ?_⟩
    rw [List.append_assoc]
    exact lengthens _ _ yields

/-- **What is shown until a plan is broken off** is the beginning of what the patient plan shows,
and the moment comes next. A plan that is not broken off shows what the patient one does. -/
theorem Interrupts.yields {recalls : Prop} {plan patient : Plan α}
    (interrupts : Interrupts observer plan patient) :
    patient.Solitary recalls → ∀ {events : List Event} {outcome : Outcome α},
      plan.Yields events outcome → Reaches observer patient events outcome := by
  induction interrupts with
  | done outcome => exact fun _ _ _ yields => .inl yields
  | @broken moment cause breaks next =>
      rintro solitary _ _ ⟨rfl, rfl⟩
      obtain ⟨rest, ended, goesOn⟩ := Solitary.exists_yields solitary.of_note
      exact .inr ⟨moment, cause, rest, ended, breaks, rfl, rest, rfl, goesOn⟩
  | call request _ ih =>
      rintro solitary _ _ ⟨exchange, rest, rfl, yields⟩
      exact (ih exchange (solitary exchange) yields).prepend [_]
        fun _ _ yields => ⟨exchange, _, rfl, yields⟩
  | note notice _ ih =>
      rintro solitary _ _ ⟨rest, rfl, yields⟩
      exact (ih solitary.of_note yields).prepend _ fun _ _ yields => ⟨_, rfl, yields⟩
  | remember session entity _ ih =>
      rintro solitary _ _ ⟨rest, rfl, yields⟩
      exact (ih solitary yields).prepend [_] fun _ _ yields => ⟨_, rfl, yields⟩
  | «recall» session entity _ ih =>
      rintro solitary _ _ ⟨known, rest, rfl, yields⟩
      exact (ih known (solitary.2 known) yields).prepend [_]
        fun _ _ yields => ⟨known, _, rfl, yields⟩
  | batch group _ _ => exact fun solitary => solitary.elim

end DesiredState.Plan
