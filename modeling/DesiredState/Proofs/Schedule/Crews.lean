import DesiredState.Proofs.Schedule.Turns
import DesiredState.Proofs.Schedule.Termination
import Mathlib.Data.List.Forall2

/-!
# What is kept of a crew

A crew has one permit for each child at work, and a run holds a tree of crews: a member keeps its
permit while the crew that it leads waits for permits of its own. What each crew keeps to
(`Crew.Led`) is shown for one step (`Step.led`), for a run (`Steps.led`), and from there for the
crew at any place of the tree (`Steps.led_crewAt?`), since each member is the task of a child that
has come where it is by steps of its own.

**Why there is no deadlock.** Permits belong to one batch each. A member that waits for its own
crew needs no further permit of the crew above, and a crew without a member at work has all its
permits; so a crew can go on whatever the others do (`Run.bounded_without_deadlock`).

**Failures.** A crew gathers its ended members only after it has started the last child. Until
then the failures of those that have ended are known to nobody, and if the batch is given up
while a child still waits, they are lost (`Run.failures_of_batch`).
-/

set_option autoImplicit false

namespace DesiredState

variable {run : Run} {α : Type}

/-! ## Members -/

/-- The failure of a member that has ended with one. -/
def Member.failure? (member : Member ChildTask) : Option ChildFailure :=
  member.task.stage.outcome?.bind fun outcome => Crew.failureOf (member.label, outcome.forget)

/-- A member handles a child: it bears the name of the child, and its task has started with the
plan for the child and come where it is by steps. -/
structure Member.Handles (run : Run) (batch : Batch) (child : Entity)
    (member : Member ChildTask) : Prop where
  label : member.label = child.label
  reached : ∃ events,
    Stage.Steps run (.active (run.childTask batch child)) events member.task.stage

/-- A child is handled by the member that it becomes. -/
theorem Member.handles_enlist (batch : Batch) (child : Entity) :
    Member.Handles run batch child (Crew.enlist run batch child) :=
  ⟨rfl, [], .refl _⟩

/-- A child goes on being handled when its task takes a step. -/
theorem Member.Handles.step {batch : Batch} {child : Entity} {label : String}
    {stage later : Stage ChildTask (Option Entity)} {event : Option Event}
    (handles : Member.Handles run batch child ⟨label, .mk stage⟩)
    (step : Stage.Step run stage event later) :
    Member.Handles run batch child ⟨label, .mk later⟩ := by
  obtain ⟨events, steps⟩ := handles.reached
  exact ⟨handles.label, _, steps.trans (.single step)⟩

theorem Member.failure?_of_not_over {label : String} {stage : Stage ChildTask (Option Entity)}
    (working : stage.isOver = false) : Member.failure? ⟨label, .mk stage⟩ = none := by
  have running : stage.outcome? = none := by simpa [Stage.isOver] using working
  simp [Member.failure?, ChildTask.stage, running]

theorem Member.filterMap_failure?_cons (member : Member ChildTask)
    (members : List (Member ChildTask)) :
    (member :: members).filterMap Member.failure?
      = member.failure?.toList ++ members.filterMap Member.failure? := by
  rw [List.filterMap_cons]
  cases member.failure? <;> rfl

/-- A member that has ended has no failure just if it has ended with a value. -/
theorem Member.failure?_eq_none_iff {member : Member ChildTask}
    (through : member.task.stage.isOver = true) :
    member.failure? = none ↔ ∃ value, member.task.stage = .finished (.value value) := by
  obtain ⟨label, ⟨stage⟩⟩ := member
  cases stage with
  | finished outcome =>
      cases outcome <;>
        simp [Member.failure?, ChildTask.stage, Stage.outcome?, Outcome.forget, Crew.failureOf]
  | active plan => simp [ChildTask.stage, Stage.isOver, Stage.outcome?] at through
  | asleep wake plan => simp [ChildTask.stage, Stage.isOver, Stage.outcome?] at through
  | leading crew next => simp [ChildTask.stage, Stage.isOver, Stage.outcome?] at through

/-- Items go on being related one by one if one of the second list is replaced. -/
theorem forall₂_set {β γ : Type} {related : β → γ → Prop} {first : List β}
    {second : List γ} {old new : γ} (each : List.Forall₂ related first second)
    (instead : ∀ item, related item old → related item new) :
    ∀ {index : Nat}, second[index]? = some old →
      List.Forall₂ related first (second.set index new) := by
  induction each with
  | nil => exact fun found => nomatch found
  | cons here others ih =>
      intro index found
      cases index with
      | zero =>
          obtain rfl := Option.some.inj found
          exact .cons (instead _ here) others
      | succ index => exact .cons here (ih found)

/-! ## What a crew keeps to -/

/-- What every step of a crew keeps: it has the permits of its batch and no more members at work;
it has started the children up to those that wait, in the order of the batch, each of them once;
it has gathered nobody while a child waits; and the failures that it has gathered and those of the
ended members that it has not gathered are the failures of its members. -/
structure Crew.Led (run : Run) (crew : Crew ChildTask) : Prop where
  somebody : crew.batch.children ≠ []
  permits : crew.permits = run.settings.permits crew.batch.children.length
  bounded : crew.working ≤ crew.permits
  started : ∃ started, crew.batch.children = started ++ crew.waiting ∧
    List.Forall₂ (Member.Handles run crew.batch) started crew.members
  ungathered : crew.waiting ≠ [] → crew.failures = []
  accounted : (crew.failures ++ crew.ended.filterMap Crew.failureOf).Perm
    (crew.members.filterMap Member.failure?)

open scoped List

namespace Crew

/-- The crew of which nothing has been started. -/
theorem Led.assemble {group : Batch} (somebody : group.children ≠ []) (now : Nat) :
    (assemble run now group).Led run where
  somebody := somebody
  permits := rfl
  bounded := Nat.zero_le _
  started := ⟨[], rfl, .nil⟩
  ungathered _ := rfl
  accounted := .nil

/-- One more child is started. -/
theorem Led.enlist {crew : Crew ChildTask} (led : crew.Led run) {child : Entity}
    {rest : List Entity} (waiting : crew.waiting = child :: rest)
    (free : crew.working < crew.permits) :
    ({ crew with
        waiting := rest
        members := crew.members ++ [enlist run crew.batch child] } : Crew ChildTask).Led run where
  somebody := led.somebody
  permits := led.permits
  bounded := by
    rw [working_enlist]
    exact free
  started := by
    obtain ⟨started, whole, handled⟩ := led.started
    refine ⟨started ++ [child], ?_, ?_⟩
    · rw [whole, waiting, List.append_assoc, List.singleton_append]
    · exact List.rel_append handled (.cons (Member.handles_enlist crew.batch child) .nil)
  ungathered _ := led.ungathered (by rw [waiting]; exact List.cons_ne_nil _ _)
  accounted := by
    have nothing : (Crew.enlist run crew.batch child).failure? = none :=
      Member.failure?_of_not_over rfl
    simpa [List.filterMap_append, nothing] using led.accounted

/-- The ended members are gathered. -/
theorem Led.gather {crew : Crew ChildTask} (led : crew.Led run) (started : crew.waiting = []) :
    crew.gather.Led run := by
  have all : crew.gather = { crew with
      ended := []
      failures := crew.failures ++ crew.ended.filterMap Crew.failureOf } := by
    rw [Crew.gather, started]
    rfl
  rw [all]
  exact {
    somebody := led.somebody
    permits := led.permits
    bounded := led.bounded
    started := led.started
    ungathered := fun waiting => absurd started waiting
    accounted := by simpa using led.accounted }

section Advance

variable {crew : Crew ChildTask} {index : Nat} {label : String}
  {stage later : Stage ChildTask (Option Entity)}

/-- The members are one of them and the others. -/
theorem members_perm (found : crew.members[index]? = some ⟨label, .mk stage⟩) :
    crew.members.Perm (⟨label, .mk stage⟩ :: crew.members.eraseIdx index) := by
  obtain ⟨inside, here⟩ := List.getElem?_eq_some_iff.mp found
  rw [← here]
  exact (List.getElem_cons_eraseIdx_perm inside).symm

/-- When one of the members is put at another stage, the others stay. -/
theorem advance_members_perm (found : crew.members[index]? = some ⟨label, .mk stage⟩) :
    (crew.advance index label later).members.Perm
      (⟨label, .mk later⟩ :: crew.members.eraseIdx index) := by
  obtain ⟨inside, _⟩ := List.getElem?_eq_some_iff.mp found
  exact List.set_perm_cons_eraseIdx inside _

/-- A step of a member sets nobody to work. -/
theorem working_advance_le (found : crew.members[index]? = some ⟨label, .mk stage⟩)
    (working : stage.isOver = false) :
    (crew.advance index label later).working ≤ crew.working := by
  unfold Crew.working
  rw [(members_perm found).countP_eq, (advance_members_perm found).countP_eq, List.countP_cons,
    List.countP_cons]
  apply Nat.add_le_add_left
  have one : (if (!stage.isOver) = true then 1 else 0) = 1 := by rw [working]; rfl
  change _ ≤ if (!stage.isOver) = true then 1 else 0
  rw [one]
  split <;> omega

/-- A member that ends contributes its failure to those that are to be gathered. -/
theorem failure?_advance (label : String) (later : Stage ChildTask (Option Entity)) :
    (later.outcome?.map fun outcome => (label, outcome.forget)).toList.filterMap failureOf
      = (Member.failure? ⟨label, .mk later⟩).toList := by
  cases ending : later.outcome? with
  | none => simp [Member.failure?, ChildTask.stage, ending]
  | some outcome =>
      cases failed : failureOf (label, outcome.forget) <;>
        simp [Member.failure?, ChildTask.stage, ending, failed]

/-- A member takes a step. -/
theorem Led.advance {event : Option Event} (led : crew.Led run)
    (found : crew.members[index]? = some ⟨label, .mk stage⟩)
    (step : Stage.Step run stage event later) : (crew.advance index label later).Led run where
  somebody := led.somebody
  permits := led.permits
  bounded := Nat.le_trans (working_advance_le found step.not_over) led.bounded
  started := by
    obtain ⟨started, whole, handled⟩ := led.started
    exact ⟨started, whole, forall₂_set handled (fun child handles => handles.step step) found⟩
  ungathered := led.ungathered
  accounted := by
    have before := led.accounted.trans ((members_perm found).filterMap Member.failure?)
    have moved : (crew.advance index label later).members.Perm
        (⟨label, .mk later⟩ :: crew.members.eraseIdx index) := advance_members_perm found
    have after := moved.filterMap Member.failure?
    rw [Member.filterMap_failure?_cons] at before after
    rw [Member.failure?_of_not_over step.not_over] at before
    have ended : (crew.advance index label later).ended.filterMap failureOf
        = crew.ended.filterMap failureOf ++ (Member.failure? ⟨label, .mk later⟩).toList := by
      rw [Crew.advance, List.filterMap_append, failure?_advance]
    calc crew.failures ++ (crew.advance index label later).ended.filterMap failureOf
        = (crew.failures ++ crew.ended.filterMap failureOf)
            ++ (Member.failure? ⟨label, .mk later⟩).toList := by rw [ended, List.append_assoc]
      _ ~ (crew.members.eraseIdx index).filterMap Member.failure?
            ++ (Member.failure? ⟨label, .mk later⟩).toList := before.append_right _
      _ ~ (Member.failure? ⟨label, .mk later⟩).toList
            ++ (crew.members.eraseIdx index).filterMap Member.failure? := List.perm_append_comm
      _ ~ (crew.advance index label later).members.filterMap Member.failure? := after.symm

end Advance

/-- Each member is the task of a child, reached by steps of its own. -/
theorem Led.reached {crew : Crew ChildTask} (led : crew.Led run) {member : Member ChildTask}
    (inCrew : member ∈ crew.members) : ∃ child events,
      Stage.Steps run (.active (run.childTask crew.batch child)) events member.task.stage := by
  obtain ⟨started, _, handled⟩ := led.started
  obtain ⟨index, inside, rfl⟩ := List.getElem_of_mem inCrew
  have handles := handled.get (by rw [handled.length_eq]; exact inside) inside
  obtain ⟨events, steps⟩ := handles.reached
  exact ⟨_, events, steps⟩

/-! ## One crew at two times -/

/-- A crew is the same one at a later time: its members are there with their tasks, which have at
most been taken further, and the children that wait have been waiting, in the same order. -/
structure Continues (run : Run) (later earlier : Crew ChildTask) : Prop where
  batch : later.batch = earlier.batch
  waiting : later.waiting <:+ earlier.waiting
  members : ∀ (index : Nat) (member : Member ChildTask), earlier.members[index]? = some member →
    ∃ (moved : Member ChildTask) (events : List Event), later.members[index]? = some moved ∧
      moved.label = member.label ∧ Stage.Steps run member.task.stage events moved.task.stage

@[simp] theorem gather_members (crew : Crew ChildTask) : crew.gather.members = crew.members := by
  rw [gather]
  split <;> rfl

namespace Continues

theorem refl (crew : Crew ChildTask) : crew.Continues run crew :=
  ⟨rfl, List.suffix_refl _, fun _ member found => ⟨member, [], found, rfl, .refl _⟩⟩

theorem of_enlist {crew : Crew ChildTask} {child : Entity} {rest : List Entity}
    (waiting : crew.waiting = child :: rest) :
    ({ crew with
        waiting := rest
        members := crew.members ++ [enlist run crew.batch child] } : Crew ChildTask).Continues run
      crew where
  batch := rfl
  waiting := by
    rw [waiting]
    exact List.suffix_cons child rest
  members index member found := by
    obtain ⟨inside, _⟩ := List.getElem?_eq_some_iff.mp found
    exact ⟨member, [], by rw [List.getElem?_append_left inside, found], rfl, .refl _⟩

theorem of_gather (crew : Crew ChildTask) : crew.gather.Continues run crew where
  batch := by rw [gather]; split <;> rfl
  waiting := by rw [gather]; split <;> exact List.suffix_refl _
  members index member found :=
    ⟨member, [], by rw [gather_members, found], rfl, .refl _⟩

theorem of_advance {crew : Crew ChildTask} {index : Nat} {label : String}
    {stage later : Stage ChildTask (Option Entity)} {event : Option Event}
    (found : crew.members[index]? = some ⟨label, .mk stage⟩)
    (step : Stage.Step run stage event later) :
    (crew.advance index label later).Continues run crew where
  batch := rfl
  waiting := List.suffix_refl _
  members other member inCrew := by
    obtain ⟨inside, _⟩ := List.getElem?_eq_some_iff.mp found
    by_cases same : index = other
    · subst same
      obtain rfl := Option.some.inj (found.symm.trans inCrew)
      exact ⟨⟨label, .mk later⟩, _, by simp [advance, inside], rfl, .single step⟩
    · exact ⟨member, [], by simp [advance, same, inCrew], rfl, .refl _⟩

end Continues

end Crew

/-! ## Crews of a run -/

namespace Stage

/-- The crew of a task that leads one keeps to what crews keep to. -/
def Led (run : Run) (stage : Stage ChildTask α) : Prop :=
  ∀ crew next, stage = .leading crew next → crew.Led run

theorem led_active (run : Run) (plan : Plan α) : (Stage.active plan).Led run :=
  fun _ _ leading => nomatch leading

theorem led_leading {crew : Crew ChildTask} {next : BatchResult → Plan α} (led : crew.Led run) :
    (Stage.leading crew next).Led run := by
  rintro _ _ ⟨⟩
  exact led

/-- **One step.** -/
theorem Step.led {stage later : Stage ChildTask α} {event : Option Event}
    (step : Step run stage event later) (led : stage.Led run) : later.Led run := by
  cases step with
  | finish outcome => exact fun _ _ leading => nomatch leading
  | call request exchange next => exact led_active run _
  | send request exchange next wake => exact fun _ _ leading => nomatch leading
  | wake time plan => exact led_active run plan
  | tell notice next => exact led_active run next
  | remember session entity next => exact led_active run next
  | «recall» session entity known next => exact led_active run _
  | skip group next nobody => exact led_active run _
  | lead group next now somebody => exact led_leading (.assemble somebody now)
  | enlist crew next child rest waiting free =>
      exact led_leading ((led crew next rfl).enlist waiting free)
  | gather crew next started ended => exact led_leading ((led crew next rfl).gather started)
  | join crew next started through gathered => exact led_active run _
  | giveUp crew next => exact led_active run _
  | member crew next index label stage later event found step =>
      exact led_leading ((led crew next rfl).advance found step)

/-- **A whole run.** -/
theorem Steps.led {first last : Stage ChildTask α} {events : List Event}
    (steps : Steps run first events last) (led : first.Led run) : last.Led run := by
  induction steps with
  | refl stage => exact led
  | head step _ ih => exact ih (step.led led)

/-- The crew that the task at a place of the tree leads. -/
def crewAt? : {α : Type} → Address → Stage ChildTask α → Option (Crew ChildTask)
  | _, [], .leading crew _ => some crew
  | _, index :: rest, .leading crew _ =>
      crew.members[index]?.bind fun member => crewAt? rest member.task.stage
  | _, _, _ => none

@[simp] theorem crewAt?_nil (crew : Crew ChildTask) (next : BatchResult → Plan α) :
    (Stage.leading crew next).crewAt? [] = some crew := rfl

@[simp] theorem crewAt?_cons (crew : Crew ChildTask) (next : BatchResult → Plan α) (index : Nat)
    (rest : Address) : (Stage.leading crew next).crewAt? (index :: rest)
      = crew.members[index]?.bind fun member => member.task.stage.crewAt? rest := rfl

@[simp] theorem crewAt?_active (plan : Plan α) (place : Address) :
    (Stage.active plan).crewAt? place = none := by
  cases place <;> rfl

@[simp] theorem crewAt?_asleep (wake : Nat) (plan : Plan α) (place : Address) :
    (Stage.asleep wake plan).crewAt? place = none := by
  cases place <;> rfl

@[simp] theorem crewAt?_finished (outcome : Outcome α) (place : Address) :
    (Stage.finished outcome : Stage ChildTask α).crewAt? place = none := by
  cases place <;> rfl

/-- A task with a crew somewhere leads one itself. -/
theorem leading_of_crewAt? {stage : Stage ChildTask α} {place : Address} {crew : Crew ChildTask}
    (here : stage.crewAt? place = some crew) : ∃ own next, stage = .leading own next := by
  cases stage with
  | leading own next => exact ⟨own, next, rfl⟩
  | active plan => simp at here
  | asleep wake plan => simp at here
  | finished outcome => simp at here

/-- **Every crew of a run**, wherever in the tree, keeps to what crews keep to. -/
theorem Steps.led_crewAt? (place : Address) : ∀ {α : Type} {plan : Plan α} {events : List Event}
    {stage : Stage ChildTask α} {crew : Crew ChildTask},
    Steps run (.active plan) events stage → stage.crewAt? place = some crew → crew.Led run := by
  induction place with
  | nil =>
      intro α plan events stage crew steps here
      obtain ⟨own, next, rfl⟩ := leading_of_crewAt? here
      obtain rfl := Option.some.inj here
      exact steps.led (led_active run plan) own next rfl
  | cons index rest ih =>
      intro α plan events stage crew steps here
      obtain ⟨own, next, rfl⟩ := leading_of_crewAt? here
      obtain ⟨member, found, below⟩ := Option.bind_eq_some_iff.mp here
      have led := steps.led (led_active run plan) own next rfl
      obtain ⟨child, own, reached⟩ := led.reached (List.mem_of_getElem? found)
      exact ih reached below

/-- **No task is taken back.** As long as the crew at a place is there, a step of any task of the
tree leaves its members where they are or takes one of them further, and at most the next of the
waiting children is started. -/
theorem Step.continues {stage later : Stage ChildTask α} {event : Option Event}
    (step : Step run stage event later) :
    ∀ {place : Address} {crew moved : Crew ChildTask}, stage.crewAt? place = some crew →
      later.crewAt? place = some moved → moved.Continues run crew := by
  induction step with
  | finish outcome => exact fun before => by simp at before
  | call request exchange next => exact fun before => by simp at before
  | send request exchange next wake => exact fun before => by simp at before
  | wake time plan => exact fun before => by simp at before
  | tell notice next => exact fun before => by simp at before
  | remember session entity next => exact fun before => by simp at before
  | «recall» session entity known next => exact fun before => by simp at before
  | skip group next nobody => exact fun before => by simp at before
  | lead group next now somebody => exact fun before => by simp at before
  | join crew next started through gathered => exact fun _ after => by simp at after
  | giveUp crew next => exact fun _ after => by simp at after
  | enlist crew next child rest waiting free =>
      intro place found moved before after
      cases place with
      | nil =>
          obtain rfl := Option.some.inj before
          obtain rfl := Option.some.inj after
          exact .of_enlist waiting
      | cons index below =>
          obtain ⟨member, inCrew, before⟩ := Option.bind_eq_some_iff.mp before
          obtain ⟨inside, _⟩ := List.getElem?_eq_some_iff.mp inCrew
          rw [crewAt?_cons, List.getElem?_append_left inside, inCrew] at after
          obtain rfl := Option.some.inj (before.symm.trans after)
          exact .refl _
  | gather crew next started ended =>
      intro place found moved before after
      cases place with
      | nil =>
          obtain rfl := Option.some.inj before
          obtain rfl := Option.some.inj after
          exact .of_gather crew
      | cons index below =>
          rw [crewAt?_cons, Crew.gather_members] at after
          obtain rfl := Option.some.inj (before.symm.trans after)
          exact .refl _
  | member crew next index label stage later event chosen step ih =>
      intro place found moved before after
      cases place with
      | nil =>
          obtain rfl := Option.some.inj before
          obtain rfl := Option.some.inj after
          exact .of_advance chosen step
      | cons other below =>
          rw [crewAt?_cons] at before after
          obtain ⟨inside, _⟩ := List.getElem?_eq_some_iff.mp chosen
          by_cases same : index = other
          · subst same
            rw [chosen] at before
            have moved : (crew.advance index label later).members[index]?
                = some ⟨label, .mk later⟩ := by simp [Crew.advance, inside]
            rw [moved] at after
            exact ih before after
          · have kept : (crew.advance index label later).members[other]?
                = crew.members[other]? := by
              simp [Crew.advance, same]
            rw [kept] at after
            obtain rfl := Option.some.inj (before.symm.trans after)
            exact .refl _

end Stage

end DesiredState
