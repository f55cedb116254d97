import DesiredState.Proofs.Api.Pathwise
import DesiredState.Proofs.Plan.Endings

/-!
# Plans that differ only in what is logged and how failures are listed

Two plans are alike if they do the same, log events excepted, and go on alike after alike
results. The failures of a batch are alike if they are the same in some order, where the words
for a failed child may list the children below it in another order again.

**Determinacy.** Let alike plans be carried through completely, no batch being given up, and
let an API that answers by the state of a path serve both from one state, each member of a
batch completely before the next. Then they have done the same, the API is left in the same
state, and they end alike (`Alike.determines`).
-/

set_option autoImplicit false

namespace DesiredState

/-! ## Failures and outcomes -/

mutual

/-- The failures are the same, up to the order in which batches list their failures. -/
inductive Failure.Alike : Failure → Failure → Prop
  | same (failure : Failure) : Failure.Alike failure failure
  | batch (type run : String) (total : Nat) (timedOut : Bool) {first second : List ChildFailure} :
      ChildFailure.AllAlike first second →
      Failure.Alike (.batchFailed type run total first timedOut)
        (.batchFailed type run total second timedOut)

/-- The failed children are the same in some order, with the words for alike failures. -/
inductive ChildFailure.AllAlike : List ChildFailure → List ChildFailure → Prop
  | nil : ChildFailure.AllAlike [] []
  | same (failure : ChildFailure) {first second : List ChildFailure} :
      ChildFailure.AllAlike first second →
      ChildFailure.AllAlike (failure :: first) (failure :: second)
  | cause (label : String) {left right : Failure} {first second : List ChildFailure} :
      Failure.Alike left right → ChildFailure.AllAlike first second →
      ChildFailure.AllAlike (⟨label, left.message⟩ :: first) (⟨label, right.message⟩ :: second)
  | perm {first second others more : List ChildFailure} :
      others.Perm first → more.Perm second → ChildFailure.AllAlike first second →
      ChildFailure.AllAlike others more

end

namespace ChildFailure.AllAlike

/-- Alike batches have as many failures. -/
theorem length_eq : ∀ {first second : List ChildFailure}, AllAlike first second →
    first.length = second.length
  | _, _, .nil => rfl
  | _, _, .same _ rest => congrArg (· + 1) (length_eq rest)
  | _, _, .cause _ _ rest => congrArg (· + 1) (length_eq rest)
  | _, _, .perm before after rest => by
      rw [before.length_eq, after.length_eq, length_eq rest]

end ChildFailure.AllAlike

/-- The outcomes have the same value, or alike failures. -/
inductive Outcome.Alike {α : Type} : Outcome α → Outcome α → Prop
  | value (value : α) : Alike (.value value) (.value value)
  | failed {first second : Failure} : first.Alike second → Alike (.failed first) (.failed second)
  | broken (cause : String) : Alike (.broken cause) (.broken cause)

theorem Outcome.Alike.refl {α : Type} (outcome : Outcome α) : outcome.Alike outcome := by
  cases outcome with
  | value value => exact .value value
  | failed failure => exact .failed (.same failure)
  | broken cause => exact .broken cause

/-- The results have alike failures. -/
def BatchResult.Alike (first second : BatchResult) : Prop :=
  ChildFailure.AllAlike first.failures second.failures ∧ first.timedOut = second.timedOut

/-! ## Plans -/

namespace Plan

variable {α β : Type} {accepts : Batch → Entity → Prop}

/-- The plans do the same, log events excepted, and end alike. They hand out only children that
are accepted, and do not ask for known states. -/
inductive Alike (accepts : Batch → Entity → Prop) : {α : Type} → Plan α → Plan α → Prop
  | done {α : Type} {first second : Outcome α} :
      first.Alike second → Alike accepts (.done first) (.done second)
  | call {α : Type} (request : Request) {first second : Exchange → Plan α} :
      (∀ exchange, Alike accepts (first exchange) (second exchange)) →
      Alike accepts (.call request first) (.call request second)
  | note {α : Type} {left right : Notice} {first second : Plan α} :
      Event.ofNotice? left = Event.ofNotice? right → Alike accepts first second →
      Alike accepts (.note left first) (.note right second)
  | remember {α : Type} (session : SessionId) (entity : Entity) {first second : Plan α} :
      Alike accepts first second →
      Alike accepts (.remember session entity first) (.remember session entity second)
  | batch {α : Type} (group : Batch) {first second : BatchResult → Plan α} :
      (∀ child ∈ group.children, accepts group child) →
      (∀ one other, one.Alike other → Alike accepts (first one) (second other)) →
      Alike accepts (.batch group first) (.batch group second)

namespace Alike

/-- A plan that keeps to one entity and does not ask for known states is like itself. -/
theorem of_solitary {plan : Plan α} (solitary : plan.Solitary False) :
    Alike accepts plan plan := by
  induction plan with
  | done outcome => exact .done (.refl outcome)
  | call request next ih => exact .call request fun exchange => ih exchange (solitary exchange)
  | note notice next ih => exact .note rfl (ih solitary.of_note)
  | remember session entity next ih => exact .remember session entity (ih solitary)
  | «recall» session entity next ih => exact solitary.1.elim
  | batch group next ih => exact solitary.elim

/-- Alike plans may go on alike. -/
theorem bind {first second : α → Plan β}
    (after : ∀ value, Alike accepts (first value) (second value)) {left right : Plan α}
    (alike : Alike accepts left right) :
    Alike accepts (left >>= first) (right >>= second) := by
  induction alike with
  | done ends =>
      cases ends with
      | value value => exact after value
      | failed alike => exact .done (.failed alike)
      | broken cause => exact .done (.broken cause)
  | call request _ ih => exact .call request fun exchange => ih exchange
  | note same _ ih => exact .note same ih
  | remember session entity _ ih => exact .remember session entity ih
  | batch group accepted _ ih =>
      exact .batch group accepted fun one other results => ih one other results

end Alike

/-- What is told is no call. -/
@[simp] theorem calls_ofNotice (notice : Notice) : calls (Event.ofNotice? notice).toList = [] := by
  cases notice <;> rfl

/-- A batch that was carried through has handled each child to its end. -/
theorem Takes.of_batch {run : Run} {group : Batch} {next : BatchResult → Plan α} {course : Course}
    {outcome : Outcome α} (takes : (Plan.batch group next).Takes run course (some outcome))
    (patient : Event.gaveUp ∉ course.inTurn) :
    ∃ (parts : List Part) (failures : List ChildFailure) (rest : Course),
      parts.map (·.child) = group.children ∧
      (∀ part ∈ parts, (run.childTask group part.child).Takes run part.course part.outcome) ∧
      (∀ part ∈ parts, part.outcome.isSome) ∧
      failures.Perm (parts.filterMap Part.failure?) ∧
      (next ⟨failures, false⟩).Takes run rest (some outcome) ∧
      course.inTurn = Course.allInTurn (parts.map (·.course)) ++ rest.inTurn := by
  cases takes with
  | skip _ _ nobody rest =>
      exact ⟨[], [], course, nobody.symm, List.forall_mem_nil _, List.forall_mem_nil _, .nil, rest,
        rfl⟩
  | @join _ _ _ parts failures later _ whole each through told rest =>
      exact ⟨parts, failures, later, whole, each, through, told, rest, rfl⟩
  | giveUp _ _ parts failures whole each rest =>
      exact absurd (List.mem_append_right _ List.mem_cons_self) patient

end Plan

/-! ## Determinacy -/

namespace Plan

variable {τ : Type} {answering : Answering τ} {first second : Run}
  {accepts : Batch → Entity → Prop}

/-- Nothing but the events and the outcome can come of the plan when it is carried through and
served in turn. -/
def Forces {α : Type} (run : Run) (answering : Answering τ) (plan : Plan α) (events : List Event)
    (outcome : Outcome α) : Prop :=
  ∀ ⦃course : Course⦄ ⦃other : Outcome α⦄ ⦃state last after : String → τ⦄,
    plan.Takes run course (some other) → .gaveUp ∉ course.inTurn →
    Served answering state (calls events) last →
    Served answering state (calls course.inTurn) after →
      events = course.inTurn ∧ last = after ∧ outcome.Alike other

/-- The failures of alike parts are alike. -/
theorem allAlike_of_parts {one other : Part} {parts others : List Part}
    {outcome ended : Outcome (Option Entity)} (same : one.child = other.child)
    (ends : one.outcome = some outcome) (stops : other.outcome = some ended)
    (alike : outcome.Alike ended)
    (rest : ChildFailure.AllAlike (parts.filterMap Part.failure?)
      (others.filterMap Part.failure?)) :
    ChildFailure.AllAlike ((one :: parts).filterMap Part.failure?)
      ((other :: others).filterMap Part.failure?) := by
  have left : one.failure? = Crew.failureOf (other.child.label, outcome.forget) := by
    rw [Part.failure?, ends, same]
    rfl
  have right : other.failure? = Crew.failureOf (other.child.label, ended.forget) := by
    rw [Part.failure?, stops]
    rfl
  rw [List.filterMap_cons, List.filterMap_cons, left, right]
  cases alike with
  | value value => exact rest
  | failed alike => exact .cause _ alike rest
  | broken cause => exact .same _ rest

/-- What is forced of each member is forced of all of them. -/
theorem parts_determined {group : Batch} :
    ∀ {parts others : List Part} {state last after : String → τ},
      parts.map (·.child) = others.map (·.child) →
      (∀ part ∈ parts, ∃ outcome, part.outcome = some outcome ∧
        Forces second answering (second.childTask group part.child) part.course.inTurn outcome) →
      (∀ part ∈ others, (second.childTask group part.child).Takes second part.course part.outcome) →
      (∀ part ∈ others, part.outcome.isSome) →
      .gaveUp ∉ Course.allInTurn (others.map (·.course)) →
      Served answering state (calls (Course.allInTurn (parts.map (·.course)))) last →
      Served answering state (calls (Course.allInTurn (others.map (·.course)))) after →
        Course.allInTurn (parts.map (·.course)) = Course.allInTurn (others.map (·.course)) ∧
          last = after ∧ ChildFailure.AllAlike (parts.filterMap Part.failure?)
            (others.filterMap Part.failure?)
  | [], [], state, last, after, _, _, _, _, _, served, serves => by
      cases served
      cases serves
      exact ⟨rfl, rfl, .nil⟩
  | [], _ :: _, _, _, _, same, _, _, _, _, _, _ => by nomatch same
  | _ :: _, [], _, _, _, same, _, _, _, _, _, _ => by nomatch same
  | part :: parts, other :: others, state, last, after, same, forced, takes, through, patient,
      served, serves => by
      obtain ⟨child, children⟩ : part.child = other.child ∧ _ := List.cons.inj same
      obtain ⟨⟨outcome, ends, forces⟩, forced⟩ := List.forall_mem_cons.mp forced
      obtain ⟨taken, takes⟩ := List.forall_mem_cons.mp takes
      obtain ⟨ended, through⟩ := List.forall_mem_cons.mp through
      obtain ⟨result, stops⟩ := Option.isSome_iff_exists.mp ended
      simp only [List.map_cons, Course.allInTurn, List.mem_append, not_or] at patient
      simp only [List.map_cons, Course.allInTurn, calls_append] at served serves
      obtain ⟨middle, before, later⟩ := served_append.mp served
      obtain ⟨between, ahead, behind⟩ := served_append.mp serves
      rw [stops, ← child] at taken
      obtain ⟨events, rfl, alike⟩ := forces taken patient.1 before ahead
      obtain ⟨more, left, all⟩ :=
        parts_determined children forced takes through patient.2 later behind
      refine ⟨?_, left, allAlike_of_parts child ends stops alike all⟩
      simp only [List.map_cons, Course.allInTurn, events, more]

variable (deterministic : answering.Deterministic)
  (tasks : ∀ group child, accepts group child →
    Alike accepts (first.childTask group child) (second.childTask group child))

include deterministic tasks

/-- **Alike plans force each other.** -/
theorem Alike.determines {α : Type} {plan : Plan α} {course : Course}
    {ended : Option (Outcome α)} (takes : plan.Takes first course ended) :
    ∀ {other : Plan α} {outcome : Outcome α}, ended = some outcome → Alike accepts plan other →
      .gaveUp ∉ course.inTurn → Forces second answering other course.inTurn outcome := by
  induction takes with
  | pause plan =>
      intro other outcome same
      nomatch same
  | done ended =>
      intro other outcome same alike _ course stops state last after takes _ served serves
      cases same
      cases alike with
      | done alike =>
          obtain ⟨rfl, rfl⟩ := takes.of_done
          cases served
          cases serves
          exact ⟨rfl, rfl, alike⟩
  | call request exchange next _ ih =>
      intro other outcome same alike patient course stops state last after takes calm served serves
      cases alike with
      | call _ alike =>
          cases takes with
          | call _ answer _ rest =>
              simp only [Course.inTurn_act, calls_cons] at served serves
              simp only [Course.inTurn_act, List.mem_cons, not_or] at patient calm
              cases served with
              | cons _ next answers served =>
                  cases serves with
                  | cons _ further replies serves =>
                      obtain ⟨rfl, rfl⟩ := deterministic answers replies
                      obtain ⟨events, left, ends⟩ :=
                        ih same (alike exchange) patient.2 rest calm.2 served serves
                      exact ⟨congrArg (List.cons _) events, left, ends⟩
  | note notice next _ ih =>
      intro other outcome same alike patient course stops state last after takes calm served serves
      cases alike with
      | note shown alike =>
          obtain ⟨rest, rfl, later⟩ := takes.of_note
          rw [Course.inTurn_after, List.mem_append, not_or] at patient calm
          rw [Course.inTurn_after, calls_append, calls_ofNotice, List.nil_append] at served serves
          obtain ⟨events, left, ends⟩ := ih same alike patient.2 later calm.2 served serves
          refine ⟨?_, left, ends⟩
          rw [Course.inTurn_after, Course.inTurn_after, shown, events]
  | remember session entity next _ ih =>
      intro other outcome same alike patient course stops state last after takes calm served serves
      cases alike with
      | remember _ _ alike =>
          obtain ⟨rest, rfl, later⟩ := takes.of_remember
          simp only [Course.inTurn_act, List.mem_cons, not_or] at patient calm
          obtain ⟨events, left, ends⟩ := ih same alike patient.2 later calm.2 served serves
          exact ⟨congrArg (List.cons _) events, left, ends⟩
  | «recall» session entity known next _ ih =>
      intro other outcome same alike
      nomatch alike
  | skip group next nobody _ ih =>
      intro other outcome same alike patient course stops state last after takes calm served serves
      cases alike with
      | batch _ _ alike =>
          obtain ⟨parts, failures, rest, whole, _, _, told, later, events⟩ := takes.of_batch calm
          rw [nobody, List.map_eq_nil_iff] at whole
          obtain rfl := whole
          obtain rfl := told.eq_nil
          rw [events] at calm serves
          obtain ⟨more, left, ends⟩ :=
            ih same (alike _ _ ⟨.nil, rfl⟩) patient later calm served serves
          exact ⟨more.trans events.symm, left, ends⟩
  | fork group next parts whole each =>
      intro other outcome same
      nomatch same
  | join group next parts failures whole each through told _ each_ih ih =>
      intro other outcome same alike patient course stops state last after takes calm served serves
      cases alike with
      | batch _ accepted alike =>
          obtain ⟨others, failed, rest, all, every, ended, listed, later, events⟩ :=
            takes.of_batch calm
          rw [events] at calm serves
          simp only [Course.inTurn, List.mem_append, not_or] at patient calm
          simp only [Course.inTurn, calls_append] at served serves
          obtain ⟨middle, before, served⟩ := served_append.mp served
          obtain ⟨between, ahead, serves⟩ := served_append.mp serves
          have forced : ∀ part ∈ parts, ∃ result, part.outcome = some result ∧
              Forces second answering (second.childTask group part.child) part.course.inTurn
                result := by
            intro part member
            obtain ⟨result, stops⟩ := Option.isSome_iff_exists.mp (through part member)
            have mine : part.child ∈ group.children := whole ▸ List.mem_map_of_mem member
            refine ⟨result, stops, each_ih part member stops (tasks group _ (accepted _ mine)) ?_⟩
            intro gave
            exact patient.1 (Course.mem_allInTurn (List.mem_map_of_mem member) gave)
          obtain ⟨theirs, rfl, both⟩ :=
            parts_determined (whole.trans all.symm) forced every ended calm.1 before ahead
          obtain ⟨more, left, ends⟩ := ih same
            (alike ⟨failures, false⟩ ⟨failed, false⟩ ⟨.perm told listed both, rfl⟩) patient.2 later
            calm.2 served serves
          refine ⟨?_, left, ends⟩
          rw [events, Course.inTurn, theirs, more]
  | giveUp group next parts failures whole each _ each_ih ih =>
      intro other outcome same alike patient
      exact absurd (List.mem_append_right _ List.mem_cons_self) patient

end Plan

end DesiredState
