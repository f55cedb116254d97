import DesiredState.Proofs.Schedule.Crews
import DesiredState.Proofs.Schedule.Retrace

/-!
# Batches are bounded, go on, and report

Wherever in a run a batch is under way, no more of its children are at work than it has permits,
its children are started in order and once each, and something of it can always go on
(`Run.bounded_without_deadlock`). When it is left without being given up, all children have been
started, and it succeeds just if each of them came to a value.

**What a batch reports.** A batch that fails reports the failures of its members, one for each
that did not come to a value, provided that all children have been started by then
(`Run.failures_of_batch`). Before that nobody listens to the members: a batch that is given up while
a child waits for a permit reports no failure at all, whatever the members have come to.
-/

set_option autoImplicit false

namespace DesiredState

variable {run : Run} {α : Type}

/-! ## The end of a batch -/

/-- The crew is left with a result, which shows an event if the batch is given up. -/
def Crew.Concludes (run : Run) (crew : Crew ChildTask) (event : Option Event)
    (result : BatchResult) : Prop :=
  Stage.Step run (.leading crew (pure : BatchResult → Plan BatchResult)) event
    (.active (pure result))

/-- A crew is left when all of its members have ended and been gathered, or at any time when its
batch is given up. -/
theorem Crew.Concludes.cases {crew : Crew ChildTask} {event : Option Event} {result : BatchResult}
    (concludes : crew.Concludes run event result) :
    (event = none ∧ result = ⟨crew.failures, false⟩ ∧ crew.waiting = [] ∧ crew.working = 0 ∧
        crew.ended = []) ∨
      (event = some .gaveUp ∧ result = ⟨crew.failures, true⟩) := by
  unfold Crew.Concludes at concludes
  generalize left : Stage.active (pure result : Plan BatchResult) = later at concludes
  cases concludes with
  | join _ _ started through gathered =>
      cases left
      exact .inl ⟨rfl, rfl, started, through, gathered⟩
  | giveUp =>
      cases left
      exact .inr ⟨rfl, rfl⟩
  | enlist => cases left
  | gather => cases left
  | member => cases left

namespace Run

/-- What the handling of a batch does with its result. -/
def afterBatch (run : Run) (batch : Batch) (result : BatchResult) : Plan Unit := do
  if result.timedOut then
    Plan.log (.batchTimedOut run.label batch.type run.settings.timeoutSeconds)
  if result.isSuccess then pure ()
  else Plan.fail (.batchFailed batch.type run.label batch.children.length result.failures
    result.timedOut)

/-- The handling of a batch with children. -/
theorem children_eq (run : Run) {batch : Batch} (somebody : batch.children ≠ []) :
    ∃ line, run.children batch = .note line (.batch batch (run.afterBatch batch)) := by
  have some : batch.children.isEmpty = false := by simpa using somebody
  refine ⟨.event (.batchStarted run.label batch.type batch.children.length
    (run.settings.permits batch.children.length)), ?_⟩
  unfold children
  rw [some]
  rfl

/-- The handling of a batch that has come to a result ends with the outcome. -/
def Returns (run : Run) (batch : Batch) (result : BatchResult) (outcome : Outcome Unit) : Prop :=
  ∃ line next, run.children batch = .note line (.batch batch next) ∧
    Stage.Steps run (.active (next result)) [] (.finished outcome)

/-- How the handling of a batch ends with a result. -/
def verdict (run : Run) (batch : Batch) (result : BatchResult) : Outcome Unit :=
  if result.isSuccess then .value ()
  else .failed (.batchFailed batch.type run.label batch.children.length result.failures
    result.timedOut)

theorem afterBatch_eq (run : Run) (batch : Batch) (result : BatchResult) :
    run.afterBatch batch result
      = if result.timedOut then
          .note (.event (.batchTimedOut run.label batch.type run.settings.timeoutSeconds))
            (.done (run.verdict batch result))
        else .done (run.verdict batch result) := by
  unfold afterBatch verdict
  cases result.timedOut <;> cases result.isSuccess <;> rfl

/-- The handling of a batch has come to its verdict. -/
theorem returns_iff {batch : Batch} (somebody : batch.children ≠ []) {result : BatchResult}
    {outcome : Outcome Unit} :
    run.Returns batch result outcome ↔ outcome = run.verdict batch result := by
  obtain ⟨line, whole⟩ := run.children_eq somebody
  constructor
  · rintro ⟨_, next, same, steps⟩
    obtain ⟨_, following⟩ := Plan.note.inj (whole.symm.trans same)
    obtain rfl := (Plan.batch.inj following).2
    obtain ⟨course, takes, _⟩ := steps.takes
    rw [afterBatch_eq] at takes
    split at takes
    · obtain ⟨rest, _, later⟩ := Plan.Takes.of_note takes
      exact later.of_done.2
    · exact (Plan.Takes.of_done takes).2
  · rintro rfl
    refine ⟨line, run.afterBatch batch, whole, ?_⟩
    rw [afterBatch_eq]
    split
    · exact .head (.tell _ _) (.single (.finish _))
    · exact .single (.finish _)

end Run

/-! ## Batches of a run -/

namespace Crew.Led

variable {crew : Crew ChildTask}

/-- No more members are at work than children are handled at once. -/
theorem working_le (led : crew.Led run) :
    crew.working ≤ min crew.batch.children.length (max 1 run.settings.concurrency) := by
  have bounded := led.bounded
  have some : 0 < crew.batch.children.length := List.length_pos_iff.mpr led.somebody
  rw [led.permits, Settings.permits] at bounded
  omega

/-- A crew that is left because it is through has no failures just if all members have come to a
value. -/
theorem failures_eq_nil_iff (led : crew.Led run) (through : crew.working = 0)
    (gathered : crew.ended = []) :
    crew.failures = [] ↔
      ∀ member ∈ crew.members, ∃ value, member.task.stage = .finished (.value value) := by
  have accounted := led.accounted
  rw [gathered, List.filterMap_nil, List.append_nil] at accounted
  have none_left : crew.failures = [] ↔ crew.members.filterMap Member.failure? = [] := by
    constructor
    · intro empty
      rw [empty] at accounted
      exact accounted.nil_eq.symm
    · intro empty
      rw [empty] at accounted
      exact accounted.eq_nil
  rw [none_left, List.filterMap_eq_nil_iff]
  refine forall₂_congr fun member inCrew => Member.failure?_eq_none_iff ?_
  simpa using List.countP_eq_zero.mp through member inCrew

end Crew.Led

namespace Run

variable {plan : Plan α} {events : List Event} {stage : Stage ChildTask α} {place : Address}
  {crew : Crew ChildTask}

/-- **Bounded, and never stuck.** In every state of every run, and for the batch at every place:
no more children are at work than its permits allow; the children that have been started come
first in the batch, and each of them is handled by one member, in order; no step takes a task
back; the run as a whole and the batch by itself can go on; and a batch that is left without being
given up has started all children and ends with a value just if each child did. A batch without
children is passed over. -/
theorem bounded_without_deadlock (steps : Stage.Steps run (.active plan) events stage)
    (here : stage.crewAt? place = some crew) :
    crew.working ≤ min crew.batch.children.length (max 1 run.settings.concurrency) ∧
      (∃ started, crew.batch.children = started ++ crew.waiting ∧
        List.Forall₂ (Member.Handles run crew.batch) started crew.members) ∧
      (∀ event later moved, Stage.Step run stage event later →
        later.crewAt? place = some moved → moved.Continues run crew) ∧
      stage.Able run ∧
      (∀ next : BatchResult → Plan Unit, (Stage.leading crew next).Able run) ∧
      (∀ event result, crew.Concludes run event result → event ≠ some .gaveUp →
        crew.waiting = [] ∧
          (run.Returns crew.batch result (.value ()) ↔
            ∀ member ∈ crew.members, ∃ value, member.task.stage = .finished (.value value))) ∧
      ∀ batch : Batch, batch.children = [] → run.children batch = pure () := by
  have led : crew.Led run := steps.led_crewAt? place here
  obtain ⟨own, next, rfl⟩ := Stage.leading_of_crewAt? here
  refine ⟨led.working_le, led.started, ?_, Stage.able_of_not_over rfl,
    fun next => Stage.able_of_not_over rfl, ?_, ?_⟩
  · intro event later moved step after
    exact step.continues here after
  · intro event result concludes calm
    rcases concludes.cases with ⟨_, rfl, started, through, gathered⟩ | ⟨gave, _⟩
    · refine ⟨started, ?_⟩
      rw [returns_iff led.somebody, ← led.failures_eq_nil_iff through gathered, verdict]
      cases crew.failures <;> simp [BatchResult.isSuccess]
    · exact absurd gave calm
  · intro batch nobody
    rw [children, nobody]
    rfl

/-- **What a failed batch reports.** The failure of a batch names its type and the number of its
children, and tells whether the batch was given up. If all children had been started, it lists the
failures of the members that have ended, up to those that a batch which is given up has not looked
at yet; if some child had not been started, it lists none. -/
theorem failures_of_batch (steps : Stage.Steps run (.active plan) events stage)
    (here : stage.crewAt? place = some crew) {event : Option Event} {result : BatchResult}
    (concludes : crew.Concludes run event result) {failure : Failure}
    (returned : run.Returns crew.batch result (.failed failure)) :
    ∃ failures timedOut,
      failure = .batchFailed crew.batch.type run.label crew.batch.children.length failures
        timedOut ∧
      (timedOut = true ↔ event = some .gaveUp) ∧
      (∃ started, crew.batch.children = started ++ crew.waiting ∧
        List.Forall₂ (Member.Handles run crew.batch) started crew.members) ∧
      (crew.waiting = [] → (failures ++ crew.ended.filterMap Crew.failureOf).Perm
        (crew.members.filterMap Member.failure?)) ∧
      (event ≠ some .gaveUp → crew.waiting = [] ∧ crew.ended = []) ∧
      (crew.waiting ≠ [] → failures = []) := by
  have led : crew.Led run := steps.led_crewAt? place here
  have ended := (returns_iff led.somebody).mp returned
  have failed : failure = .batchFailed crew.batch.type run.label crew.batch.children.length
      result.failures result.timedOut := by
    unfold Run.verdict at ended
    split at ended
    · cases ended
    · exact Outcome.failed.inj ended
  refine ⟨result.failures, result.timedOut, failed, ?_, led.started, ?_⟩
  · rcases concludes.cases with ⟨rfl, rfl, _⟩ | ⟨rfl, rfl⟩ <;> simp
  · rcases concludes.cases with ⟨rfl, rfl, started, _, gathered⟩ | ⟨rfl, rfl⟩
    · exact ⟨fun _ => led.accounted, fun _ => ⟨started, gathered⟩, led.ungathered⟩
    · exact ⟨fun _ => led.accounted, fun calm => absurd rfl calm, led.ungathered⟩

end Run

/-! ## A failure that is not heard -/

namespace Sample

/-- A run that handles one child at a time, as if the limit were one. -/
def single : Run where
  settings := ⟨"/blueprints", 0, 1000, "sample"⟩
  observer := none
  dry := false
  session := ⟨0⟩
  access := .direct

def gear (name : String) : Entity := .ofRemote (.object [("name", .string name)]) "Gear"

/-- The path of a gear that nothing is known of but its name. -/
def gearPath : String := "/gears/\x7bkind\x7d"

/-- Three gears that cannot be looked up. -/
def gears : Batch where
  type := "Gear"
  blueprint := { Blueprint.blank with updateUri := some gearPath }
  children := [gear "a", gear "b", gear "c"]
  lineage := .empty

/-- The failure of each of them. -/
def unaddressed : Failure := .templateUnfilled gearPath gearPath

/-- A gear fails before anything is sent. -/
theorem gear_fails : single.childTask gears (gear "a")
    = .note (.begun ⟨gears.blueprint, gears.lineage, gear "a"⟩) (.done (.failed unaddressed)) := by
  have template : gears.blueprint.lookupUri? = some gearPath := by decide +kernel
  have left : Template.resolve gears.lineage (gear "a") gearPath = .unfilled gearPath := by
    decide +kernel
  have path : Run.lookupPath gears.blueprint gears.lineage (gear "a")
      = .done (.failed unaddressed) := by
    rw [Run.lookupPath, template]
    simp only [Run.resolve, left]
    rfl
  unfold Run.childTask Run.reconcile Run.settle
  rw [path]
  rfl

/-- The first gear is at a stage, and the others wait. -/
def first (stage : Stage ChildTask (Option Entity)) (ended : List (String × Outcome Unit)) :
    Crew ChildTask :=
  { Crew.assemble single 0 gears with
    waiting := [gear "b", gear "c"]
    members := [⟨(gear "a").label, .mk stage⟩]
    ended }

/-- The first gear has failed. -/
def unheard : Crew ChildTask :=
  first (.finished (.failed unaddressed)) [((gear "a").label, .failed unaddressed)]

/-- The first gear is started and fails. -/
theorem gear_unheard : ∃ events, Stage.Steps single
    (.active (.batch gears (single.afterBatch gears))) events
    (.leading unheard (single.afterBatch gears)) := by
  let next := single.afterBatch gears
  have led : Stage.Step single (.active (.batch gears next)) none
      (.leading (Crew.assemble single 0 gears) next) := .lead gears next 0 (by decide)
  have started : Stage.Step single (.leading (Crew.assemble single 0 gears) next) none
      (.leading (first (.active (single.childTask gears (gear "a"))) []) next) :=
    .enlist _ next (gear "a") _ rfl (by decide)
  have begun : Stage.Step single (.active (single.childTask gears (gear "a")))
      (some (.told (.begun ⟨gears.blueprint, gears.lineage, gear "a"⟩)))
      (.active (.done (.failed unaddressed))) := by
    rw [gear_fails]
    exact .tell _ _
  have told : Stage.Step single
      (.leading (first (.active (single.childTask gears (gear "a"))) []) next) _
      (.leading (first (.active (.done (.failed unaddressed))) []) next) :=
    .member _ next 0 _ _ _ _ rfl begun
  have failed : Stage.Step single
      (.leading (first (.active (.done (.failed unaddressed))) []) next) none
      (.leading unheard next) := .member _ next 0 _ _ _ _ rfl (.finish _)
  exact ⟨_, .head led (.head started (.head told (.single failed)))⟩

/-- The batch of gears, of which one has failed, has its permit back and can go on. -/
theorem gears_bounded_without_deadlock : ∃ events, ∃ stage : Stage ChildTask Unit,
    Stage.Steps single (.active (.batch gears (single.afterBatch gears))) events stage ∧
      stage.crewAt? [] = some unheard ∧ unheard.working ≤ 1 ∧ stage.Able single := by
  obtain ⟨events, steps⟩ := gear_unheard
  obtain ⟨bounded, _, _, able, _⟩ :=
    Run.bounded_without_deadlock steps (Stage.crewAt?_nil unheard _)
  exact ⟨events, _, steps, rfl, Nat.le_trans bounded (by decide), able⟩

/-- If the batch of gears is given up now, it reports no failure, though the first gear has
failed. -/
theorem gear_failure_lost : ∃ events, ∃ stage : Stage ChildTask Unit,
    Stage.Steps single (.active (.batch gears (single.afterBatch gears))) events stage ∧
      stage.crewAt? [] = some unheard ∧
      unheard.members.filterMap Member.failure? = [⟨"a", unaddressed.message⟩] ∧
      unheard.Concludes single (some .gaveUp) ⟨[], true⟩ ∧
      ∃ failures timedOut, single.Returns gears ⟨[], true⟩
          (.failed (.batchFailed "Gear" "sample" 3 failures timedOut)) ∧
        failures = [] ∧ timedOut = true := by
  obtain ⟨events, steps⟩ := gear_unheard
  have concludes : unheard.Concludes single (some .gaveUp) ⟨[], true⟩ := .giveUp unheard _
  have returned : single.Returns gears ⟨[], true⟩
      (.failed (.batchFailed "Gear" "sample" 3 [] true)) :=
    (Run.returns_iff (by decide)).mpr rfl
  obtain ⟨failures, timedOut, same, gave, _, _, _, silent⟩ :=
    Run.failures_of_batch steps (Stage.crewAt?_nil unheard _) concludes returned
  have lost : failures = [] := silent (by decide)
  refine ⟨events, _, steps, rfl, by decide +kernel, concludes, failures, timedOut, ?_, lost,
    gave.mpr rfl⟩
  rw [lost, gave.mpr rfl]
  exact returned

end Sample

end DesiredState
