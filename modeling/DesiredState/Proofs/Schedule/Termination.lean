import DesiredState.Proofs.Api.Pathwise
import DesiredState.Proofs.Plan.Endings

/-!
# Runs come to an end

A task that has not ended can always go on: it takes a step by itself, or it waits for the answer
to a request and goes on with whichever comes (`able_of_not_over`). And no run goes on forever,
whatever is answered and in whatever order its tasks act, if only the children that are handed
out have fewer and fewer descendants (`Plan.Bounded.halts`). So what holds of each completed run
is inevitable (`Halts.ends`).

**Crews.** A crew halts since each step starts one more of the waiting children, or is a step of
a member, or gathers the members that have ended. The tasks of the members are compared member
by member, and a step of one of them leaves the others as they are.
-/

set_option autoImplicit false

namespace DesiredState

variable {run : Run} {α β : Type}

/-! ## Going on -/

namespace Stage

/-- The tasks can go on: one of them takes a step by itself, or it waits for the answer to a
request and goes on with whichever comes. -/
def Able (run : Run) (stage : Stage ChildTask α) : Prop :=
  (∃ event later, Step run stage event later ∧ calls event.toList = [] ∧ event ≠ some .gaveUp) ∨
    ∃ request, ∀ exchange, ∃ later, Step run stage (some (.called ⟨request, exchange⟩)) later

theorem able_active (run : Run) : ∀ plan : Plan α, (Stage.active plan).Able run
  | .done outcome => .inl ⟨none, _, .finish outcome, rfl, nofun⟩
  | .call request next => .inr ⟨request, fun exchange => ⟨_, .call request exchange next⟩⟩
  | .note notice next => by
      refine .inl ⟨_, _, .tell notice next, ?_, ?_⟩
      · cases notice <;> rfl
      · cases notice <;> nofun
  | .remember session entity next => .inl ⟨_, _, .remember session entity next, rfl, nofun⟩
  | .recall session entity next => .inl ⟨_, _, .recall session entity entity next, rfl, nofun⟩
  | .batch group next => by
      by_cases nobody : group.children = []
      · exact .inl ⟨none, _, .skip group next nobody, rfl, nofun⟩
      · exact .inl ⟨none, _, .lead group next 0 nobody, rfl, nofun⟩

/-- A crew can go on if one of its members can. -/
theorem able_of_member {crew : Crew ChildTask} {next : BatchResult → Plan α} {index : Nat}
    {label : String} {stage : Stage ChildTask (Option Entity)}
    (found : crew.members[index]? = some ⟨label, .mk stage⟩) (able : stage.Able run) :
    (Stage.leading crew next).Able run := by
  rcases able with ⟨event, later, step, silent, calm⟩ | ⟨request, steps⟩
  · exact .inl ⟨event, _, .member crew next index label stage later event found step, silent, calm⟩
  · refine .inr ⟨request, fun exchange => ?_⟩
    obtain ⟨later, step⟩ := steps exchange
    exact ⟨_, .member crew next index label stage later _ found step⟩

/-- A crew whose members have all ended can go on. -/
theorem able_of_idle {crew : Crew ChildTask} {next : BatchResult → Plan α}
    (idle : crew.working = 0) : (Stage.leading crew next).Able run := by
  cases waiting : crew.waiting with
  | cons child rest =>
      have free : crew.working < crew.permits := by
        rw [idle]
        exact crew.permitted
      exact .inl ⟨none, _, .enlist crew next child rest waiting free, rfl, nofun⟩
  | nil =>
      by_cases gathered : crew.ended = []
      · exact .inl ⟨none, _, .join crew next waiting idle gathered, rfl, nofun⟩
      · exact .inl ⟨none, _, .gather crew next waiting gathered, rfl, nofun⟩

end Stage

mutual

theorem ChildTask.able : ∀ task : ChildTask, task.stage.isOver = false → task.stage.Able run
  | .mk (.active plan), _ => Stage.able_active run plan
  | .mk (.asleep wake plan), _ => .inl ⟨none, _, .wake wake plan, rfl, nofun⟩
  | .mk (.finished _), unfinished => nomatch unfinished
  | .mk (.leading ⟨batch, deadline, permits, permitted, waiting, members, ended, failures⟩ next),
      _ => by
      by_cases idle : members.countP (fun member => !member.task.stage.isOver) = 0
      · exact Stage.able_of_idle idle
      · obtain ⟨index, label, stage, found, able⟩ := members_able members idle
        exact Stage.able_of_member found able

theorem members_able : ∀ members : List (Member ChildTask),
    members.countP (fun member => !member.task.stage.isOver) ≠ 0 →
    ∃ (index : Nat) (label : String) (stage : Stage ChildTask (Option Entity)),
      members[index]? = some ⟨label, .mk stage⟩ ∧ stage.Able run
  | [], working => absurd rfl working
  | ⟨label, .mk stage⟩ :: members, working => by
      by_cases unfinished : stage.isOver = false
      · exact ⟨0, label, stage, rfl, ChildTask.able (.mk stage) unfinished⟩
      · have rest : members.countP (fun member => !member.task.stage.isOver) ≠ 0 := by
          simpa [List.countP_cons, ChildTask.stage, unfinished] using working
        obtain ⟨index, label, later, found, able⟩ := members_able members rest
        exact ⟨index + 1, label, later, found, able⟩

end

/-- **A task that has not ended can go on.** -/
theorem Stage.able_of_not_over {stage : Stage ChildTask α} (unfinished : stage.isOver = false) :
    stage.Able run := by
  cases stage with
  | active plan => exact able_active run plan
  | asleep wake plan => exact .inl ⟨none, _, .wake wake plan, rfl, nofun⟩
  | finished outcome => nomatch unfinished
  | leading crew next =>
      by_cases idle : crew.working = 0
      · exact able_of_idle idle
      · obtain ⟨index, label, stage, found, able⟩ := members_able crew.members idle
        exact able_of_member found able

/-! ## Coming to an end -/

/-- The stage is reached by one step. -/
def Stage.Follows (run : Run) (later earlier : Stage ChildTask α) : Prop :=
  ∃ event, Stage.Step run earlier event later

/-- No sequence of steps goes on forever. -/
def Stage.Halts (run : Run) (stage : Stage ChildTask α) : Prop := Acc (Stage.Follows run) stage

/-- One of the members has taken a step. -/
def MembersFollow (run : Run) (later earlier : List (Member ChildTask)) : Prop :=
  ∃ index label stage after, earlier[index]? = some ⟨label, .mk stage⟩ ∧
    Stage.Follows run after stage ∧ later = earlier.set index ⟨label, .mk after⟩

theorem acc_cons {label : String} {stage : Stage ChildTask (Option Entity)}
    (halts : stage.Halts run) :
    ∀ {members : List (Member ChildTask)}, Acc (MembersFollow run) members →
      Acc (MembersFollow run) (⟨label, .mk stage⟩ :: members) := by
  induction halts with
  | intro stage _ ihStage =>
      intro members accessible
      induction accessible with
      | intro members below ihMembers =>
          refine Acc.intro _ ?_
          rintro later ⟨index, other, before, after, found, follows, rfl⟩
          cases index with
          | zero =>
              cases found
              exact ihStage after follows (Acc.intro members below)
          | succ index => exact ihMembers _ ⟨index, other, before, after, found, follows, rfl⟩

/-- Members that halt are together done after finitely many steps. -/
theorem acc_members : ∀ {members : List (Member ChildTask)},
    (∀ member ∈ members, member.task.stage.Halts run) → Acc (MembersFollow run) members
  | [], _ => by
      refine Acc.intro _ ?_
      rintro later ⟨index, label, stage, after, found, _⟩
      nomatch found
  | ⟨label, .mk stage⟩ :: members, each => by
      obtain ⟨first, rest⟩ := List.forall_mem_cons.mp each
      exact acc_cons first (acc_members rest)

/-- Members go on halting when one of them takes a step. -/
theorem halts_of_membersFollow {members later : List (Member ChildTask)}
    (each : ∀ member ∈ members, member.task.stage.Halts run)
    (follows : MembersFollow run later members) :
    ∀ member ∈ later, member.task.stage.Halts run := by
  obtain ⟨index, label, stage, after, found, step, rfl⟩ := follows
  intro member inLater
  rcases List.mem_or_eq_of_mem_set inLater with old | rfl
  · exact each member old
  · have before : stage.Halts run := each _ (List.mem_of_getElem? found)
    exact before.inv step

/-- What a step of a crew leads to: the crew is left, or one more child has been started, or the
members that have ended have been gathered, or a member has taken a step. -/
theorem leading_step {crew : Crew ChildTask} {next : BatchResult → Plan α}
    {event : Option Event} {later : Stage ChildTask α}
    (step : Stage.Step run (.leading crew next) event later) :
    (∃ result, later = .active (next result)) ∨
    ∃ moved : Crew ChildTask, later = .leading moved next ∧ moved.batch = crew.batch ∧
      ((∃ child, crew.waiting = child :: moved.waiting ∧
          moved.members = crew.members ++ [Crew.enlist run crew.batch child]) ∨
        moved.waiting = crew.waiting ∧
          (moved.members = crew.members ∧ moved.ended.length < crew.ended.length ∨
            MembersFollow run moved.members crew.members)) := by
  cases step with
  | enlist _ _ child rest waiting free =>
      exact .inr ⟨_, rfl, rfl, .inl ⟨child, waiting, rfl⟩⟩
  | gather _ _ started ended =>
      have all : crew.gather = { crew with
          ended := []
          failures := crew.failures ++ crew.ended.filterMap Crew.failureOf } := by
        rw [Crew.gather, started]
        rfl
      rw [all]
      exact .inr ⟨_, rfl, rfl, .inr ⟨rfl, .inl ⟨rfl, List.length_pos_iff.mpr ended⟩⟩⟩
  | join _ _ started through gathered => exact .inl ⟨_, rfl⟩
  | giveUp => exact .inl ⟨_, rfl⟩
  | member _ _ index label stage after _ found step =>
      exact .inr ⟨_, rfl, rfl, .inr ⟨rfl, .inr ⟨index, label, stage, after, found, ⟨_, step⟩, rfl⟩⟩⟩

/-- A crew halts if its tasks do, those of the children that have not been started included, and
what is left to do then does. -/
theorem halts_leading {next : BatchResult → Plan α} {group : Batch}
    (after : ∀ result, (Stage.active (next result)).Halts run)
    (tasks : ∀ child ∈ group.children, (Stage.active (run.childTask group child)).Halts run) :
    ∀ {count : Nat} {members : List (Member ChildTask)},
      (∀ member ∈ members, member.task.stage.Halts run) →
      ∀ {crew : Crew ChildTask}, crew.batch = group → crew.members = members →
        (∀ child ∈ crew.waiting, child ∈ group.children) → crew.waiting.length < count →
          (Stage.leading crew next).Halts run := by
  intro count
  induction count with
  | zero =>
      intro _ _ crew _ _ _ impossible
      omega
  | succ count ihWaiting =>
      intro members each
      have accessible := acc_members each
      induction accessible with
      | intro members _ ihMembers =>
          intro crew same whole inside few
          obtain ⟨bound, enough⟩ : ∃ bound, crew.ended.length < bound := ⟨_, Nat.lt_succ_self _⟩
          induction bound generalizing crew with
          | zero => omega
          | succ bound ihEnded =>
              refine Acc.intro _ ?_
              rintro later ⟨event, step⟩
              rcases leading_step step with ⟨result, rfl⟩ | ⟨moved, rfl, batch, advance⟩
              · exact after result
              · rw [same] at batch advance
                rw [whole] at advance
                rcases advance with ⟨child, starts, joined⟩ | ⟨waits, ⟨stay, fewer⟩ | follows⟩
                · rw [starts] at inside few
                  obtain ⟨mine, rest⟩ := List.forall_mem_cons.mp inside
                  refine ihWaiting ?_ batch joined rest (by simpa using few)
                  exact List.forall_mem_append.mpr
                    ⟨each, List.forall_mem_singleton.mpr (tasks child mine)⟩
                · rw [← waits] at inside few
                  exact ihEnded batch stay inside few (by omega)
                · rw [← waits] at inside few
                  exact ihMembers _ follows (halts_of_membersFollow each follows) batch rfl inside
                    few

/-- The children of each batch have plans whose batches are so bounded in turn. -/
inductive Plan.Bounded (run : Run) : {α : Type} → Plan α → Prop
  | done {α : Type} (outcome : Outcome α) : Bounded run (.done outcome)
  | call {α : Type} (request : Request) {next : Exchange → Plan α} :
      (∀ exchange, Bounded run (next exchange)) → Bounded run (.call request next)
  | note {α : Type} (notice : Notice) {next : Plan α} :
      Bounded run next → Bounded run (.note notice next)
  | remember {α : Type} (session : SessionId) (entity : Entity) {next : Plan α} :
      Bounded run next → Bounded run (.remember session entity next)
  | recall {α : Type} (session : SessionId) (entity : Entity) {next : Entity → Plan α} :
      (∀ known, Bounded run (next known)) → Bounded run (.recall session entity next)
  | batch {α : Type} (group : Batch) {next : BatchResult → Plan α} :
      (∀ child ∈ group.children, Bounded run (run.childTask group child)) →
      (∀ result, Bounded run (next result)) → Bounded run (.batch group next)

namespace Plan.Bounded

/-- **A run of bounded plans comes to an end.** -/
theorem halts {plan : Plan α} (bounded : plan.Bounded run) : (Stage.active plan).Halts run := by
  induction bounded with
  | done outcome =>
      refine Acc.intro _ ?_
      rintro later ⟨event, step⟩
      cases step with
      | finish =>
          refine Acc.intro _ ?_
          rintro after ⟨_, further⟩
          nomatch further
  | call request _ ih =>
      refine Acc.intro _ ?_
      rintro later ⟨event, step⟩
      cases step with
      | call _ exchange _ => exact ih exchange
      | send _ exchange _ wake =>
          refine Acc.intro _ ?_
          rintro after ⟨_, further⟩
          cases further with
          | wake => exact ih exchange
  | note notice _ ih =>
      refine Acc.intro _ ?_
      rintro later ⟨event, step⟩
      cases step with
      | tell => exact ih
  | remember session entity _ ih =>
      refine Acc.intro _ ?_
      rintro later ⟨event, step⟩
      cases step with
      | remember => exact ih
  | «recall» session entity _ ih =>
      refine Acc.intro _ ?_
      rintro later ⟨event, step⟩
      cases step with
      | «recall» _ _ known => exact ih known
  | batch group _ _ ihTasks ih =>
      refine Acc.intro _ ?_
      rintro later ⟨event, step⟩
      cases step with
      | skip => exact ih _
      | lead =>
          exact halts_leading ih ihTasks (List.forall_mem_nil _) rfl rfl
            (fun child member => member) (Nat.lt_succ_self _)

end Plan.Bounded

/-! ## What is inevitable -/

variable {τ : Type} {answering : Answering τ}

/-- Whatever the tasks do next, they can always go on, and in the end the promise holds of the
outcome and of the state of the API, as long as no batch is given up. -/
inductive Stage.Ends (run : Run) (answering : Answering τ)
    (promise : Outcome α → (String → τ) → Prop) : Stage ChildTask α → (String → τ) → Prop
  | finished {outcome : Outcome α} {state : String → τ} :
      promise outcome state → Ends run answering promise (.finished outcome) state
  | later {stage : Stage ChildTask α} {state : String → τ} :
      stage.Able run →
      (∀ event after next, Stage.Step run stage event after → event ≠ some .gaveUp →
        Served answering state (calls event.toList) next →
          Ends run answering promise after next) →
      Ends run answering promise stage state

/-- **What holds of each completed run is inevitable if the tasks halt.** -/
theorem Stage.Halts.ends {promise : Outcome α → (String → τ) → Prop} {stage : Stage ChildTask α}
    (halts : stage.Halts run) : ∀ {state : String → τ},
      (∀ events outcome last, Stage.Steps run stage events (.finished outcome) →
        .gaveUp ∉ events → Served answering state (calls events) last → promise outcome last) →
      stage.Ends run answering promise state := by
  induction halts with
  | intro stage _ ih =>
      intro state kept
      cases unfinished : stage.isOver with
      | true =>
          cases stage with
          | finished outcome =>
              exact .finished (kept [] outcome state (.refl _) List.not_mem_nil (.nil state))
          | active plan => nomatch unfinished
          | asleep wake plan => nomatch unfinished
          | leading crew next => nomatch unfinished
      | false =>
          refine .later (able_of_not_over unfinished) ?_
          intro event after next step calm served
          refine ih after ⟨event, step⟩ ?_
          intro events outcome last steps patient more
          refine kept (event.toList ++ events) outcome last (.head step steps) ?_ ?_
          · intro gave
            rcases List.mem_append.mp gave with first | rest
            · exact calm (Option.mem_toList.mp first)
            · exact patient rest
          · rw [calls_append]
            exact served_append.mpr ⟨next, served, more⟩

end DesiredState
