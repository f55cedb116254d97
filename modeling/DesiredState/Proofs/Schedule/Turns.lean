import DesiredState.Engine
import DesiredState.Proofs.Schedule.Interleaving

/-!
# The turns of the machine are interleavings

The machine that carries out a run gives each task a turn, in which the task acts until it has
to wait. Such a turn is made of steps (`turnAt_steps`), and so is all that the machine does
(`steps_interleave`): what holds of every interleaving of the steps holds of the runs of an
engine.

**Worlds.** The events of the steps account for what the turns do to the shared world: a
request is answered by the server in its present state, a state is recalled from the present
registry, and what was told stands in the journal (`World.Records`).
-/

set_option autoImplicit false

namespace DesiredState

variable {σ α : Type}

/-! ## Worlds -/

/-- The events account for the change of a world. Log events are written unseen. -/
inductive World.Records (server : Server σ) : World σ → List Event → World σ → Prop
  | nothing (world : World σ) : Records server world [] world
  | logged {world last : World σ} {events : List Event} (event : LogEvent) :
      Records server { world with journal := .event event :: world.journal } events last →
        Records server world events last
  | called {world last : World σ} {events : List Event} (now : Nat) (request : Request) :
      Records server { world with server := (server now request world.server).2 } events last →
        Records server world
          (.called ⟨request, (server now request world.server).1.exchange⟩ :: events) last
  | told {world last : World σ} {events : List Event} {event : Event} (notice : Notice) :
      Event.ofNotice? notice = some event →
        Records server { world with journal := notice :: world.journal } events last →
        Records server world (event :: events) last
  | remembered {world last : World σ} {events : List Event} (session : SessionId)
      (entity : Entity) :
      Records server { world with registry := world.registry.insert session entity } events last →
        Records server world (.remembered session entity :: events) last
  | recalled {world last : World σ} {events : List Event} (session : SessionId)
      (entity : Entity) :
      Records server { world with registry := (world.registry.findOrInsert session entity).2 }
          events last →
        Records server world
          (.recalled session entity (world.registry.findOrInsert session entity).1 :: events) last
  | gaveUp {world last : World σ} {events : List Event} :
      Records server world events last → Records server world (.gaveUp :: events) last

namespace World.Records

variable {server : Server σ}

theorem trans {first second third : World σ} {events more : List Event}
    (earlier : Records server first events second) (later : Records server second more third) :
    Records server first (events ++ more) third := by
  induction earlier with
  | nothing => exact later
  | logged event _ ih => exact .logged event (ih later)
  | called now request _ ih => exact .called now request (ih later)
  | told notice seen _ ih => exact .told notice seen (ih later)
  | remembered session entity _ ih => exact .remembered session entity (ih later)
  | recalled session entity _ ih => exact .recalled session entity (ih later)
  | gaveUp _ ih => exact .gaveUp (ih later)

/-- Several log events are written unseen. -/
theorem logs {last : World σ} {events : List Event} :
    ∀ (lines : List LogEvent) {world : World σ},
      Records server
          { world with journal := (lines.map Notice.event).reverse ++ world.journal } events last →
        Records server world events last
  | [], _, rest => rest
  | line :: lines, world, rest => by
      refine .logged line (logs lines ?_)
      simpa using rest

end World.Records

/-! ## What was told -/

/-- The visit that is begun with a notice. -/
def Notice.visit? : Notice → Option Visit
  | .begun visit => some visit
  | _ => none

/-- The report that is made with a notice. -/
def Notice.report? : Notice → Option Report
  | .report made => some made
  | _ => none

/-- What an event tells. -/
def Event.notice? : Event → Option Notice
  | .told notice => some notice
  | _ => none

/-- The journal holds what was told, log events excepted. -/
theorem World.Records.told_in_journal {β : Type} {server : Server σ} {world last : World σ}
    {events : List Event} {pick : Notice → Option β} (unlogged : ∀ line, pick (.event line) = none)
    (records : World.Records server world events last) :
    last.journal.reverse.filterMap pick = world.journal.reverse.filterMap pick
      ++ events.filterMap fun event => event.notice?.bind pick := by
  induction records with
  | nothing world => simp
  | logged _ _ ih => simpa [unlogged] using ih
  | called _ _ _ ih => simpa [Event.notice?, List.filterMap_cons] using ih
  | @told _ _ _ event notice shown _ ih =>
      obtain rfl : event = .told notice := by
        cases notice with
        | event line => nomatch shown
        | _ => exact (Option.some.inj shown).symm
      rw [ih, List.reverse_cons, List.filterMap_append, List.append_assoc]
      congr 1
      simp only [List.filterMap_cons, Event.notice?, Option.bind_some, List.filterMap_nil]
      cases pick notice <;> rfl
  | remembered _ _ _ ih => simpa [Event.notice?, List.filterMap_cons] using ih
  | recalled _ _ _ ih => simpa [Event.notice?, List.filterMap_cons] using ih
  | gaveUp _ ih => simpa [Event.notice?, List.filterMap_cons] using ih

theorem Event.visit?_eq (event : Event) : event.visit? = event.notice?.bind Notice.visit? := by
  cases event with
  | told notice => cases notice <;> rfl
  | _ => rfl

theorem Event.report?_eq (event : Event) : event.report? = event.notice?.bind Notice.report? := by
  cases event with
  | told notice => cases notice <;> rfl
  | _ => rfl

/-! ## Crews -/

namespace Crew

variable {run : Run}

@[simp] theorem working_enlist (crew : Crew ChildTask) (child : Entity) (rest : List Entity) :
    ({ crew with waiting := rest, members := crew.members ++ [enlist run crew.batch child] } :
      Crew ChildTask).working = crew.working + 1 := by
  simp [working, enlist, ChildTask.stage, Stage.isOver, Stage.outcome?]

/-- As many children as there are permits left may be started one by one. -/
theorem enlist_steps (next : BatchResult → Plan α) :
    ∀ (count : Nat) (crew : Crew ChildTask), count ≤ crew.permits - crew.working →
      Stage.Steps run (.leading crew next) [] (.leading
        { crew with
          waiting := crew.waiting.drop count
          members := crew.members ++ (crew.waiting.take count).map (enlist run crew.batch) } next)
  | 0, crew, _ => by
      simpa using Stage.Steps.refl (Stage.leading crew next)
  | count + 1, crew, free => by
      cases waiting : crew.waiting with
      | nil =>
          have same : ({ crew with waiting := [], members := crew.members } : Crew ChildTask)
              = crew := by rw [← waiting]
          simpa [same] using Stage.Steps.refl (Stage.leading crew next)
      | cons child rest =>
          have step := @Stage.Step.enlist run _ crew next child rest waiting (by omega)
          have left : count ≤ crew.permits - (crew.working + 1) := by omega
          have others := enlist_steps next count
            { crew with waiting := rest, members := crew.members ++ [enlist run crew.batch child] }
            (by simpa only [working_enlist] using left)
          simpa using Stage.Steps.head step others

theorem start_steps (crew : Crew ChildTask) (next : BatchResult → Plan α) :
    Stage.Steps run (.leading crew next) [] (.leading (crew.start run) next) :=
  enlist_steps next _ crew (Nat.le_refl _)

theorem gather_steps (crew : Crew ChildTask) (next : BatchResult → Plan α) :
    Stage.Steps run (.leading crew next) [] (.leading crew.gather next) := by
  by_cases started : crew.waiting = []
  · by_cases ended : crew.ended = []
    · have same : crew.gather = crew := by
        simp only [gather, started, List.isEmpty_nil, if_true, ended, List.filterMap_nil,
          List.append_nil]
        rw [← started, ← ended]
      rw [same]
      exact .refl _
    · exact Stage.Steps.single (.gather crew next started ended)
  · have same : crew.gather = crew := by
      simp [gather, started]
    rw [same]
    exact .refl _

/-- A crew that is through when its members have been gathered is left. -/
theorem join_step (crew : Crew ChildTask) (next : BatchResult → Plan α)
    (through : crew.gather.isThrough = true) :
    Stage.Step run (.leading crew.gather next) none
      (.active (next ⟨crew.gather.failures, false⟩)) := by
  simp only [isThrough, Bool.and_eq_true, List.isEmpty_iff, beq_iff_eq] at through
  refine .join crew.gather next through.1 through.2 ?_
  have started : crew.waiting = [] := by
    have kept : crew.gather.waiting = crew.waiting := by
      unfold gather
      split <;> rfl
    exact kept ▸ through.1
  simp [gather, started]

/-- Putting a member at the stage it is at changes nothing, unless it has ended. -/
theorem advance_self (crew : Crew ChildTask) (index : Nat) (label : String)
    (stage : Stage ChildTask (Option Entity))
    (found : crew.members[index]? = some ⟨label, .mk stage⟩) (working : stage.isOver = false) :
    crew.advance index label stage = crew := by
  have ending : stage.outcome? = none := by simpa [Stage.isOver] using working
  obtain ⟨inside, here⟩ := List.getElem?_eq_some_iff.mp found
  simp [advance, ending, ← here]

theorem advance_advance (crew : Crew ChildTask) (index : Nat) (label : String)
    (first second : Stage ChildTask (Option Entity)) (working : first.isOver = false) :
    (crew.advance index label first).advance index label second
      = crew.advance index label second := by
  have ending : first.outcome? = none := by simpa [Stage.isOver] using working
  simp [advance, ending]

/-- The steps of a member are steps of its crew. -/
theorem member_steps (next : BatchResult → Plan α) (index : Nat) (label : String)
    {stage later : Stage ChildTask (Option Entity)} {events : List Event}
    (steps : Stage.Steps run stage events later) :
    ∀ crew : Crew ChildTask, crew.members[index]? = some ⟨label, .mk stage⟩ →
      stage.isOver = false →
      Stage.Steps run (.leading crew next) events
        (.leading (crew.advance index label later) next) := by
  induction steps with
  | refl stage =>
      intro crew found working
      rw [advance_self crew index label stage found working]
      exact .refl _
  | @head first second last event events step rest ih =>
      intro crew found _
      have moved := @Stage.Step.member run _ crew next index label first second event found
        step
      cases through : second.isOver with
      | true =>
          cases rest with
          | refl => simpa using Stage.Steps.head moved (.refl _)
          | head another _ => exact absurd through (by simp [another.not_over])
      | false =>
          have inside := (List.getElem?_eq_some_iff.mp found).1
          have here : (crew.advance index label second).members[index]?
              = some ⟨label, .mk second⟩ := by simp [advance, inside]
          have others := ih (crew.advance index label second) here through
          rw [advance_advance crew index label second last through] at others
          exact .head moved others

end Crew

/-! ## Turns -/

section Turns

variable (run : Run) (server : Server σ) (now : Nat)

/-- What a task does in its turn is made of steps. -/
theorem act_steps : ∀ (plan : Plan α) (world : World σ), ∃ events,
    Stage.Steps run (.active plan) events (plan.act run server now world).stage ∧
      World.Records server world events (plan.act run server now world).world
  | .done outcome, world => ⟨[], .single (.finish outcome), .nothing world⟩
  | .call request next, world => by
      simp only [Plan.act]
      split
      · obtain ⟨events, steps, records⟩ :=
          act_steps (next (server now request world.server).1.exchange)
          { world with server := (server now request world.server).2 }
        exact ⟨_, .head (.call request _ next) steps, .called now request records⟩
      · exact ⟨_, .single (.send request _ next _), .called now request (.nothing _)⟩
  | .note notice next, world => by
      obtain ⟨events, steps, records⟩ :=
        act_steps next { world with journal := notice :: world.journal }
      refine ⟨_, .head (.tell notice next) steps, ?_⟩
      cases notice with
      | event line => exact .logged line records
      | moment moment => exact .told (.moment moment) rfl records
      | report report => exact .told (.report report) rfl records
      | begun visit => exact .told (.begun visit) rfl records
  | .remember session entity next, world => by
      obtain ⟨events, steps, records⟩ :=
        act_steps next { world with registry := world.registry.insert session entity }
      exact ⟨_, .head (.remember session entity next) steps, .remembered session entity records⟩
  | .recall session entity next, world => by
      obtain ⟨events, steps, records⟩ :=
        act_steps (next (world.registry.findOrInsert session entity).1)
          { world with registry := (world.registry.findOrInsert session entity).2 }
      exact ⟨_, .head (.recall session entity _ next) steps, .recalled session entity records⟩
  | .batch group next, world => by
      simp only [Plan.act]
      split
      · rename_i nobody
        obtain ⟨events, steps, records⟩ := act_steps (next ⟨[], false⟩) world
        exact ⟨_, .head (.skip group next (List.isEmpty_iff.mp nobody)) steps, records⟩
      · rename_i somebody
        have lead := @Stage.Step.lead run _ group next now
          (fun nobody => somebody (List.isEmpty_iff.mpr nobody))
        split
        · obtain ⟨events, steps, records⟩ := act_steps (next ⟨[], true⟩) world
          exact ⟨_, .head lead (.head (.giveUp _ next) steps), .gaveUp records⟩
        · exact ⟨_, .head lead (Crew.start_steps _ next), .nothing world⟩

/-- What a leader does in its turn is made of steps. -/
theorem lead_steps (crew : Crew ChildTask) (next : BatchResult → Plan α) (world : World σ) :
    ∃ events,
      Stage.Steps run (.leading crew next) events (crew.lead run server now next world).stage ∧
        World.Records server world events (crew.lead run server now next world).world := by
  have ready : Stage.Steps run (.leading crew next) []
      (.leading (crew.start run).gather next) := by
    simpa using (Crew.start_steps crew next).trans (Crew.gather_steps (crew.start run) next)
  obtain ⟨lines, told⟩ : ∃ lines, (crew.start run).gatherNotices = List.map Notice.event lines := by
    unfold Crew.gatherNotices
    split
    · exact ⟨_, rfl⟩
    · exact ⟨[], rfl⟩
  simp only [Crew.lead, told]
  split
  · rename_i through
    obtain ⟨events, steps, records⟩ := act_steps run server now
      (next ⟨(crew.start run).gather.failures, false⟩)
      { world with journal := (lines.map Notice.event).reverse ++ world.journal }
    exact ⟨_, ready.trans (.head (Crew.join_step _ next through) steps), .logs lines records⟩
  · split
    · obtain ⟨events, steps, records⟩ := act_steps run server now
        (next ⟨(crew.start run).gather.failures, true⟩)
        { world with journal := (lines.map Notice.event).reverse ++ world.journal }
      exact ⟨_, ready.trans (.head (.giveUp _ next) steps), .logs lines (.gaveUp records)⟩
    · exact ⟨_, ready, .logs lines (.nothing _)⟩

theorem turn_steps (stage : Stage ChildTask α) (world : World σ) : ∃ events,
    Stage.Steps run stage events (stage.turn run server now world).stage ∧
      World.Records server world events (stage.turn run server now world).world := by
  cases stage with
  | active plan => exact act_steps run server now plan world
  | asleep wake plan =>
      simp only [Stage.turn]
      split
      · obtain ⟨events, steps, records⟩ := act_steps run server now plan world
        exact ⟨_, .head (.wake wake plan) steps, records⟩
      · exact ⟨[], .refl _, .nothing world⟩
  | leading crew next => exact lead_steps run server now crew next world
  | finished outcome => exact ⟨[], .refl _, .nothing world⟩

/-- The turn of a task at any place is made of steps. -/
theorem turnAt_steps : ∀ {α : Type} (place : Address) (stage : Stage ChildTask α)
    (world : World σ), ∃ events,
      Stage.Steps run stage events (Stage.turnAt run server now place stage world).stage ∧
        World.Records server world events (Stage.turnAt run server now place stage world).world
  | _, [], stage, world => by
      simpa only [Stage.turnAt] using turn_steps run server now stage world
  | _, index :: rest, .leading crew next, world => by
      simp only [Stage.turnAt]
      cases found : crew.members[index]? with
      | none => exact ⟨[], .refl _, .nothing world⟩
      | some member =>
          obtain ⟨label, ⟨stage⟩⟩ := member
          cases working : stage.isOver with
          | true =>
              simp only [ChildTask.stage, working, if_true]
              exact ⟨[], .refl _, .nothing world⟩
          | false =>
              simp only [ChildTask.stage, working, Bool.false_eq_true, if_false]
              obtain ⟨events, steps, records⟩ := turnAt_steps rest stage world
              exact ⟨events, Crew.member_steps next index label steps crew found working, records⟩
  | _, _ :: _, .active _, world => ⟨[], .refl _, .nothing world⟩
  | _, _ :: _, .asleep _ _, world => ⟨[], .refl _, .nothing world⟩
  | _, _ :: _, .finished _, world => ⟨[], .refl _, .nothing world⟩

end Turns

/-! ## Runs -/

namespace Machine

/-- A step of the machine is a turn of a task, or a later time. -/
theorem step_interleaves (run : Run) (server : Server σ) (machine : Machine σ α) : ∃ events,
    Stage.Steps run machine.stage events (machine.step run server).stage ∧
      World.Records server machine.world events (machine.step run server).world := by
  unfold step
  split
  · rename_i place _
    exact turnAt_steps run server machine.now place machine.stage machine.world
  · split <;> exact ⟨[], .refl _, .nothing _⟩

/-- All that the machine does is made of steps of the tasks. -/
theorem steps_interleave (run : Run) (server : Server σ) :
    ∀ (count : Nat) (machine : Machine σ α), ∃ events,
      Stage.Steps run machine.stage events (machine.steps run server count).stage ∧
        World.Records server machine.world events (machine.steps run server count).world
  | 0, machine => ⟨[], .refl _, .nothing _⟩
  | count + 1, machine => by
      unfold steps
      split
      · exact ⟨[], .refl _, .nothing _⟩
      · obtain ⟨events, steps, records⟩ := machine.step_interleaves run server
        obtain ⟨more, others, kept⟩ := steps_interleave run server count (machine.step run server)
        exact ⟨events ++ more, steps.trans others, records.trans kept⟩

end Machine

/-- What a run of an engine has done to its world, whether or not it has come to an end. -/
theorem Engine.execute_reaches (engine : Engine) (api : Api σ) (bound : Nat)
    (plan : Run → Plan α) (state : σ) : ∃ events stage world,
      Stage.Steps (engine.run api) (.active (plan (engine.run api))) events stage ∧
        World.Records api.server ⟨engine.registry, [], state⟩ events world ∧
        engine.execute api bound plan state
          = ⟨stage.outcome?, world.journal.reverse, world.server,
            engine.withRegistry world.registry⟩ := by
  obtain ⟨events, steps, records⟩ := Machine.steps_interleave (engine.run api) api.server bound
    (Machine.start (plan (engine.run api)) ⟨engine.registry, [], state⟩)
  exact ⟨events, _, _, steps, records, rfl⟩

/-- What a run of an engine that comes to an end has done to its world. -/
theorem Engine.execute_accounted (engine : Engine) (api : Api σ) (bound : Nat)
    (plan : Run → Plan α) (state : σ) (outcome : Outcome α)
    (ended : (engine.execute api bound plan state).outcome = some outcome) : ∃ events world,
      Stage.Steps (engine.run api) (.active (plan (engine.run api))) events (.finished outcome) ∧
        World.Records api.server ⟨engine.registry, [], state⟩ events world ∧
        engine.execute api bound plan state
          = ⟨some outcome, world.journal.reverse, world.server,
            engine.withRegistry world.registry⟩ := by
  obtain ⟨events, stage, world, steps, records, executed⟩ :=
    engine.execute_reaches api bound plan state
  rw [executed] at ended
  have last : stage.outcome? = some outcome := ended
  cases stage with
  | finished other =>
      obtain rfl : other = outcome := Option.some.inj last
      exact ⟨events, world, steps, records, executed⟩
  | _ => nomatch last

/-- A run of an engine that comes to an end is an interleaving of the steps of its tasks. -/
theorem Engine.execute_interleaves (engine : Engine) (api : Api σ) (bound : Nat)
    (plan : Run → Plan α) (state : σ) (outcome : Outcome α)
    (ended : (engine.execute api bound plan state).outcome = some outcome) : ∃ events world,
      Stage.Steps (engine.run api) (.active (plan (engine.run api))) events (.finished outcome) ∧
        World.Records api.server ⟨engine.registry, [], state⟩ events world ∧
        (engine.execute api bound plan state).server = world.server ∧
        (engine.execute api bound plan state).notices = world.journal.reverse := by
  obtain ⟨events, world, steps, records, executed⟩ :=
    engine.execute_accounted api bound plan state outcome ended
  exact ⟨events, world, steps, records, by rw [executed], by rw [executed]⟩

end DesiredState
