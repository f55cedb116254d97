import DesiredState.Schedule.Stage

/-!
# Turns of tasks

In its turn a task acts until it has to wait: for an answer that takes time, or for its
crew. A request is served when it is sent; only the answer may be late. A task that leads a
crew starts members as permits become free, gathers those that have ended once all are
started, and goes on when the crew is through or its time is up. A crew that is given up is
dropped with all its tasks.
-/

set_option autoImplicit false

namespace DesiredState

/-- What the tasks of a run share. -/
structure World (σ : Type) where
  registry : Registry
  /-- What has been told, the latest first. -/
  journal : List Notice
  server : σ

/-- What a turn leads to. -/
structure Turn (σ α : Type) where
  stage : Stage ChildTask α
  world : World σ
  /-- The places that can go on because of this turn. -/
  ready : List Address

/-- A task acts until it has to wait. -/
def Plan.act {σ α : Type} (run : Run) (server : Server σ) (now : Nat) :
    Plan α → World σ → Turn σ α
  | .done outcome, world => ⟨.finished outcome, world, []⟩
  | .call request next, world =>
      let (reply, state) := server now request world.server
      let after := { world with server := state }
      if reply.delay = 0 then (next reply.exchange).act run server now after
      else ⟨.asleep (now + reply.delay) (next reply.exchange), after, []⟩
  | .note notice next, world =>
      next.act run server now { world with journal := notice :: world.journal }
  | .remember session entity next, world =>
      next.act run server now { world with registry := world.registry.insert session entity }
  | .recall session entity next, world =>
      let (known, registry) := world.registry.findOrInsert session entity
      (next known).act run server now { world with registry }
  | .batch group next, world =>
      if group.children.isEmpty then (next ⟨[], false⟩).act run server now world
      else
        let crew := (Crew.assemble run now group).start run
        if crew.deadline ≤ now then (next ⟨[], true⟩).act run server now world
        else ⟨.leading crew next, world, (List.range crew.members.length).map ([·])⟩

/-- A task that leads a crew looks after it. -/
def Crew.lead {σ α : Type} (run : Run) (server : Server σ) (now : Nat) (crew : Crew ChildTask)
    (next : BatchResult → Plan α) (world : World σ) : Turn σ α :=
  let started := crew.start run
  let gathered := started.gather
  let after := { world with journal := started.gatherNotices.reverse ++ world.journal }
  if gathered.isThrough then (next ⟨gathered.failures, false⟩).act run server now after
  else if gathered.deadline ≤ now then (next ⟨gathered.failures, true⟩).act run server now after
  else
    ⟨.leading gathered next, after,
      (List.range' crew.members.length (started.members.length - crew.members.length)).map ([·])⟩

/-- The turn of the task at the root of a tree. -/
def Stage.turn {σ α : Type} (run : Run) (server : Server σ) (now : Nat)
    (stage : Stage ChildTask α) (world : World σ) : Turn σ α :=
  match stage with
  | .active plan => plan.act run server now world
  | .asleep wake plan =>
      if wake ≤ now then plan.act run server now world else ⟨stage, world, []⟩
  | .leading crew next => crew.lead run server now next world
  | .finished _ => ⟨stage, world, []⟩

/-- An outcome without its value. -/
def Outcome.forget {α : Type} : Outcome α → Outcome Unit
  | .value _ => .value ()
  | .failed failure => .failed failure
  | .broken cause => .broken cause

/-- The crew with one of its members at another stage. -/
def Crew.advance (crew : Crew ChildTask) (index : Nat) (label : String)
    (stage : Stage ChildTask (Option Entity)) : Crew ChildTask :=
  { crew with
    members := crew.members.set index ⟨label, .mk stage⟩
    ended := crew.ended ++ (stage.outcome?.map fun outcome => (label, outcome.forget)).toList }

/-- The crew after a turn of one of its members, and the places that can go on. -/
def Crew.afterTurn {σ : Type} (crew : Crew ChildTask) (index : Nat) (member : Member ChildTask)
    (turn : Turn σ (Option Entity)) : Crew ChildTask × List Address :=
  let below := turn.ready.map (index :: ·)
  (crew.advance index member.label turn.stage,
    if turn.stage.isOver then [] :: below else below)

/-- The turn of the task at a place of a tree; a place that is not there, or has ended, does
nothing. -/
def Stage.turnAt {σ : Type} (run : Run) (server : Server σ) (now : Nat) :
    {α : Type} → Address → Stage ChildTask α → World σ → Turn σ α
  | _, [], stage, world => stage.turn run server now world
  | _, index :: rest, .leading crew next, world =>
      match crew.members[index]? with
      | none => ⟨.leading crew next, world, []⟩
      | some member =>
          if member.task.stage.isOver then ⟨.leading crew next, world, []⟩
          else
            let turn := Stage.turnAt run server now rest member.task.stage world
            let (moved, ready) := crew.afterTurn index member turn
            ⟨.leading moved next, turn.world, ready⟩
  | _, _ :: _, stage, world => ⟨stage, world, []⟩

end DesiredState
