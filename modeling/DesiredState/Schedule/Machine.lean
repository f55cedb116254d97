import DesiredState.Schedule.Turn

/-!
# The order of turns

Time stands still while any task can go on. Tasks take their turns in the order in which
they became able to, the root of the tree after all others. When none is left, the clock is
set to the next time at which an answer arrives or a batch is given up.

Every turn is caused by the start of a task, by an answer, by the end of a member or by a
deadline, and of these there are at most so many as a multiple of the number of entities. The
clock is set only to a time at which an answer arrives or a batch is given up, and then as many
turns may follow as there are tasks, although some of them come too late for a batch that was
given up. So the number of steps is bounded by a square (`stepBound`), and with so many steps every
run comes to its end (`Engine.models_ends`).
-/

set_option autoImplicit false

namespace DesiredState

/-- A run under way. -/
structure Machine (σ α : Type) where
  now : Nat
  /-- The places whose turn it is, in order. -/
  queue : List Address
  stage : Stage ChildTask α
  world : World σ

namespace Machine

variable {σ α : Type}

/-- A run at its start. -/
def start (plan : Plan α) (world : World σ) : Machine σ α :=
  ⟨0, [[]], .active plan, world⟩

/-- The place whose turn it is. -/
def next? (machine : Machine σ α) : Option Address :=
  (machine.queue.find? fun place => !place.isEmpty).or machine.queue.head?

/-- The queue with places that have become able to go on. -/
def enqueue (queue ready : List Address) : List Address :=
  queue ++ ready.filter fun place => !queue.contains place

/-- The next turn, or the next time. -/
def step (run : Run) (server : Server σ) (machine : Machine σ α) : Machine σ α :=
  match machine.next? with
  | some place =>
      let turn := Stage.turnAt run server machine.now place machine.stage machine.world
      { machine with
        queue := enqueue (machine.queue.erase place) turn.ready
        stage := turn.stage
        world := turn.world }
  | none =>
      match machine.stage.nextTime with
      | none => machine
      | some time =>
          let now := max machine.now time
          { machine with now, queue := machine.stage.due now }

/-- At most so many steps, until the run has ended. -/
def steps (run : Run) (server : Server σ) : Nat → Machine σ α → Machine σ α
  | 0, machine => machine
  | count + 1, machine =>
      if machine.stage.isOver then machine else steps run server count (machine.step run server)

/-- How the run has ended, if it has. -/
def outcome? (machine : Machine σ α) : Option (Outcome α) := machine.stage.outcome?

end Machine

/-- Enough steps for so many documents and, in all of them, so many entities. An entity takes
three requests at most, and for its place in a batch three turns of other tasks; a document takes
one request for its blueprint. -/
def stepBound (entities documents : Nat) : Nat :=
  let causes := 6 * entities + documents
  (causes + 1) * (causes + 1)

/-- The end of a plan, and the world that it leaves. -/
def perform {σ α : Type} (run : Run) (server : Server σ) (bound : Nat) (plan : Plan α)
    (world : World σ) : Option (Outcome α) × World σ :=
  let machine := (Machine.start plan world).steps run server bound
  (machine.outcome?, machine.world)

end DesiredState
