import DesiredState.Run.Children

/-!
# Tasks under way

A task under way is at a stage: it can act, it waits for an answer that is due at a known
time, or it leads a crew, which is the batch of children it has started. A crew hands out a
limited number of permits: a child holds one from its start to its end, children are started
in list order, and their failures are gathered only after the last of them has been started.
The tasks of a run thus form a tree, in which a crew holds the tasks of its members.
-/

set_option autoImplicit false

namespace DesiredState

/-- A child of a batch that has been started. -/
structure Member (Task : Type) where
  label : String
  task : Task

/-- A batch under way. -/
structure Crew (Task : Type) where
  batch : Batch
  /-- The time at which the batch is given up. -/
  deadline : Nat
  /-- The most members that may be at work at once. -/
  permits : Nat
  permitted : 0 < permits
  /-- The children that have not been started. -/
  waiting : List Entity
  /-- The children that have been started, in the order of the batch. -/
  members : List (Member Task)
  /-- The members that have ended and are not gathered yet, in the order in which they ended. -/
  ended : List (String × Outcome Unit)
  /-- The failures that have been gathered. -/
  failures : List ChildFailure

/-- How far a task has come. -/
inductive Stage (Task α : Type)
  /-- The task can act. -/
  | active (plan : Plan α)
  /-- The task goes on at a known time. -/
  | asleep (wake : Nat) (plan : Plan α)
  /-- The task goes on when its crew is through. -/
  | leading (crew : Crew Task) (next : BatchResult → Plan α)
  /-- The task has ended. -/
  | finished (outcome : Outcome α)

/-- How a task has ended, if it has. -/
def Stage.outcome? {Task α : Type} : Stage Task α → Option (Outcome α)
  | .finished outcome => some outcome
  | _ => none

/-- Whether a task has ended. -/
def Stage.isOver {Task α : Type} (stage : Stage Task α) : Bool := stage.outcome?.isSome

/-- The task of a child, with the tasks of its own children. -/
inductive ChildTask
  | mk (stage : Stage ChildTask (Option Entity))

/-- The stage of a child's task. -/
def ChildTask.stage : ChildTask → Stage ChildTask (Option Entity)
  | .mk stage => stage

/-- The place of a task in the tree: at each level the number of a member of the crew. -/
abbrev Address := List Nat

/-! ## Crews -/

namespace Crew

/-- The crew of a batch of which nothing has been started. -/
def assemble (run : Run) (now : Nat) (batch : Batch) : Crew ChildTask where
  batch
  deadline := now + run.settings.batchTimeout
  permits := run.settings.permits batch.children.length
  permitted := run.settings.permits_pos batch.children.length
  waiting := batch.children
  members := []
  ended := []
  failures := []

/-- The members that are at work. -/
def working (crew : Crew ChildTask) : Nat :=
  crew.members.countP fun member => !member.task.stage.isOver

/-- The member that a child becomes when it is started. -/
def enlist (run : Run) (batch : Batch) (child : Entity) : Member ChildTask :=
  ⟨child.label, .mk (.active (run.childTask batch child))⟩

/-- The crew with as many of the waiting children started as there are permits left. -/
def start (run : Run) (crew : Crew ChildTask) : Crew ChildTask :=
  let free := crew.permits - crew.working
  { crew with
    waiting := crew.waiting.drop free
    members := crew.members ++ (crew.waiting.take free).map (enlist run crew.batch) }

/-- The failure of a member, if it did not end with a value. -/
def failureOf (member : String × Outcome Unit) : Option ChildFailure :=
  match member.2 with
  | .value _ => none
  | .failed failure => some ⟨member.1, failure.message⟩
  | .broken cause => some (.ofBreak cause)

/-- The event that is logged of a member that did not end with a value. -/
def eventOf (type : String) (member : String × Outcome Unit) : Option LogEvent :=
  match member.2 with
  | .value _ => none
  | .failed failure => some (.childFailed type member.1 failure.message)
  | .broken cause => some (.childBroken type cause)

/-- The crew with the ended members gathered, once all children have been started. -/
def gather (crew : Crew ChildTask) : Crew ChildTask :=
  if crew.waiting.isEmpty then
    { crew with
      ended := []
      failures := crew.failures ++ crew.ended.filterMap failureOf }
  else crew

/-- What is told when the ended members are gathered. -/
def gatherNotices (crew : Crew ChildTask) : List Notice :=
  if crew.waiting.isEmpty then
    (crew.ended.filterMap (eventOf crew.batch.type)).map Notice.event
  else []

/-- Whether all children have been started and have ended. -/
def isThrough (crew : Crew ChildTask) : Bool :=
  crew.waiting.isEmpty && crew.working == 0

end Crew

/-! ## Times -/

/-- The earlier of two times, if any. -/
def earlier : Option Nat → Option Nat → Option Nat
  | some left, some right => some (min left right)
  | some left, none => some left
  | none, right => right

mutual

/-- The next time at which something happens by itself in a child's task. -/
def ChildTask.nextTime : ChildTask → Option Nat
  | .mk (.active _) => none
  | .mk (.finished _) => none
  | .mk (.asleep wake _) => some wake
  | .mk (.leading ⟨_, deadline, _, _, _, members, _, _⟩ _) =>
      earlier (some deadline) (membersNextTime members)

/-- The next time at which something happens by itself in one of the tasks of members. -/
def membersNextTime : List (Member ChildTask) → Option Nat
  | [] => none
  | ⟨_, task⟩ :: rest => earlier task.nextTime (membersNextTime rest)

end

/-- The next time at which something happens by itself in a task. -/
def Stage.nextTime {α : Type} : Stage ChildTask α → Option Nat
  | .active _ => none
  | .finished _ => none
  | .asleep wake _ => some wake
  | .leading crew _ => earlier (some crew.deadline) (membersNextTime crew.members)

mutual

/-- The places in a child's task that something happens at by itself up to a time. -/
def ChildTask.due (now : Nat) : ChildTask → List Address
  | .mk (.active _) => []
  | .mk (.finished _) => []
  | .mk (.asleep wake _) => if wake ≤ now then [[]] else []
  | .mk (.leading ⟨_, deadline, _, _, _, members, _, _⟩ _) =>
      (if deadline ≤ now then [[]] else []) ++ membersDue now 0 members

/-- The places in the tasks of members, the first of which has the given number. -/
def membersDue (now : Nat) : Nat → List (Member ChildTask) → List Address
  | _, [] => []
  | index, ⟨_, task⟩ :: rest =>
      (task.due now).map (index :: ·) ++ membersDue now (index + 1) rest

end

/-- The places in a task that something happens at by itself up to a time. -/
def Stage.due {α : Type} (now : Nat) : Stage ChildTask α → List Address
  | .active _ => []
  | .finished _ => []
  | .asleep wake _ => if wake ≤ now then [[]] else []
  | .leading crew _ =>
      (if crew.deadline ≤ now then [[]] else []) ++ membersDue now 0 crew.members

end DesiredState
