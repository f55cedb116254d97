import DesiredState.Api.Exchange
import DesiredState.Failure
import DesiredState.Journal
import DesiredState.Lineage
import DesiredState.Registry

/-!
# Plans

A plan is what is left to do of a task, as a tree: each node is one interaction with the
world, and its branches are the plans for each answer. The handling of an entity is a plan,
and so is a whole run. A plan says nothing on when its interactions happen; that is the
matter of a schedule.

A plan ends with a value, with a failure, or because an observer broke it off.
-/

set_option autoImplicit false

namespace DesiredState

/-- How a task ends. -/
inductive Outcome (α : Type)
  | value (value : α)
  | failed (failure : Failure)
  /-- The task was broken off, for the given cause. -/
  | broken (cause : String)

/-- Children of one type that are handled together. -/
structure Batch where
  type : String
  blueprint : Blueprint
  children : List Entity
  /-- The ancestors of each of the children. -/
  lineage : Lineage

/-- How a batch ends. -/
structure BatchResult where
  failures : List ChildFailure
  timedOut : Bool
  deriving DecidableEq, Repr

/-- Whether all children were handled. -/
def BatchResult.isSuccess (result : BatchResult) : Bool :=
  !result.timedOut && result.failures.isEmpty

/-- What is left to do of a task. -/
inductive Plan (α : Type)
  | done (outcome : Outcome α)
  /-- A request is sent and its answer awaited. -/
  | call (request : Request) (next : Exchange → Plan α)
  /-- Something is told. -/
  | note (notice : Notice) (next : Plan α)
  /-- A state is put into the registry. -/
  | remember (session : SessionId) (entity : Entity) (next : Plan α)
  /-- The state known under the key of an entity is used, and the entity if there is none. -/
  | recall (session : SessionId) (entity : Entity) (next : Entity → Plan α)
  /-- Children are handled, each by a task of its own. -/
  | batch (group : Batch) (next : BatchResult → Plan α)

namespace Plan

variable {α β γ : Type}

/-! ## Going on

A plan is followed by another one at the end of each of its branches that has a value. The
laws of a monad hold, so it does not matter how a sequence of plans is put together.
-/

/-- The plan that goes on with the value of another one. -/
def bind : Plan α → (α → Plan β) → Plan β
  | .done (.value value), continuation => continuation value
  | .done (.failed failure), _ => .done (.failed failure)
  | .done (.broken cause), _ => .done (.broken cause)
  | .call request next, continuation => .call request fun exchange =>
      (next exchange).bind continuation
  | .note notice next, continuation => .note notice (next.bind continuation)
  | .remember session entity next, continuation =>
      .remember session entity (next.bind continuation)
  | .recall session entity next, continuation => .recall session entity fun known =>
      (next known).bind continuation
  | .batch group next, continuation => .batch group fun result =>
      (next result).bind continuation

instance : Monad Plan where
  pure value := .done (.value value)
  bind := bind

@[simp] theorem pure_bind (value : α) (continuation : α → Plan β) :
    bind (.done (.value value)) continuation = continuation value := rfl

/-- Going on with nothing changes nothing. -/
theorem bind_done_value : ∀ plan : Plan α, plan.bind (fun value => .done (.value value)) = plan
  | .done (.value _) => rfl
  | .done (.failed _) => rfl
  | .done (.broken _) => rfl
  | .call request next => congrArg (Plan.call request)
      (funext fun exchange => bind_done_value (next exchange))
  | .note notice next => congrArg (Plan.note notice) (bind_done_value next)
  | .remember session entity next =>
      congrArg (Plan.remember session entity) (bind_done_value next)
  | .recall session entity next => congrArg (Plan.recall session entity)
      (funext fun known => bind_done_value (next known))
  | .batch group next => congrArg (Plan.batch group)
      (funext fun result => bind_done_value (next result))

/-- What is gone on with may be joined first. -/
theorem bind_bind (first : α → Plan β) (second : β → Plan γ) :
    ∀ plan : Plan α,
      (plan.bind first).bind second = plan.bind fun value => (first value).bind second
  | .done (.value _) => rfl
  | .done (.failed _) => rfl
  | .done (.broken _) => rfl
  | .call request next => congrArg (Plan.call request)
      (funext fun exchange => bind_bind first second (next exchange))
  | .note notice next => congrArg (Plan.note notice) (bind_bind first second next)
  | .remember session entity next =>
      congrArg (Plan.remember session entity) (bind_bind first second next)
  | .recall session entity next => congrArg (Plan.recall session entity)
      (funext fun known => bind_bind first second (next known))
  | .batch group next => congrArg (Plan.batch group)
      (funext fun result => bind_bind first second (next result))

instance : LawfulMonad Plan := LawfulMonad.mk' Plan bind_done_value (fun _ _ => rfl)
  fun plan first second => bind_bind first second plan

/-! ## Single interactions -/

/-- The plan that ends with a failure. -/
def fail (failure : Failure) : Plan α := .done (.failed failure)

/-- The plan with the outcome of a computation without interactions. -/
def ofExcept : Except Failure α → Plan α
  | .ok value => .done (.value value)
  | .error failure => fail failure

/-- The plan that tells one thing. -/
def tell (notice : Notice) : Plan Unit := .note notice (.done (.value ()))

/-- The plan that logs an event. -/
def log (event : LogEvent) : Plan Unit := tell (.event event)

/-- The plan that sends a request. -/
def send (request : Request) : Plan Exchange :=
  .call request fun exchange => .done (.value exchange)

/-! ## Sequences -/

/-- The plan that does one thing for each item of a list, in order. -/
def forEach {ι : Type} (action : ι → Plan Unit) : List ι → Plan Unit
  | [] => .done (.value ())
  | item :: rest => (action item).bind fun _ => forEach action rest

end Plan

end DesiredState
