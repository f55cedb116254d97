import DesiredState.Schedule.Machine

/-!
# Interleavings

A run leaves open in which order its tasks act. Here a task takes one step at a time, and any
task that can take a step may be the next: a request is sent, its answer arrives, something
is told, a state is remembered or recalled, a child is started, an ended member is gathered,
a crew that is through is left, a batch is given up. Nothing is said on times, so an answer
may arrive and a batch may be given up at any moment. The turns that the machine of a run
takes are made of such steps, and every other order is one of them too.

**Events.** A step shows at most one event. What became of a request is part of the event,
and any answer may stand there; whether a server gives these answers is judged afterwards,
on the list of calls.
-/

set_option autoImplicit false

namespace DesiredState

/-! ## Events -/

/-- A request and what became of it. -/
structure Call where
  request : Request
  exchange : Exchange

/-- What a task does that others can see. -/
inductive Event
  | called (call : Call)
  /-- Something was told. Log events are nobody's concern and left out. -/
  | told (notice : Notice)
  | remembered (session : SessionId) (entity : Entity)
  | recalled (session : SessionId) (entity known : Entity)
  /-- A batch took too long and was given up. -/
  | gaveUp

namespace Event

/-- The event of telling something. -/
def ofNotice? : Notice → Option Event
  | .event _ => none
  | .moment moment => some (.told (.moment moment))
  | .report report => some (.told (.report report))
  | .begun visit => some (.told (.begun visit))

/-- The call of an event. -/
@[simp] def call? : Event → Option Call
  | .called call => some call
  | _ => none

/-- The visit that an event begins. -/
@[simp] def visit? : Event → Option Visit
  | .told (.begun visit) => some visit
  | _ => none

/-- The report that an event makes. -/
@[simp] def report? : Event → Option Report
  | .told (.report report) => some report
  | _ => none

end Event

/-- The calls among events. -/
def calls (events : List Event) : List Call := events.filterMap Event.call?

/-- The visits that events begin. -/
def visits (events : List Event) : List Visit := events.filterMap Event.visit?

/-- The reports among events. -/
def reports (events : List Event) : List Report := events.filterMap Event.report?

@[simp] theorem calls_nil : calls [] = [] := rfl

@[simp] theorem calls_cons (event : Event) (events : List Event) :
    calls (event :: events) = event.call?.toList ++ calls events := by
  cases event <;> rfl

@[simp] theorem calls_append (first second : List Event) :
    calls (first ++ second) = calls first ++ calls second := List.filterMap_append

@[simp] theorem visits_nil : visits [] = [] := rfl

@[simp] theorem visits_cons (event : Event) (events : List Event) :
    visits (event :: events) = event.visit?.toList ++ visits events := by
  cases event with
  | told notice => cases notice <;> rfl
  | _ => rfl

@[simp] theorem visits_append (first second : List Event) :
    visits (first ++ second) = visits first ++ visits second := List.filterMap_append

@[simp] theorem reports_nil : reports [] = [] := rfl

@[simp] theorem reports_cons (event : Event) (events : List Event) :
    reports (event :: events) = event.report?.toList ++ reports events := by
  cases event with
  | told notice => cases notice <;> rfl
  | _ => rfl

@[simp] theorem reports_append (first second : List Event) :
    reports (first ++ second) = reports first ++ reports second := List.filterMap_append

/-! ## Steps -/

namespace Stage

/-- One step of one task of a tree. -/
inductive Step (run : Run) : {α : Type} →
    Stage ChildTask α → Option Event → Stage ChildTask α → Prop
  | finish {α : Type} (outcome : Outcome α) :
      Step run (.active (.done outcome)) none (.finished outcome)
  | call {α : Type} (request : Request) (exchange : Exchange) (next : Exchange → Plan α) :
      Step run (.active (.call request next)) (some (.called ⟨request, exchange⟩))
        (.active (next exchange))
  /-- The request is served at once, its answer arrives later. -/
  | send {α : Type} (request : Request) (exchange : Exchange) (next : Exchange → Plan α)
      (wake : Nat) :
      Step run (.active (.call request next)) (some (.called ⟨request, exchange⟩))
        (.asleep wake (next exchange))
  | wake {α : Type} (time : Nat) (plan : Plan α) : Step run (.asleep time plan) none (.active plan)
  | tell {α : Type} (notice : Notice) (next : Plan α) :
      Step run (.active (.note notice next)) (Event.ofNotice? notice) (.active next)
  | remember {α : Type} (session : SessionId) (entity : Entity) (next : Plan α) :
      Step run (.active (.remember session entity next)) (some (.remembered session entity))
        (.active next)
  | recall {α : Type} (session : SessionId) (entity known : Entity) (next : Entity → Plan α) :
      Step run (.active (.recall session entity next)) (some (.recalled session entity known))
        (.active (next known))
  /-- A batch without children is passed over. -/
  | skip {α : Type} (group : Batch) (next : BatchResult → Plan α) (nobody : group.children = []) :
      Step run (.active (.batch group next)) none (.active (next ⟨[], false⟩))
  | lead {α : Type} (group : Batch) (next : BatchResult → Plan α) (now : Nat)
      (somebody : group.children ≠ []) :
      Step run (.active (.batch group next)) none (.leading (Crew.assemble run now group) next)
  /-- The next child is started while there is a permit left. -/
  | enlist {α : Type} (crew : Crew ChildTask) (next : BatchResult → Plan α) (child : Entity)
      (rest : List Entity) (waiting : crew.waiting = child :: rest)
      (free : crew.working < crew.permits) :
      Step run (.leading crew next) none
        (.leading { crew with
          waiting := rest
          members := crew.members ++ [Crew.enlist run crew.batch child] } next)
  | gather {α : Type} (crew : Crew ChildTask) (next : BatchResult → Plan α)
      (started : crew.waiting = []) (ended : crew.ended ≠ []) :
      Step run (.leading crew next) none (.leading crew.gather next)
  | join {α : Type} (crew : Crew ChildTask) (next : BatchResult → Plan α)
      (started : crew.waiting = []) (through : crew.working = 0) (gathered : crew.ended = []) :
      Step run (.leading crew next) none (.active (next ⟨crew.failures, false⟩))
  | giveUp {α : Type} (crew : Crew ChildTask) (next : BatchResult → Plan α) :
      Step run (.leading crew next) (some .gaveUp) (.active (next ⟨crew.failures, true⟩))
  | member {α : Type} (crew : Crew ChildTask) (next : BatchResult → Plan α) (index : Nat)
      (label : String) (stage later : Stage ChildTask (Option Entity)) (event : Option Event)
      (found : crew.members[index]? = some ⟨label, .mk stage⟩) (step : Step run stage event later) :
      Step run (.leading crew next) event (.leading (crew.advance index label later) next)

/-- Steps of the tasks of a tree one after another, with the events they show. -/
inductive Steps (run : Run) {α : Type} :
    Stage ChildTask α → List Event → Stage ChildTask α → Prop
  | refl (stage : Stage ChildTask α) : Steps run stage [] stage
  | head {first second last : Stage ChildTask α} {event : Option Event} {events : List Event} :
      Step run first event second → Steps run second events last →
        Steps run first (event.toList ++ events) last

namespace Steps

variable {run : Run} {α : Type}

theorem single {first second : Stage ChildTask α} {event : Option Event}
    (step : Step run first event second) : Steps run first event.toList second := by
  simpa using Steps.head step (.refl second)

theorem trans {first second third : Stage ChildTask α} {events more : List Event}
    (earlier : Steps run first events second) (later : Steps run second more third) :
    Steps run first (events ++ more) third := by
  induction earlier with
  | refl => exact later
  | head step _ ih =>
      rw [List.append_assoc]
      exact .head step (ih later)

end Steps

/-- A task that has ended takes no step. -/
theorem Step.not_over {run : Run} {α : Type} {stage later : Stage ChildTask α}
    {event : Option Event} (step : Step run stage event later) : stage.isOver = false := by
  cases step <;> rfl

end Stage

end DesiredState
