import DesiredState.Proofs.Schedule.Interleaving
import Mathlib.Data.List.Perm.Basic

/-!
# Courses

The course of a task is all that it and the tasks of its batches do, without an order between
the members of a batch: after some events a task forks into the courses of its members, and
goes on when they are through. An interleaving of the steps puts the events of a course in one
of the orders that it leaves open (`Course.Orders`). One of them handles each member completely
before the next one (`inTurn`), and every other one is a rearrangement of it
(`Orders.perm_inTurn`).

A course may stop anywhere, so that it also tells of a run that is still under way.
-/

set_option autoImplicit false

namespace DesiredState

/-! ## Merging -/

/-- The third list holds the items of the first two, each of them in its order. -/
inductive Merges {β : Type} : List β → List β → List β → Prop
  | nil : Merges [] [] []
  | left {first second merged : List β} (item : β) :
      Merges first second merged → Merges (item :: first) second (item :: merged)
  | right {first second merged : List β} (item : β) :
      Merges first second merged → Merges first (item :: second) (item :: merged)

namespace Merges

variable {β γ : Type} {first second merged : List β}

theorem left_append (items : List β) (merges : Merges first second merged) :
    Merges (items ++ first) second (items ++ merged) := by
  induction items with
  | nil => exact merges
  | cons item rest ih => exact .left item ih

theorem right_append (items : List β) (merges : Merges first second merged) :
    Merges first (items ++ second) (items ++ merged) := by
  induction items with
  | nil => exact merges
  | cons item rest ih => exact .right item ih

theorem nil_left (items : List β) : Merges [] items items := by
  simpa using right_append items Merges.nil

theorem append (first second : List β) : Merges first second (first ++ second) := by
  simpa using left_append first (nil_left second)

theorem eq_of_nil_left (merges : Merges [] second merged) : merged = second := by
  generalize empty : ([] : List β) = first at merges
  induction merges with
  | nil => rfl
  | left item _ _ => nomatch empty
  | right item _ ih => rw [ih empty]

theorem eq_of_nil_right (merges : Merges first [] merged) : merged = first := by
  generalize empty : ([] : List β) = second at merges
  induction merges with
  | nil => rfl
  | left item _ ih => rw [ih empty]
  | right item _ _ => nomatch empty

theorem perm (merges : Merges first second merged) : merged.Perm (first ++ second) := by
  induction merges with
  | nil => exact .nil
  | left item _ ih => exact ih.cons item
  | right item _ ih => exact (ih.cons item).trans List.perm_middle.symm

/-- What is picked from a merge is a merge of what is picked from its parts. -/
theorem filterMap (pick : β → Option γ) (merges : Merges first second merged) :
    Merges (first.filterMap pick) (second.filterMap pick) (merged.filterMap pick) := by
  induction merges with
  | nil => exact .nil
  | left item _ ih =>
      cases picked : pick item with
      | none => simpa only [List.filterMap_cons, picked] using ih
      | some value => simpa only [List.filterMap_cons, picked] using ih.left value
  | right item _ ih =>
      cases picked : pick item with
      | none => simpa only [List.filterMap_cons, picked] using ih
      | some value => simpa only [List.filterMap_cons, picked] using ih.right value

end Merges

/-! ## Courses -/

/-- All that a task and the tasks of its batches do. -/
inductive Course
  /-- Nothing more is done. -/
  | idle
  | act (event : Event) (rest : Course)
  /-- The members of a batch act side by side, and then the task goes on. -/
  | fork (members : List Course) (rest : Course)

namespace Course

/-- The course with what a step shows in front of it. -/
def after (event : Option Event) (course : Course) : Course :=
  match event with
  | none => course
  | some event => .act event course

/-- The course that shows events one after another. -/
def ofEvents (events : List Event) (rest : Course) : Course := events.foldr .act rest

mutual

/-- The events in the order in which each member is handled completely before the next. -/
def inTurn : Course → List Event
  | .idle => []
  | .act event rest => event :: rest.inTurn
  | .fork members rest => allInTurn members ++ rest.inTurn

/-- The events of one course after another. -/
def allInTurn : List Course → List Event
  | [] => []
  | course :: courses => course.inTurn ++ allInTurn courses

end

mutual

/-- The events are those of the course, in an order that it leaves open. -/
def Orders : Course → List Event → Prop
  | .idle, events => events = []
  | .act event rest, events => ∃ others, events = event :: others ∧ rest.Orders others
  | .fork members rest, events =>
      ∃ theirs others, events = theirs ++ others ∧ MembersOrder members theirs ∧ rest.Orders others

/-- The events are those of courses side by side. -/
def MembersOrder : List Course → List Event → Prop
  | [], events => events = []
  | course :: courses, events =>
      ∃ own others, course.Orders own ∧ MembersOrder courses others ∧ Merges own others events

end

@[simp] theorem inTurn_idle : inTurn .idle = [] := rfl

@[simp] theorem inTurn_act (event : Event) (rest : Course) :
    (act event rest).inTurn = event :: rest.inTurn := rfl

@[simp] theorem inTurn_ofEvents (events : List Event) (rest : Course) :
    (ofEvents events rest).inTurn = events ++ rest.inTurn := by
  induction events with
  | nil => rfl
  | cons event events ih => simpa [ofEvents, inTurn] using ih

/-- Events one after another are known from their course. -/
theorem ofEvents_idle_inj {first second : List Event}
    (same : ofEvents first .idle = .ofEvents second .idle) : first = second := by
  have inTurn := congrArg inTurn same
  simpa using inTurn

@[simp] theorem inTurn_after (event : Option Event) (course : Course) :
    (course.after event).inTurn = event.toList ++ course.inTurn := by
  cases event <;> rfl

theorem allInTurn_eq_flatMap : ∀ courses : List Course, allInTurn courses = courses.flatMap inTurn
  | [] => rfl
  | course :: courses => by rw [allInTurn, allInTurn_eq_flatMap courses, List.flatMap_cons]

/-- What one of the courses does is among what they all do. -/
theorem mem_allInTurn {courses : List Course} {course : Course} (member : course ∈ courses)
    {event : Event} (inCourse : event ∈ course.inTurn) : event ∈ allInTurn courses := by
  rw [allInTurn_eq_flatMap]
  exact List.mem_flatMap.mpr ⟨course, member, inCourse⟩

theorem orders_after (event : Option Event) {course : Course} {events : List Event}
    (orders : course.Orders events) : (course.after event).Orders (event.toList ++ events) := by
  cases event with
  | none => exact orders
  | some event => exact ⟨events, rfl, orders⟩

mutual

/-- Every order is a rearrangement of the one that takes the members in turn. -/
theorem Orders.perm_inTurn : ∀ {course : Course} {events : List Event},
    course.Orders events → events.Perm course.inTurn
  | .idle, _, orders => by
      rw [orders, inTurn]
  | .act event rest, _, orders => by
      obtain ⟨others, rfl, orders⟩ := orders
      exact (Orders.perm_inTurn orders).cons event
  | .fork members rest, _, orders => by
      obtain ⟨theirs, others, rfl, together, orders⟩ := orders
      exact (MembersOrder.perm_allInTurn together).append (Orders.perm_inTurn orders)

theorem MembersOrder.perm_allInTurn : ∀ {courses : List Course} {events : List Event},
    MembersOrder courses events → events.Perm (allInTurn courses)
  | [], _, orders => by
      rw [orders, allInTurn]
  | course :: courses, _, orders => by
      obtain ⟨own, others, first, rest, merges⟩ := orders
      exact merges.perm.trans
        ((Orders.perm_inTurn first).append (MembersOrder.perm_allInTurn rest))

end

mutual

/-- The members may be taken in turn. -/
theorem orders_inTurn : ∀ course : Course, course.Orders course.inTurn
  | .idle => rfl
  | .act _ rest => ⟨rest.inTurn, rfl, orders_inTurn rest⟩
  | .fork members rest =>
      ⟨allInTurn members, rest.inTurn, rfl, membersOrder_allInTurn members, orders_inTurn rest⟩

theorem membersOrder_allInTurn : ∀ courses : List Course, MembersOrder courses (allInTurn courses)
  | [] => rfl
  | course :: courses => ⟨course.inTurn, allInTurn courses, orders_inTurn course,
      membersOrder_allInTurn courses, .append _ _⟩

end

/-- Courses that do nothing leave one order open. -/
theorem membersOrder_idle {courses : List Course} (idle : ∀ course ∈ courses, course = .idle) :
    MembersOrder courses [] := by
  induction courses with
  | nil => exact rfl
  | cons course courses ih =>
      obtain ⟨first, rest⟩ := List.forall_mem_cons.mp idle
      exact ⟨[], [], by rw [first]; exact rfl, ih rest, .nil⟩

/-- What one member does first may come before all that the members do. -/
theorem membersOrder_set (shown : List Event) {earlier : Course} :
    ∀ {courses : List Course} {index : Nat} {course : Course} {events : List Event},
      courses[index]? = some course →
      (∀ events, course.Orders events → earlier.Orders (shown ++ events)) →
      MembersOrder courses events → MembersOrder (courses.set index earlier) (shown ++ events)
  | first :: courses, 0, course, events, found, extends_, orders => by
      obtain ⟨own, others, ordered, rest, merges⟩ := orders
      obtain rfl : first = course := by simpa using found
      exact ⟨shown ++ own, others, extends_ own ordered, rest, merges.left_append shown⟩
  | first :: courses, index + 1, course, events, found, extends_, orders => by
      obtain ⟨own, others, ordered, rest, merges⟩ := orders
      have there : courses[index]? = some course := by simpa using found
      have later := membersOrder_set shown there extends_ rest
      exact ⟨own, shown ++ others, ordered, later, merges.right_append shown⟩

end Course

/-! ## The courses of a plan -/

/-- The part of one child in a batch: what its task does, and how it ends, if it does. -/
structure Part where
  child : Entity
  course : Course
  outcome : Option (Outcome (Option Entity))

/-- The failure that a part contributes to its batch. -/
def Part.failure? (part : Part) : Option ChildFailure :=
  part.outcome.bind fun outcome => Crew.failureOf (part.child.label, outcome.forget)

/-- A task with the given plan can take the course and, if it gets that far, end as given. Any
answers may come, and the members of a batch are the tasks of its children. -/
inductive Plan.Takes (run : Run) : {α : Type} →
    Plan α → Course → Option (Outcome α) → Prop
  /-- The task has not got further. -/
  | pause {α : Type} (plan : Plan α) : Takes run plan .idle none
  | done {α : Type} (outcome : Outcome α) : Takes run (.done outcome) .idle (some outcome)
  | call {α : Type} (request : Request) (exchange : Exchange) (next : Exchange → Plan α)
      {course : Course} {outcome : Option (Outcome α)} :
      Takes run (next exchange) course outcome →
        Takes run (.call request next) (.act (.called ⟨request, exchange⟩) course) outcome
  | note {α : Type} (notice : Notice) (next : Plan α) {course : Course}
      {outcome : Option (Outcome α)} :
      Takes run next course outcome →
        Takes run (.note notice next) (course.after (Event.ofNotice? notice)) outcome
  | remember {α : Type} (session : SessionId) (entity : Entity) (next : Plan α)
      {course : Course} {outcome : Option (Outcome α)} :
      Takes run next course outcome →
        Takes run (.remember session entity next) (.act (.remembered session entity) course) outcome
  | recall {α : Type} (session : SessionId) (entity known : Entity) (next : Entity → Plan α)
      {course : Course} {outcome : Option (Outcome α)} :
      Takes run (next known) course outcome →
        Takes run (.recall session entity next) (.act (.recalled session entity known) course)
          outcome
  | skip {α : Type} (group : Batch) (next : BatchResult → Plan α) {course : Course}
      {outcome : Option (Outcome α)} (nobody : group.children = []) :
      Takes run (next ⟨[], false⟩) course outcome → Takes run (.batch group next) course outcome
  /-- The batch is under way. -/
  | fork {α : Type} (group : Batch) (next : BatchResult → Plan α) (parts : List Part)
      (whole : parts.map (·.child) = group.children)
      (each : ∀ part ∈ parts, Takes run (run.childTask group part.child) part.course part.outcome) :
      Takes run (.batch group next) (.fork (parts.map (·.course)) .idle) none
  /-- All members have ended, and the task goes on with their failures, in any order. -/
  | join {α : Type} (group : Batch) (next : BatchResult → Plan α) (parts : List Part)
      (failures : List ChildFailure) {course : Course} {outcome : Option (Outcome α)}
      (whole : parts.map (·.child) = group.children)
      (each : ∀ part ∈ parts, Takes run (run.childTask group part.child) part.course part.outcome)
      (through : ∀ part ∈ parts, part.outcome.isSome)
      (told : failures.Perm (parts.filterMap Part.failure?)) :
      Takes run (next ⟨failures, false⟩) course outcome →
        Takes run (.batch group next) (.fork (parts.map (·.course)) course) outcome
  /-- The members were given up, wherever they were. -/
  | giveUp {α : Type} (group : Batch) (next : BatchResult → Plan α) (parts : List Part)
      (failures : List ChildFailure) {course : Course} {outcome : Option (Outcome α)}
      (whole : parts.map (·.child) = group.children)
      (each : ∀ part ∈ parts, Takes run (run.childTask group part.child) part.course part.outcome) :
      Takes run (next ⟨failures, true⟩) course outcome →
        Takes run (.batch group next) (.fork (parts.map (·.course)) (.act .gaveUp course)) outcome

end DesiredState
