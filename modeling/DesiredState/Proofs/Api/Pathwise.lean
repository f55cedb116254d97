import DesiredState.Proofs.Schedule.Course
import Mathlib.Logic.Function.Basic

/-!
# APIs with a state for each path

An API may keep a state for each path, and answer a request by the state of its path alone. Then
the calls of one path are all that matters for that path (`served_iff`), and calls of different
paths may change places.

**Siblings apart.** When no two members of a batch send requests to one path, every order of a
course shows the calls of a path in the same sequence (`undisputed_of_apart`). So an interleaving
is served if and as the order that takes the members in turn is (`Apart.served_inTurn`).
-/

set_option autoImplicit false

namespace DesiredState

/-! ## Answers -/

/-- How an API answers a request in a state of its path: what becomes of the request, and the
state that is left. -/
abbrev Answering (τ : Type) := Request → τ → Exchange → τ → Prop

variable {τ : Type} {answering : Answering τ}

/-- There is one answer to a request in a state, and one state that is left. -/
def Answering.Deterministic (answering : Answering τ) : Prop :=
  ∀ ⦃request : Request⦄ ⦃state : τ⦄ ⦃one other : Exchange⦄ ⦃next after : τ⦄,
    answering request state one next → answering request state other after →
      one = other ∧ next = after

/-- An API that computes its answers. -/
def Answering.ofRespond (respond : Request → τ → Exchange × τ) : Answering τ :=
  fun request state exchange next => respond request state = (exchange, next)

theorem Answering.deterministic_ofRespond (respond : Request → τ → Exchange × τ) :
    (ofRespond respond).Deterministic := by
  intro request state one other next after first second
  rw [ofRespond, first] at second
  exact Prod.mk.inj second

/-- The calls are answered one after another. -/
inductive Served (answering : Answering τ) : (String → τ) → List Call → (String → τ) → Prop
  | nil (state : String → τ) : Served answering state [] state
  | cons {state last : String → τ} {calls : List Call} (call : Call) (next : τ) :
      answering call.request (state call.request.path) call.exchange next →
      Served answering (Function.update state call.request.path next) calls last →
        Served answering state (call :: calls) last

/-- The calls of one path are answered one after another. -/
inductive ServedAt (answering : Answering τ) : τ → List Call → τ → Prop
  | nil (state : τ) : ServedAt answering state [] state
  | cons {state next last : τ} {calls : List Call} (call : Call) :
      answering call.request state call.exchange next →
      ServedAt answering next calls last → ServedAt answering state (call :: calls) last

/-- The calls that concern a path. -/
def callsAt (path : String) (calls : List Call) : List Call :=
  calls.filter fun call => call.request.path = path

@[simp] theorem callsAt_append (path : String) (first second : List Call) :
    callsAt path (first ++ second) = callsAt path first ++ callsAt path second :=
  List.filter_append first second

theorem callsAt_cons_same (call : Call) (calls : List Call) :
    callsAt call.request.path (call :: calls) = call :: callsAt call.request.path calls := by
  simp [callsAt]

theorem callsAt_cons_other {path : String} {call : Call} (other : call.request.path ≠ path)
    (calls : List Call) : callsAt path (call :: calls) = callsAt path calls := by
  simp [callsAt, other]

theorem callsAt_eq_nil {path : String} {calls : List Call} :
    callsAt path calls = [] ↔ ∀ call ∈ calls, call.request.path ≠ path := by
  simp [callsAt, List.filter_eq_nil_iff]

theorem servedAt_nil {state last : τ} : ServedAt answering state [] last ↔ last = state := by
  constructor
  · intro served
    cases served
    rfl
  · rintro rfl
    exact .nil last

/-- **What happens at a path depends on the calls of that path.** -/
theorem served_iff {state last : String → τ} {calls : List Call} :
    Served answering state calls last ↔
      ∀ path, ServedAt answering (state path) (callsAt path calls) (last path) := by
  constructor
  · intro served
    induction served with
    | nil state => exact fun path => .nil (state path)
    | @cons state last calls call next answers _ ih =>
        intro path
        by_cases here : call.request.path = path
        · subst here
          rw [callsAt_cons_same]
          have rest := ih call.request.path
          rw [Function.update_self] at rest
          exact .cons call answers rest
        · rw [callsAt_cons_other here]
          have rest := ih path
          rwa [Function.update_of_ne (Ne.symm here)] at rest
  · intro each
    induction calls generalizing state with
    | nil =>
        have same : state = last := by
          funext path
          exact (servedAt_nil.mp (each path)).symm
        rw [same]
        exact .nil last
    | cons call calls ih =>
        have here := each call.request.path
        rw [callsAt_cons_same] at here
        cases here with
        | @cons _ next _ _ _ answers rest =>
            refine .cons call next answers (ih fun path => ?_)
            by_cases same : path = call.request.path
            · subst same
              rwa [Function.update_self]
            · rw [Function.update_of_ne same]
              have other := each path
              rwa [callsAt_cons_other (Ne.symm same)] at other

/-- Calls in which each path has the same sequence are served alike. -/
theorem Served.congr {state last : String → τ} {calls others : List Call}
    (served : Served answering state calls last)
    (same : ∀ path, callsAt path others = callsAt path calls) :
    Served answering state others last := by
  refine served_iff.mpr ?_
  intro path
  rw [same path]
  exact served_iff.mp served path

/-- The calls of a sequence are those of its parts. -/
theorem served_append {first second : List Call} {state last : String → τ} :
    Served answering state (first ++ second) last ↔
      ∃ middle, Served answering state first middle ∧ Served answering middle second last := by
  constructor
  · intro served
    induction first generalizing state with
    | nil => exact ⟨state, .nil state, served⟩
    | cons call first ih =>
        cases served with
        | cons _ next answers rest =>
            obtain ⟨middle, before, after⟩ := ih rest
            exact ⟨middle, .cons call next answers before, after⟩
  · rintro ⟨middle, before, after⟩
    induction before with
    | nil => exact after
    | cons call next answers _ ih => exact .cons call next answers (ih after)

/-- Whether an event is a call of a path. -/
def Event.isAt (path : String) : Event → Bool
  | .called call => call.request.path = path
  | _ => false

/-- The calls of a path are those of the events that are calls of it. -/
theorem callsAt_calls (path : String) (events : List Event) :
    callsAt path (calls events) = calls (events.filter (Event.isAt path)) := by
  induction events with
  | nil => rfl
  | cons event events ih =>
      cases event with
      | called call =>
          by_cases here : call.request.path = path
          · simp [callsAt, Event.isAt, here, ← ih]
          · simp [callsAt, Event.isAt, here, ← ih]
      | told notice => simpa [Event.isAt] using ih
      | remembered session entity => simpa [Event.isAt] using ih
      | recalled session entity known => simpa [Event.isAt] using ih
      | gaveUp => simpa [Event.isAt] using ih

/-! ## Undisputed events -/

namespace Merges

variable {γ : Type} {first second merged : List γ}

theorem filter (keep : γ → Bool) (merges : Merges first second merged) :
    Merges (first.filter keep) (second.filter keep) (merged.filter keep) := by
  rw [← List.filterMap_eq_filter]
  exact merges.filterMap _

/-- Items that only one part has are in a merge in the order of that part. -/
theorem filter_eq (keep : γ → Bool) (merges : Merges first second merged)
    (alone : first.filter keep = [] ∨ second.filter keep = []) :
    merged.filter keep = first.filter keep ++ second.filter keep := by
  have kept := merges.filter keep
  rcases alone with none | none
  · rw [none] at kept ⊢
    exact kept.eq_of_nil_left
  · rw [none] at kept ⊢
    rw [List.append_nil]
    exact kept.eq_of_nil_right

end Merges

namespace Course

mutual

/-- At most one member of each batch has events that are looked for. -/
def Undisputed (keep : Event → Bool) : Course → Prop
  | .idle => True
  | .act _ rest => rest.Undisputed keep
  | .fork members rest => MembersUndisputed keep members ∧ rest.Undisputed keep

def MembersUndisputed (keep : Event → Bool) : List Course → Prop
  | [] => True
  | course :: courses =>
      (course.inTurn.filter keep = [] ∨ (allInTurn courses).filter keep = []) ∧
        course.Undisputed keep ∧ MembersUndisputed keep courses

end

mutual

/-- Undisputed events come in the same sequence in every order of a course. -/
theorem filter_of_orders (keep : Event → Bool) : ∀ {course : Course} {events : List Event},
    course.Undisputed keep → course.Orders events →
      events.filter keep = course.inTurn.filter keep
  | .idle, _, _, orders => by
      rw [orders, inTurn]
  | .act event rest, _, undisputed, orders => by
      obtain ⟨others, rfl, orders⟩ := orders
      have inside : rest.Undisputed keep := undisputed
      rw [inTurn, List.filter_cons, List.filter_cons, filter_of_orders keep inside orders]
  | .fork members rest, _, undisputed, orders => by
      obtain ⟨theirs, others, rfl, together, orders⟩ := orders
      rw [inTurn, List.filter_append, List.filter_append,
        filter_of_membersOrder keep undisputed.1 together,
        filter_of_orders keep undisputed.2 orders]

theorem filter_of_membersOrder (keep : Event → Bool) :
    ∀ {courses : List Course} {events : List Event},
      MembersUndisputed keep courses → MembersOrder courses events →
        events.filter keep = (allInTurn courses).filter keep
  | [], _, _, orders => by
      rw [orders, allInTurn]
  | course :: courses, _, undisputed, orders => by
      obtain ⟨own, others, first, rest, merges⟩ := orders
      obtain ⟨alone, mine, theirs⟩ := undisputed
      have here := filter_of_orders keep mine first
      have there := filter_of_membersOrder keep theirs rest
      rw [← here, ← there] at alone
      rw [merges.filter_eq keep alone, here, there, allInTurn, List.filter_append]

end

/-! ## Footprints -/

/-- The paths of the requests that are sent for the entity at hand: those before another entity
is begun, and those after the members of a batch are through. -/
def own : Course → List String
  | .idle => []
  | .act event rest =>
      match event.visit? with
      | some _ => []
      | none => (event.call?.map (·.request.path)).toList ++ rest.own
  | .fork _ rest => rest.own

mutual

/-- For each entity that is begun, the paths of its own requests. -/
def footprints : Course → List (List String)
  | .idle => []
  | .act event rest =>
      match event.visit? with
      | some _ => rest.own :: rest.footprints
      | none => rest.footprints
  | .fork members rest => allFootprints members ++ rest.footprints

def allFootprints : List Course → List (List String)
  | [] => []
  | course :: courses => course.own :: course.footprints ++ allFootprints courses

end

/-- The requests of different entities go to different paths. -/
def Apart (course : Course) : Prop := course.footprints.Pairwise List.Disjoint

/-- The path belongs to one of the footprints. -/
def Leaves (path : String) (footprints : List (List String)) : Prop :=
  ∃ footprint ∈ footprints, path ∈ footprint

theorem own_act (event : Event) (rest : Course) :
    (act event rest).own
      = if event.visit?.isSome then []
        else (event.call?.map (·.request.path)).toList ++ rest.own := by
  rw [own]
  cases event.visit? <;> rfl

theorem footprints_act (event : Event) (rest : Course) :
    (act event rest).footprints
      = if event.visit?.isSome then rest.own :: rest.footprints else rest.footprints := by
  rw [footprints]
  cases event.visit? <;> rfl

/-- What is left by the rest of a course is left by the course. -/
theorem leaves_act {path : String} (event : Event) {rest : Course}
    (leaves : Leaves path (rest.own :: rest.footprints)) :
    Leaves path ((act event rest).own :: (act event rest).footprints) := by
  obtain ⟨footprint, member, here⟩ := leaves
  rw [own_act, footprints_act]
  split
  · exact ⟨footprint, List.mem_cons_of_mem _ member, here⟩
  · rcases List.mem_cons.mp member with rfl | later
    · exact ⟨_, List.mem_cons_self, List.mem_append_right _ here⟩
    · exact ⟨footprint, List.mem_cons_of_mem _ later, here⟩

mutual

/-- Every request belongs to the entity at hand or to one that is begun. -/
theorem leaves_of_mem {path : String} : ∀ {course : Course} {event : Event},
    event ∈ course.inTurn → event.isAt path = true → Leaves path (course.own :: course.footprints)
  | .idle, _, member, _ => nomatch member
  | .act event rest, other, member, here => by
      rcases List.mem_cons.mp member with rfl | later
      · cases other with
        | called call =>
            have there : call.request.path = path := by simpa [Event.isAt] using here
            exact ⟨_, List.mem_cons_self, there ▸ List.mem_cons_self⟩
        | told notice => nomatch here
        | remembered session entity => nomatch here
        | recalled session entity known => nomatch here
        | gaveUp => nomatch here
      · exact leaves_act event (leaves_of_mem later here)
  | .fork members rest, _, member, here => by
      rcases List.mem_append.mp member with theirs | later
      · obtain ⟨footprint, inside, there⟩ := leaves_of_mem_all theirs here
        exact ⟨footprint, List.mem_cons_of_mem _ (List.mem_append_left _ inside), there⟩
      · obtain ⟨footprint, inside, there⟩ := leaves_of_mem later here
        rcases List.mem_cons.mp inside with rfl | after
        · exact ⟨_, List.mem_cons_self, there⟩
        · exact ⟨footprint, List.mem_cons_of_mem _ (List.mem_append_right _ after), there⟩

theorem leaves_of_mem_all {path : String} : ∀ {courses : List Course} {event : Event},
    event ∈ allInTurn courses → event.isAt path = true → Leaves path (allFootprints courses)
  | [], _, member, _ => nomatch member
  | course :: courses, _, member, here => by
      rw [allInTurn] at member
      rcases List.mem_append.mp member with first | later
      · obtain ⟨footprint, inside, there⟩ := leaves_of_mem first here
        exact ⟨footprint, List.mem_append_left _ inside, there⟩
      · obtain ⟨footprint, inside, there⟩ := leaves_of_mem_all later here
        exact ⟨footprint, List.mem_append_right _ inside, there⟩

end

/-- The requests for the entity at hand are among the calls. -/
theorem call_of_own {path : String} : ∀ {course : Course}, path ∈ course.own →
    ∃ call ∈ calls course.inTurn, call.request.path = path
  | .idle, member => nomatch member
  | .fork members rest, member => by
      have after : path ∈ rest.own := member
      obtain ⟨call, inside, here⟩ := call_of_own after
      exact ⟨call, by rw [inTurn, calls_append]; exact List.mem_append_right _ inside, here⟩
  | .act event rest, member => by
      rw [own_act] at member
      split at member
      · nomatch member
      · rw [inTurn, calls_cons]
        rcases List.mem_append.mp member with first | after
        · obtain ⟨call, calling, here⟩ := Option.map_eq_some_iff.mp (Option.mem_toList.mp first)
          exact ⟨call, List.mem_append_left _ (Option.mem_toList.mpr calling), here⟩
        · obtain ⟨call, inside, here⟩ := call_of_own after
          exact ⟨call, List.mem_append_right _ inside, here⟩

mutual

/-- What is left by a course was requested in it. -/
theorem call_of_leaves {path : String} : ∀ {course : Course}, Leaves path course.footprints →
    ∃ call ∈ calls course.inTurn, call.request.path = path
  | .idle, ⟨_, member, _⟩ => nomatch member
  | .act event rest, leaves => by
      obtain ⟨footprint, member, here⟩ := leaves
      rw [inTurn, calls_cons]
      have later : ∃ call ∈ calls rest.inTurn, call.request.path = path := by
        rw [footprints_act] at member
        split at member
        · rcases List.mem_cons.mp member with rfl | after
          · exact call_of_own here
          · exact call_of_leaves ⟨footprint, after, here⟩
        · exact call_of_leaves ⟨footprint, member, here⟩
      obtain ⟨call, inside, there⟩ := later
      exact ⟨call, List.mem_append_right _ inside, there⟩
  | .fork members rest, ⟨footprint, member, here⟩ => by
      rw [inTurn, calls_append]
      rcases List.mem_append.mp member with theirs | after
      · obtain ⟨call, inside, there⟩ := call_of_leaves_all ⟨footprint, theirs, here⟩
        exact ⟨call, List.mem_append_left _ inside, there⟩
      · obtain ⟨call, inside, there⟩ := call_of_leaves ⟨footprint, after, here⟩
        exact ⟨call, List.mem_append_right _ inside, there⟩

theorem call_of_leaves_all {path : String} : ∀ {courses : List Course},
    Leaves path (allFootprints courses) →
      ∃ call ∈ calls (allInTurn courses), call.request.path = path
  | [], ⟨_, member, _⟩ => nomatch member
  | course :: courses, ⟨footprint, member, here⟩ => by
      rw [allInTurn, calls_append]
      rcases List.mem_append.mp member with first | later
      · have mine : ∃ call ∈ calls course.inTurn, call.request.path = path := by
          rcases List.mem_cons.mp first with rfl | below
          · exact call_of_own here
          · exact call_of_leaves ⟨footprint, below, here⟩
        obtain ⟨call, inside, there⟩ := mine
        exact ⟨call, List.mem_append_left _ inside, there⟩
      · obtain ⟨call, inside, there⟩ := call_of_leaves_all ⟨footprint, later, here⟩
        exact ⟨call, List.mem_append_right _ inside, there⟩

end

/-- Where no request of a path is left, no event is a call of it. -/
theorem filter_isAt_eq_nil {path : String} {events : List Event} {footprints : List (List String)}
    (leaves : ∀ event ∈ events, event.isAt path = true → Leaves path footprints)
    (nowhere : ¬ Leaves path footprints) : events.filter (Event.isAt path) = [] := by
  refine List.filter_eq_nil_iff.mpr ?_
  intro event member here
  exact nowhere (leaves event member here)

/-- A path is left by one of two separate parts at most. -/
theorem not_leaves_both {path : String} {first second : List (List String)}
    (apart : ∀ left ∈ first, ∀ right ∈ second, List.Disjoint left right) :
    ¬ Leaves path first ∨ ¬ Leaves path second := by
  by_cases here : Leaves path first
  · refine .inr ?_
    intro there
    obtain ⟨left, inFirst, leftHere⟩ := here
    obtain ⟨right, inSecond, rightHere⟩ := there
    exact apart left inFirst right inSecond leftHere rightHere
  · exact .inl here

/-- The footprints of the rest of a course are among those of the course. -/
theorem pairwise_of_act {event : Event} {rest : Course}
    (apart : (act event rest).footprints.Pairwise List.Disjoint) :
    rest.footprints.Pairwise List.Disjoint := by
  rw [footprints_act] at apart
  split at apart
  · exact (List.pairwise_cons.mp apart).2
  · exact apart

mutual

/-- Where entities keep apart, the calls of a path are undisputed. -/
theorem undisputed_of_apart (path : String) : ∀ {course : Course},
    course.footprints.Pairwise List.Disjoint → course.Undisputed (Event.isAt path)
  | .idle, _ => trivial
  | .act _ rest, apart => by
      have inside : rest.Undisputed (Event.isAt path) :=
        undisputed_of_apart path (pairwise_of_act apart)
      exact inside
  | .fork _ _, apart => by
      obtain ⟨theirs, rest, _⟩ := List.pairwise_append.mp apart
      exact ⟨membersUndisputed_of_apart path theirs, undisputed_of_apart path rest⟩

theorem membersUndisputed_of_apart (path : String) : ∀ {courses : List Course},
    (allFootprints courses).Pairwise List.Disjoint → MembersUndisputed (Event.isAt path) courses
  | [], _ => trivial
  | course :: courses, apart => by
      obtain ⟨own, others, between⟩ := List.pairwise_append.mp apart
      refine ⟨?_, undisputed_of_apart path (List.pairwise_cons.mp own).2,
        membersUndisputed_of_apart path others⟩
      rcases not_leaves_both between with nowhere | nowhere
      · exact .inl (filter_isAt_eq_nil (fun event => leaves_of_mem) nowhere)
      · exact .inr (filter_isAt_eq_nil (fun event => leaves_of_mem_all) nowhere)

end

/-- **Every order is served like the one that takes the members in turn.** -/
theorem Apart.served_inTurn {course : Course} (apart : course.Apart) {events : List Event}
    (orders : course.Orders events) {state last : String → τ}
    (served : Served answering state (calls events) last) :
    Served answering state (calls course.inTurn) last := by
  refine served.congr ?_
  intro path
  rw [callsAt_calls, callsAt_calls, filter_of_orders _ (undisputed_of_apart path apart) orders]

end Course

end DesiredState
