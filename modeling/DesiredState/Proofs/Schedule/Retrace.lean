import DesiredState.Proofs.Schedule.Course

/-!
# The course of a run

What the steps of a run have done is a course that its plan can take (`Steps.takes`). The
course is put together from the last step to the first: a step of a task lengthens the course
of that task, and a batch forks into the courses of its children when its crew is assembled.

**Accounting.** The failures with which a batch goes on are those that its crew has gathered,
those of the members that have ended, and those that are still to come. No step changes their
sum, so in the end it is that of all children, in some order.
-/

set_option autoImplicit false

namespace DesiredState

/-! ## Crews -/

/-- The members of a crew, those to be started among them. -/
def Crew.roster (run : Run) (crew : Crew ChildTask) : List (Member ChildTask) :=
  crew.members ++ crew.waiting.map (enlist run crew.batch)

/-- A member of a crew with what its task is going to do. -/
structure Slot where
  member : Member ChildTask
  course : Course
  outcome : Option (Outcome (Option Entity))

/-- The failure that a member is going to contribute; what one that has ended contributes is
known to its crew already. -/
def Slot.pending? (slot : Slot) : Option ChildFailure :=
  if slot.member.task.stage.isOver then none
  else slot.outcome.bind fun outcome => Crew.failureOf (slot.member.label, outcome.forget)

/-- A member with which nothing more happens. -/
def Slot.idle (member : Member ChildTask) : Slot := ⟨member, .idle, none⟩

/-- A member that has ended, or with which nothing more happens. -/
def Slot.ended (member : Member ChildTask) : Slot := ⟨member, .idle, member.task.stage.outcome?⟩

/-! ## The courses of a stage -/

namespace Stage

/-- How a task with a crew goes on, given whether all members end and what failures they make
up. -/
inductive Resumes (run : Run) {α : Type} (next : BatchResult → Plan α) (through : Prop)
    (failures : List ChildFailure) : Course → Option (Outcome α) → Prop
  | wait : Resumes run next through failures .idle none
  | join {told : List ChildFailure} {course : Course} {outcome : Option (Outcome α)} :
      through → told.Perm failures → (next ⟨told, false⟩).Takes run course outcome →
        Resumes run next through failures course outcome
  | giveUp {told : List ChildFailure} {course : Course} {outcome : Option (Outcome α)} :
      (next ⟨told, true⟩).Takes run course outcome →
        Resumes run next through failures (.act .gaveUp course) outcome

/-- What the slots of a crew make up, with what the crew knows already. -/
def allFailures (crew : Crew ChildTask) (slots : List Slot) : List ChildFailure :=
  crew.failures ++ crew.ended.filterMap Crew.failureOf ++ slots.filterMap Slot.pending?

/-- A task at the given stage can take the course and, if it gets that far, end as given. -/
inductive Takes (run : Run) : {α : Type} →
    Stage ChildTask α → Course → Option (Outcome α) → Prop
  | pause {α : Type} (stage : Stage ChildTask α) : Takes run stage .idle none
  | active {α : Type} {plan : Plan α} {course : Course} {outcome : Option (Outcome α)} :
      plan.Takes run course outcome → Takes run (.active plan) course outcome
  | asleep {α : Type} (wake : Nat) {plan : Plan α} {course : Course}
      {outcome : Option (Outcome α)} :
      plan.Takes run course outcome → Takes run (.asleep wake plan) course outcome
  | finished {α : Type} (outcome : Outcome α) : Takes run (.finished outcome) .idle (some outcome)
  | leading {α : Type} (crew : Crew ChildTask) (next : BatchResult → Plan α) (slots : List Slot)
      {course : Course} {outcome : Option (Outcome α)}
      (whole : slots.map (·.member) = crew.roster run)
      (each : ∀ slot ∈ slots, Takes run slot.member.task.stage slot.course slot.outcome) :
      Resumes run next (∀ slot ∈ slots, slot.outcome.isSome) (allFailures crew slots) course
          outcome →
        Takes run (.leading crew next) (.fork (slots.map (·.course)) course) outcome

theorem Resumes.imp {run : Run} {α : Type} {next : BatchResult → Plan α} {through also : Prop}
    {failures others : List ChildFailure} {course : Course} {outcome : Option (Outcome α)}
    (resumes : Resumes run next through failures course outcome) (gets : through → also)
    (same : through → failures.Perm others) : Resumes run next also others course outcome := by
  cases resumes with
  | wait => exact .wait
  | join ended told takes => exact .join (gets ended) (told.trans (same ended)) takes
  | giveUp takes => exact .giveUp takes

namespace Takes

variable {run : Run} {α : Type} {course : Course} {outcome : Option (Outcome α)}

theorem of_active {plan : Plan α} (takes : Takes run (.active plan) course outcome) :
    plan.Takes run course outcome := by
  cases takes with
  | pause => exact .pause plan
  | active takes => exact takes

theorem of_asleep {plan : Plan α} {wake : Nat}
    (takes : Takes run (.asleep wake plan) course outcome) : plan.Takes run course outcome := by
  cases takes with
  | pause => exact .pause plan
  | asleep _ takes => exact takes

/-- A stage that has ended does nothing more. -/
theorem ended (stage : Stage ChildTask α) : Takes run stage .idle stage.outcome? := by
  cases stage with
  | finished outcome => exact .finished outcome
  | active plan => exact .pause _
  | asleep wake plan => exact .pause _
  | leading crew next => exact .pause _

end Takes

/-! ## Children as members -/

/-- The slots of a crew of which nobody has been started are the parts of the children. -/
theorem parts_of_slots {run : Run} (batch : Batch) :
    ∀ {children : List Entity} {slots : List Slot},
      slots.map (·.member) = children.map (Crew.enlist run batch) →
      (∀ slot ∈ slots, Takes run slot.member.task.stage slot.course slot.outcome) →
      ∃ parts : List Part, parts.map (·.child) = children ∧
        parts.map (·.course) = slots.map (·.course) ∧
        ((∀ slot ∈ slots, slot.outcome.isSome) → ∀ part ∈ parts, part.outcome.isSome) ∧
        (∀ part ∈ parts, (run.childTask batch part.child).Takes run part.course part.outcome) ∧
        parts.filterMap Part.failure? = slots.filterMap Slot.pending?
  | [], slots, whole, _ => by
      obtain rfl : slots = [] := by simpa using whole
      exact ⟨[], rfl, rfl, fun _ => List.forall_mem_nil _, List.forall_mem_nil _, rfl⟩
  | child :: children, [], whole, _ => by
      simp at whole
  | child :: children, ⟨member, course, outcome⟩ :: slots, whole, each => by
      simp only [List.map_cons, List.cons.injEq] at whole
      obtain ⟨rfl, whole⟩ := whole
      obtain ⟨first, rest⟩ := List.forall_mem_cons.mp each
      obtain ⟨parts, same, courses, through, takes, failures⟩ := parts_of_slots batch whole rest
      refine ⟨⟨child, course, outcome⟩ :: parts, by rw [List.map_cons, same],
        by rw [List.map_cons, List.map_cons, courses], fun ended => ?_,
        List.forall_mem_cons.mpr ⟨first.of_active, takes⟩, ?_⟩
      · obtain ⟨here, there⟩ := List.forall_mem_cons.mp ended
        exact List.forall_mem_cons.mpr ⟨here, through there⟩
      · simp only [List.filterMap_cons, failures]
        rfl

/-- A batch whose crew is assembled forks into the parts of its children. -/
theorem Takes.of_assemble {run : Run} {α : Type} {group : Batch} {next : BatchResult → Plan α}
    {now : Nat} {course : Course} {outcome : Option (Outcome α)}
    (takes : Takes run (.leading (Crew.assemble run now group) next) course outcome) :
    (Plan.batch group next).Takes run course outcome := by
  cases takes with
  | pause => exact .pause _
  | leading _ _ slots whole each resumes =>
      obtain ⟨parts, same, courses, ended, taken, failed⟩ := parts_of_slots group
        (by simpa [Crew.roster, Crew.assemble] using whole) each
      rw [← courses]
      cases resumes with
      | wait => exact .fork group next parts same taken
      | join through told rest =>
          refine .join group next parts _ same taken (ended through) ?_ rest
          simpa [allFailures, Crew.assemble, failed] using told
      | giveUp rest => exact .giveUp group next parts _ same taken rest

/-! ## Advancing one member -/

section Advance

variable {run : Run} {crew : Crew ChildTask} {index : Nat} {label : String}
  {stage later : Stage ChildTask (Option Entity)}

theorem roster_advance (inside : index < crew.members.length) :
    (crew.advance index label later).roster run
      = (crew.roster run).set index ⟨label, .mk later⟩ := by
  simp [Crew.roster, Crew.advance, inside]

theorem pending_cons (slot : Slot) (slots : List Slot) :
    (slot :: slots).filterMap Slot.pending?
      = slot.pending?.toList ++ slots.filterMap Slot.pending? := by
  rw [List.filterMap_cons]
  cases slot.pending? <;> rfl

theorem pending?_working (working : stage.isOver = false) (course : Course)
    (outcome : Option (Outcome (Option Entity))) :
    Slot.pending? ⟨⟨label, .mk stage⟩, course, outcome⟩
      = outcome.bind fun outcome => Crew.failureOf (label, outcome.forget) := by
  simp [Slot.pending?, ChildTask.stage, working]

theorem pending?_over (through : stage.isOver = true) (course : Course)
    (outcome : Option (Outcome (Option Entity))) :
    Slot.pending? ⟨⟨label, .mk stage⟩, course, outcome⟩ = none := by
  simp [Slot.pending?, ChildTask.stage, through]

/-- What the crew knows of an ended member and what is to come of a slot make up the same
failures before a step of the member as after it. -/
theorem pending_advance (working : stage.isOver = false) (course earlier : Course)
    (outcome : Option (Outcome (Option Entity))) (takes : Takes run later course outcome)
    (through : outcome.isSome) :
    ((later.outcome?.map fun outcome => (label, outcome.forget)).toList.filterMap Crew.failureOf)
        ++ (Slot.pending? ⟨⟨label, .mk later⟩, course, outcome⟩).toList
      = (Slot.pending? ⟨⟨label, .mk stage⟩, earlier, outcome⟩).toList := by
  rw [pending?_working working]
  cases ending : later.isOver with
  | false =>
      have running : later.outcome? = none := by simpa [isOver] using ending
      rw [pending?_working ending, running]
      rfl
  | true =>
      rw [pending?_over ending]
      cases takes with
      | pause => simp at through
      | finished outcome =>
          cases failed : Crew.failureOf (label, outcome.forget) <;>
            simp [outcome?, failed]
      | active => simp [isOver, outcome?] at ending
      | asleep => simp [isOver, outcome?] at ending
      | leading => simp [isOver, outcome?] at ending

end Advance

/-! ## Steps -/

section Before

variable {run : Run} {α : Type} {crew : Crew ChildTask} {next : BatchResult → Plan α}
  {course : Course} {outcome : Option (Outcome α)}

/-- A change of a crew that leaves its roster and its failures as they are goes unnoticed. -/
theorem Takes.leading_of_eq {other : Crew ChildTask}
    (takes : Takes run (.leading other next) course outcome)
    (same : other.roster run = crew.roster run)
    (failures : ∀ slots, allFailures other slots = allFailures crew slots) :
    Takes run (.leading crew next) course outcome := by
  cases takes with
  | pause => exact .pause _
  | leading _ _ slots whole each resumes =>
      exact .leading crew next slots (whole.trans same) each (failures slots ▸ resumes)

/-- The slots of a task with a crew; if nothing more happens, all of them are idle. -/
theorem Takes.of_leading (takes : Takes run (.leading crew next) course outcome) :
    ∃ slots rest, slots.map (·.member) = crew.roster run ∧
      (∀ slot ∈ slots, Takes run slot.member.task.stage slot.course slot.outcome) ∧
      Resumes run next (∀ slot ∈ slots, slot.outcome.isSome) (allFailures crew slots) rest
        outcome ∧
      ∀ events, course.Orders events →
        (Course.fork (slots.map (·.course)) rest).Orders events := by
  cases takes with
  | pause =>
      refine ⟨(crew.roster run).map Slot.idle, .idle, ?_, ?_, .wait, ?_⟩
      · rw [List.map_map]
        exact List.map_id _
      · intro slot member
        obtain ⟨of, _, rfl⟩ := List.mem_map.mp member
        exact .pause of.task.stage
      · intro events orders
        refine ⟨[], events, rfl, Course.membersOrder_idle fun course member => ?_, orders⟩
        simp only [List.map_map, List.mem_map] at member
        obtain ⟨_, _, rfl⟩ := member
        rfl
  | leading _ _ slots whole each resumes =>
      exact ⟨slots, _, whole, each, resumes, fun events orders => orders⟩

/-- Members with which nothing more happens may precede whatever comes next. -/
theorem Takes.leading_of_ended
    (resumes : Resumes run next (∀ member ∈ crew.roster run, member.task.stage.isOver)
      (crew.failures ++ crew.ended.filterMap Crew.failureOf) course outcome) :
    ∃ earlier, Takes run (.leading crew next) earlier outcome ∧
      ∀ events, course.Orders events → earlier.Orders events := by
  refine ⟨.fork (((crew.roster run).map Slot.ended).map (·.course)) course,
    .leading crew next _ ?_ ?_ (resumes.imp ?_ ?_),
    fun events orders => ⟨[], events, rfl, ?_, orders⟩⟩
  · rw [List.map_map]
    exact List.map_id _
  · intro slot member
    obtain ⟨of, _, rfl⟩ := List.mem_map.mp member
    exact Takes.ended of.task.stage
  · intro through slot member
    obtain ⟨of, inRoster, rfl⟩ := List.mem_map.mp member
    exact through of inRoster
  · intro through
    have nothing : ((crew.roster run).map Slot.ended).filterMap Slot.pending? = [] := by
      rw [List.filterMap_eq_nil_iff]
      intro slot member
      obtain ⟨of, inRoster, rfl⟩ := List.mem_map.mp member
      simp [Slot.pending?, Slot.ended, through of inRoster]
    simp [allFailures, nothing]
  · refine Course.membersOrder_idle ?_
    intro course member
    simp only [List.map_map, List.mem_map] at member
    obtain ⟨_, _, rfl⟩ := member
    rfl

end Before

section Member

variable {run : Run} {crew : Crew ChildTask} {index : Nat} {label : String}
  {stage later : Stage ChildTask (Option Entity)}

/-- The slot of a member after a step of its task. -/
theorem slot_of_advance {slots : List Slot}
    (found : crew.members[index]? = some ⟨label, .mk stage⟩)
    (whole : slots.map (·.member) = (crew.advance index label later).roster run) :
    ∃ course outcome, slots[index]? = some ⟨⟨label, .mk later⟩, course, outcome⟩ := by
  obtain ⟨inside, _⟩ := List.getElem?_eq_some_iff.mp found
  have place : index < (crew.roster run).length := by
    simp only [Crew.roster, List.length_append]
    omega
  have here := congrArg (·[index]?) (whole.trans (roster_advance inside))
  simp only [List.getElem?_map, List.getElem?_set, if_true, place] at here
  obtain ⟨⟨member, course, outcome⟩, chosen, named⟩ := Option.map_eq_some_iff.mp here
  obtain rfl : member = ⟨label, .mk later⟩ := named
  exact ⟨course, outcome, chosen⟩

/-- With the member put back, the slots are those of the crew before the step. -/
theorem whole_set {slots : List Slot} (found : crew.members[index]? = some ⟨label, .mk stage⟩)
    (whole : slots.map (·.member) = (crew.advance index label later).roster run)
    (course : Course) (outcome : Option (Outcome (Option Entity))) :
    (slots.set index ⟨⟨label, .mk stage⟩, course, outcome⟩).map (·.member) = crew.roster run := by
  obtain ⟨inside, here⟩ := List.getElem?_eq_some_iff.mp found
  rw [List.map_set, whole, roster_advance inside, List.set_set]
  have place : index < (crew.roster run).length := by
    simp only [Crew.roster, List.length_append]
    omega
  have same : (crew.roster run)[index] = ⟨label, .mk stage⟩ := by
    simp [Crew.roster, List.getElem_append_left inside, here]
  rw [← same, List.set_getElem_self]

/-- The failures are the same before and after a step of a member. -/
theorem allFailures_set {slots : List Slot} {course earlier : Course}
    {outcome : Option (Outcome (Option Entity))} (working : stage.isOver = false)
    (chosen : slots[index]? = some ⟨⟨label, .mk later⟩, course, outcome⟩)
    (takes : Takes run later course outcome) (through : outcome.isSome) :
    (allFailures (crew.advance index label later) slots).Perm
      (allFailures crew (slots.set index ⟨⟨label, .mk stage⟩, earlier, outcome⟩)) := by
  obtain ⟨inside, here⟩ := List.getElem?_eq_some_iff.mp chosen
  have out : (slots.filterMap Slot.pending?).Perm
      ((Slot.pending? ⟨⟨label, .mk later⟩, course, outcome⟩).toList
        ++ (slots.eraseIdx index).filterMap Slot.pending?) := by
    rw [← pending_cons, ← here]
    exact (List.getElem_cons_eraseIdx_perm inside).symm.filterMap _
  have back : ((slots.set index ⟨⟨label, .mk stage⟩, earlier, outcome⟩).filterMap
      Slot.pending?).Perm ((Slot.pending? ⟨⟨label, .mk stage⟩, earlier, outcome⟩).toList
        ++ (slots.eraseIdx index).filterMap Slot.pending?) := by
    rw [← pending_cons]
    exact (List.set_perm_cons_eraseIdx inside _).filterMap _
  rw [← pending_advance working course earlier outcome takes through, List.append_assoc] at back
  simp only [allFailures, Crew.advance, List.filterMap_append, List.append_assoc]
  exact (((out.append_left _).trans back.symm).append_left _).append_left _

end Member

/-- A course from a later stage is lengthened by the step to a course from the earlier one. -/
theorem Step.takes {run : Run} {α : Type} {stage later : Stage ChildTask α}
    {event : Option Event} (step : Step run stage event later) :
    ∀ {course : Course} {outcome : Option (Outcome α)}, Takes run later course outcome →
      ∃ earlier, Takes run stage earlier outcome ∧
        ∀ events, course.Orders events → earlier.Orders (event.toList ++ events) := by
  induction step with
  | finish outcome =>
      intro course ended takes
      cases takes with
      | pause => exact ⟨.idle, .pause _, fun events orders => orders⟩
      | finished => exact ⟨.idle, .active (.done outcome), fun events orders => orders⟩
  | call request exchange next =>
      intro course outcome takes
      exact ⟨_, .active (.call request exchange next takes.of_active),
        fun events orders => ⟨events, rfl, orders⟩⟩
  | send request exchange next wake =>
      intro course outcome takes
      exact ⟨_, .active (.call request exchange next takes.of_asleep),
        fun events orders => ⟨events, rfl, orders⟩⟩
  | wake time plan =>
      intro course outcome takes
      exact ⟨course, .asleep time takes.of_active, fun events orders => orders⟩
  | tell notice next =>
      intro course outcome takes
      exact ⟨_, .active (.note notice next takes.of_active),
        fun events orders => Course.orders_after _ orders⟩
  | remember session entity next =>
      intro course outcome takes
      exact ⟨_, .active (.remember session entity next takes.of_active),
        fun events orders => ⟨events, rfl, orders⟩⟩
  | «recall» session entity known next =>
      intro course outcome takes
      exact ⟨_, .active (.recall session entity known next takes.of_active),
        fun events orders => ⟨events, rfl, orders⟩⟩
  | skip group next nobody =>
      intro course outcome takes
      exact ⟨course, .active (.skip group next nobody takes.of_active),
        fun events orders => orders⟩
  | lead group next now somebody =>
      intro course outcome takes
      exact ⟨course, .active takes.of_assemble, fun events orders => orders⟩
  | enlist crew next child rest waiting free =>
      intro course outcome takes
      refine ⟨course, takes.leading_of_eq ?_ fun slots => rfl, fun events orders => orders⟩
      simp [Crew.roster, waiting]
  | gather crew next started ended =>
      intro course outcome takes
      refine ⟨course, takes.leading_of_eq ?_ fun slots => ?_, fun events orders => orders⟩
      · simp [Crew.roster, Crew.gather, started]
      · simp [allFailures, Crew.gather, started]
  | join crew next started through gathered =>
      intro course outcome takes
      refine Takes.leading_of_ended (.join ?_ ?_ takes.of_active)
      · intro member inRoster
        have started : member ∈ crew.members := by simpa [Crew.roster, started] using inRoster
        simpa using List.countP_eq_zero.mp through member started
      · simp [gathered]
  | giveUp crew next =>
      intro course outcome takes
      have resumes : Resumes run next (∀ member ∈ crew.roster run, member.task.stage.isOver)
          (crew.failures ++ crew.ended.filterMap Crew.failureOf) (.act .gaveUp course) outcome :=
        .giveUp takes.of_active
      obtain ⟨earlier, leads, orders⟩ := Takes.leading_of_ended resumes
      exact ⟨earlier, leads, fun events later => orders _ ⟨events, rfl, later⟩⟩
  | member crew next index label stage later event found step ih =>
      intro course outcome takes
      obtain ⟨slots, rest, whole, each, resumes, unfolds⟩ := takes.of_leading
      obtain ⟨own, ends, chosen⟩ := slot_of_advance found whole
      have taken := each _ (List.mem_of_getElem? chosen)
      obtain ⟨earlier, leads, orders⟩ := ih taken
      refine ⟨_, .leading crew next (slots.set index ⟨⟨label, .mk stage⟩, earlier, ends⟩)
        (whole_set found whole earlier ends) ?_ (resumes.imp ?_ ?_), ?_⟩
      · intro slot member
        rcases List.mem_or_eq_of_mem_set member with old | rfl
        · exact each slot old
        · exact leads
      · intro through slot member
        rcases List.mem_or_eq_of_mem_set member with old | rfl
        · exact through slot old
        · exact through ⟨⟨label, .mk later⟩, own, ends⟩ (List.mem_of_getElem? chosen)
      · intro through
        exact allFailures_set step.not_over chosen taken (through _ (List.mem_of_getElem? chosen))
      · intro events ordered
        obtain ⟨theirs, others, rfl, together, afterwards⟩ := unfolds events ordered
        refine ⟨event.toList ++ theirs, others, by rw [List.append_assoc], ?_, afterwards⟩
        rw [List.map_set]
        exact Course.membersOrder_set _ (by simp [chosen]) orders together

theorem Steps.lengthens {run : Run} {α : Type} {first last : Stage ChildTask α}
    {events : List Event} (steps : Steps run first events last) :
    ∃ course, Takes run first course last.outcome? ∧ course.Orders events := by
  induction steps with
  | refl stage => exact ⟨.idle, Takes.ended stage, rfl⟩
  | head step _ ih =>
      obtain ⟨course, takes, orders⟩ := ih
      obtain ⟨earlier, leads, lengthens⟩ := step.takes takes
      exact ⟨earlier, leads, lengthens _ orders⟩

/-- What the steps of a task have done is a course that its plan can take. -/
theorem Steps.takes {run : Run} {α : Type} {plan : Plan α} {events : List Event}
    {last : Stage ChildTask α} (steps : Steps run (.active plan) events last) :
    ∃ course, plan.Takes run course last.outcome? ∧ course.Orders events := by
  obtain ⟨course, takes, orders⟩ := steps.lengthens
  exact ⟨course, takes.of_active, orders⟩

end Stage

end DesiredState
