import DesiredState.Proofs.Run.Account
import DesiredState.Proofs.Schedule.Retrace

/-!
# Every run has an account

Wherever a run has got to, and in whatever order its tasks acted, there is an account of it that
is true (`accounts_of_models`, `accounts_of_document`). The account is put together along the
plans: a batch is a gang whose members act side by side, and what is handed out one after
another is a sequel of such gangs.
-/

set_option autoImplicit false

namespace DesiredState

open Account

@[simp] theorem History.events_nil : History.events [] = [] := rfl

@[simp] theorem History.events_cons (entry : Origin × Event) (history : History) :
    History.events (entry :: history) = entry.2 :: history.events := rfl

@[simp] theorem History.events_append (first second : History) :
    History.events (first ++ second) = first.events ++ second.events := List.map_append

@[simp] theorem History.events_stay (events : List Event) :
    History.events (events.map stay) = events := by
  simp [History.events, stay, Function.comp_def]

@[simp] theorem Account.snd_stay (event : Event) : (stay event).2 = event := rfl

@[simp] theorem Account.events_thread (member : Waypoint × Account) :
    History.events (thread member) = member.2.history.events := by
  simp [History.events, thread, enter, Function.comp_def]

namespace Run

variable {run : Run}

/-! ## Tasks, groups, and groups one after another -/

/-- The events are those of the task, of which that has become. -/
def Accounts (run : Run) (task : Task) (events : List Event) (fate : Fate) : Prop :=
  ∃ account : Account, account.task = task ∧ account.fate = fate ∧ account.Sound run ∧
    account.history.events = events

/-- The events are those of tasks side by side, which were given up in the end or not. -/
def Gathers (run : Run) (group : List (Waypoint × Task)) (events : List Event) (fate : Fate) :
    Prop :=
  ∃ (gang : List (Waypoint × Account)) (braid : History) (closing : List Event),
    gang.map tag = group ∧ (∀ member ∈ gang, member.2.Sound run) ∧
    Braids (gang.map thread) braid ∧ events = braid.events ++ closing ∧
    (closing = [] ∨ closing = [.gaveUp]) ∧
    (fate = .succeeded → closing = [] ∧ ∀ member ∈ gang, member.2.fate = .succeeded) ∧
    (fate = .failed → closing ≠ [] ∨ ∃ member ∈ gang, member.2.fate = .failed)

/-- The events are those of groups one after another. -/
def Continues (run : Run) (groups : List (List (Waypoint × Task))) (events : List Event)
    (fate : Fate) : Prop :=
  ∃ (gangs : List (List (Waypoint × Account))) (history : History),
    Sequel groups gangs history fate ∧ (∀ gang ∈ gangs, ∀ member ∈ gang, member.2.Sound run) ∧
    history.events = events

/-- A task alone is a group. -/
theorem Accounts.gathers {task : Task} {events : List Event} {fate : Fate} (place : Waypoint)
    (accounts : Accounts run task events fate) : Gathers run [(place, task)] events fate := by
  obtain ⟨account, rfl, rfl, sound, rfl⟩ := accounts
  refine ⟨[(place, account)], thread (place, account), [], rfl, by simpa using sound,
    Braids.singleton _, by simp, .inl rfl, ?_, ?_⟩
  · intro well
    exact ⟨rfl, by simpa using well⟩
  · intro failed
    exact .inr ⟨_, List.mem_singleton_self _, failed⟩

/-- Nobody is gathered without an event. -/
theorem Gathers.nobody {fate : Fate} (calm : fate ≠ .failed) : Gathers run [] [] fate :=
  ⟨[], [], [], rfl, List.forall_mem_nil _, rfl, rfl, .inl rfl,
    fun _ => ⟨rfl, List.forall_mem_nil _⟩, fun failed => absurd failed calm⟩

/-- A group that does not succeed is the last one. -/
theorem Gathers.stop {group : List (Waypoint × Task)} {events : List Event} {fate : Fate}
    (gathers : Gathers run group events fate) (short : fate ≠ .succeeded)
    (groups : List (List (Waypoint × Task))) : Continues run (group :: groups) events fate := by
  obtain ⟨gang, braid, closing, handed, sound, braids, rfl, quiet, _, cause⟩ := gathers
  refine ⟨[gang], braid ++ closing.map stay, .last closing handed braids quiet short cause,
    by simpa using sound, by simp⟩

/-- After a group that succeeds comes the next one. -/
theorem Gathers.next {group : List (Waypoint × Task)} {groups : List (List (Waypoint × Task))}
    {first second : List Event} {fate : Fate} (gathers : Gathers run group first .succeeded)
    (continues : Continues run groups second fate) :
    Continues run (group :: groups) (first ++ second) fate := by
  obtain ⟨gang, braid, closing, handed, sound, braids, rfl, _, through, _⟩ := gathers
  obtain ⟨rfl, well⟩ := through rfl
  obtain ⟨gangs, history, sequel, each, rfl⟩ := continues
  exact ⟨gang :: gangs, braid ++ history, .next handed braids well sequel,
    List.forall_mem_cons.mpr ⟨sound, each⟩, by simp⟩

theorem Continues.through : Continues run [] [] .succeeded :=
  ⟨[], [], .through, List.forall_mem_nil _, rfl⟩

theorem Continues.pending (groups : List (List (Waypoint × Task))) :
    Continues run groups [] .pending := ⟨[], [], .pending groups, List.forall_mem_nil _, rfl⟩

/-- Groups without members are gone through at once. -/
theorem Continues.empty {fate : Fate} (calm : fate ≠ .failed) :
    ∀ {groups : List (List (Waypoint × Task))}, (∀ group ∈ groups, group = []) →
      Continues run groups [] fate
  | [], _ => by
      cases fate with
      | pending => exact .pending []
      | succeeded => exact .through
      | failed => exact absurd rfl calm
  | group :: groups, empty => by
      obtain ⟨rfl, rest⟩ := List.forall_mem_cons.mp empty
      have nobody : Gathers run [] [] .succeeded := .nobody nofun
      exact nobody.next (.empty calm rest)

/-! ## Batches -/

/-- What is known of a task while its course is shorter than the bound. -/
def Accountable (run : Run) (bound : Nat) : Prop :=
  ∀ (visit : Visit) (course : Course) (ended : Option (Outcome (Option Entity)))
    (events : List Event), course.inTurn.length < bound →
    (run.reconcile visit.blueprint visit.lineage visit.desired).Takes run course ended →
    course.Orders events → Accounts run (.entity visit) events (Fate.of ended)

/-- The members of a crew are a gang. -/
theorem gang_of_parts (place : Nat → Waypoint) (task : Entity → Task) :
    ∀ {parts : List Part} {threads : List (List Event)} (start : Nat),
      List.Forall₂ Course.Orders (parts.map (·.course)) threads →
      (∀ part ∈ parts, ∀ events, part.course.Orders events →
        Accounts run (task part.child) events (Fate.of part.outcome)) →
      ∃ gang : List (Waypoint × Account), gang.map tag = ((parts.map (·.child)).zipIdx start).map
          (fun child => (place child.2, task child.1)) ∧
        (∀ member ∈ gang, member.2.Sound run) ∧
        gang.map (fun member => member.2.history.events) = threads ∧
        gang.map (fun member => member.2.fate) = parts.map fun part => Fate.of part.outcome
  | [], _, _, .nil, _ => ⟨[], rfl, List.forall_mem_nil _, rfl, rfl⟩
  | part :: parts, _, start, .cons ordered others, each => by
      obtain ⟨here, there⟩ := List.forall_mem_cons.mp each
      obtain ⟨account, same, fate, sound, shown⟩ := here _ ordered
      obtain ⟨gang, handed, sounds, histories, fates⟩ :=
        gang_of_parts place task (start + 1) others there
      refine ⟨(place start, account) :: gang, ?_, List.forall_mem_cons.mpr ⟨sound, sounds⟩, ?_, ?_⟩
      · rw [List.map_cons, handed, tag, same]
        rfl
      · rw [List.map_cons, histories, shown]
      · rw [List.map_cons, fates, fate, List.map_cons]

/-- Members whose threads make up the events are a braid. -/
theorem braid_of_gang {gang : List (Waypoint × Account)} {events : List Event}
    (braids : Braids (gang.map fun member => member.2.history.events) events) :
    ∃ braid, Braids (gang.map thread) braid ∧ History.events braid = events := by
  have threads : Braids ((gang.map thread).map (·.map Prod.snd)) events := by
    rw [List.map_map]
    exact (List.map_congr_left fun member _ => events_thread member :
      gang.map (fun member => History.events (thread member)) = _) ▸ braids
  exact threads.lift

/-- A part that contributes a failure has failed. -/
theorem failed_of_failure? {part : Part} {failure : ChildFailure}
    (failed : part.failure? = some failure) : Fate.of part.outcome = .failed := by
  obtain ⟨child, course, outcome⟩ := part
  rcases outcome with _ | value | cause | cause
  · nomatch failed
  · nomatch failed
  · rfl
  · rfl

/-- Where a joined batch is told of no failure, every member has succeeded. -/
theorem succeeded_of_nothing_told {parts : List Part}
    (through : ∀ part ∈ parts, part.outcome.isSome)
    (told : ([] : List ChildFailure).Perm (parts.filterMap Part.failure?)) :
    ∀ fate ∈ parts.map fun part => Fate.of part.outcome, fate = .succeeded := by
  rw [List.nil_perm, List.filterMap_eq_nil_iff] at told
  intro fate among
  obtain ⟨part, member, rfl⟩ := List.mem_map.mp among
  obtain ⟨value, ended⟩ := value_of_failure?_eq_none (through part member) (told part member)
  rw [ended, Fate.of_value]

/-- Where it is told of some failure, some member has failed. -/
theorem failed_of_something_told {parts : List Part} {failures : List ChildFailure}
    (told : failures.Perm (parts.filterMap Part.failure?)) (something : failures ≠ []) :
    .failed ∈ parts.map fun part => Fate.of part.outcome := by
  obtain ⟨cause, among⟩ := List.exists_mem_of_ne_nil _ something
  obtain ⟨part, member, contributed⟩ := List.mem_filterMap.mp (told.mem_iff.mp among)
  exact List.mem_map.mpr ⟨part, member, failed_of_failure? contributed⟩

/-- Children that nobody has started. -/
theorem Gathers.unbegun (place : Nat → Waypoint) (visit : Entity → Visit)
    (children : List Entity) :
    Gathers run (children.zipIdx.map fun child => (place child.2, .entity (visit child.1))) []
      .pending := by
  let idle : Entity × Nat → Waypoint × Account := fun child =>
    (place child.2, ⟨.entity (visit child.1), [], [], [], .pending⟩)
  refine ⟨children.zipIdx.map idle, [], [], by simp [idle, Function.comp_def, tag], ?_,
    Braids.of_nil ?_, rfl, .inl rfl, nofun, nofun⟩
  · intro member inGang
    obtain ⟨child, _, rfl⟩ := List.mem_map.mp inGang
    exact .stopped (.unbegun _)
  · intro threads inGang
    rw [List.map_map] at inGang
    obtain ⟨child, _, rfl⟩ := List.mem_map.mp inGang
    rfl

/-- The members of a batch act side by side. -/
theorem gathers_of_parts {batch : Batch} (place : Nat → Waypoint) {bound : Nat}
    (accountable : Accountable run bound) {parts : List Part}
    (whole : parts.map (·.child) = batch.children)
    (each : ∀ part ∈ parts, (run.childTask batch part.child).Takes run part.course part.outcome)
    (shorter : (Course.allInTurn (parts.map (·.course))).length < bound) {events : List Event}
    (together : Course.MembersOrder (parts.map (·.course)) events) :
    ∃ (gang : List (Waypoint × Account)) (braid : History),
      gang.map tag = batch.children.zipIdx.map
        (fun child => (place child.2, .entity ⟨batch.blueprint, batch.lineage, child.1⟩)) ∧
      (∀ member ∈ gang, member.2.Sound run) ∧ Braids (gang.map thread) braid ∧
      braid.events = events ∧
      gang.map (fun member => member.2.fate) = parts.map fun part => Fate.of part.outcome := by
  obtain ⟨threads, ordered, braids⟩ := together.braids
  have known : ∀ part ∈ parts, ∀ events, part.course.Orders events →
      Accounts run (.entity ⟨batch.blueprint, batch.lineage, part.child⟩) events
        (Fate.of part.outcome) := by
    intro part member events orders
    refine accountable _ _ _ _ ?_ (each part member) orders
    have inside : part.course ∈ parts.map (·.course) := List.mem_map_of_mem member
    rw [Course.allInTurn_eq_flatMap, List.flatMap_def] at shorter
    exact Nat.lt_of_le_of_lt
      (List.sublist_flatten_of_mem (List.mem_map_of_mem inside)).length_le shorter
  obtain ⟨gang, handed, sound, histories, fates⟩ := gang_of_parts place
    (fun child => .entity ⟨batch.blueprint, batch.lineage, child⟩) 0 ordered known
  rw [← histories] at braids
  obtain ⟨braid, braids, shown⟩ := braid_of_gang braids
  exact ⟨gang, braid, by rw [handed, whole], sound, braids, shown, fates⟩

/-- What follows a batch shows nothing. -/
theorem after_batch (batch : Batch) (result : BatchResult) {course : Course}
    {ended : Option (Outcome Unit)}
    (takes : Plan.Takes run (do
      if result.timedOut then
        Plan.log (.batchTimedOut run.label batch.type run.settings.timeoutSeconds)
      if result.isSuccess then pure ()
      else Plan.fail (.batchFailed batch.type run.label batch.children.length result.failures
        result.timedOut)) course ended) :
    course = .idle ∧ (Fate.of ended = .succeeded → result.isSuccess = true) ∧
      (Fate.of ended = .failed → result.isSuccess = false) := by
  obtain ⟨failures, timedOut⟩ := result
  cases timedOut with
  | true =>
      obtain ⟨rfl, short⟩ := Plan.Takes.of_fail (Plan.Takes.of_log_bind_any takes)
      exact ⟨rfl, fun well => absurd well short, fun _ => rfl⟩
  | false =>
      cases failures with
      | nil =>
          obtain ⟨rfl, calm, _⟩ := takes.of_pure
          exact ⟨rfl, fun _ => rfl, fun failed => absurd failed calm⟩
      | cons failure failures =>
          obtain ⟨rfl, short⟩ := takes.of_fail
          exact ⟨rfl, fun well => absurd well short, fun _ => rfl⟩

theorem gathers_of_children {batch : Batch} (place : Nat → Waypoint) {bound : Nat}
    (accountable : Accountable run bound) {course : Course} {ended : Option (Outcome Unit)}
    {events : List Event} (takes : (run.children batch).Takes run course ended)
    (orders : course.Orders events) (shorter : course.inTurn.length < bound) :
    Gathers run (batch.children.zipIdx.map fun child =>
        (place child.2, .entity ⟨batch.blueprint, batch.lineage, child.1⟩)) events
      (Fate.of ended) := by
  unfold children at takes
  split at takes
  · rename_i nobody
    obtain ⟨rfl, calm, _⟩ := takes.of_pure
    rw [List.isEmpty_iff.mp nobody, show events = [] from orders]
    exact .nobody calm
  · rename_i somebody
    cases takes.of_log_bind_any with
    | pause =>
        rw [show events = [] from orders]
        exact .unbegun place _ batch.children
    | skip _ _ nobody => exact absurd (List.isEmpty_iff.mpr nobody) somebody
    | fork _ _ parts whole each =>
        obtain ⟨theirs, _, rfl, together, rfl⟩ := orders
        rw [Course.inTurn, Course.inTurn_idle, List.append_nil] at shorter
        obtain ⟨gang, braid, handed, sound, braids, rfl, _⟩ :=
          gathers_of_parts place accountable whole each shorter together
        exact ⟨gang, braid, [], handed, sound, braids, rfl, .inl rfl, nofun, nofun⟩
    | join _ _ parts failures whole each through told later =>
        obtain ⟨rfl, success, failure⟩ := after_batch batch ⟨failures, false⟩ later
        obtain ⟨theirs, _, rfl, together, rfl⟩ := orders
        rw [Course.inTurn, Course.inTurn_idle, List.append_nil] at shorter
        obtain ⟨gang, braid, handed, sound, braids, rfl, fates⟩ :=
          gathers_of_parts place accountable whole each shorter together
        refine ⟨gang, braid, [], handed, sound, braids, rfl, .inl rfl, ?_, ?_⟩
        · intro well
          have nothing : failures = [] := by simpa [BatchResult.isSuccess] using success well
          subst nothing
          have succeeded := succeeded_of_nothing_told through told
          rw [← fates] at succeeded
          exact ⟨rfl, fun member inGang => succeeded _ (List.mem_map_of_mem inGang)⟩
        · intro failed
          have something : failures ≠ [] := by simpa [BatchResult.isSuccess] using failure failed
          have among := failed_of_something_told told something
          rw [← fates] at among
          exact .inr (List.mem_map.mp among)
    | giveUp _ _ parts failures whole each later =>
        obtain ⟨rfl, success, _⟩ := after_batch batch ⟨failures, true⟩ later
        obtain ⟨theirs, _, rfl, together, _, rfl, rfl⟩ := orders
        rw [Course.inTurn, List.length_append] at shorter
        obtain ⟨gang, braid, handed, sound, braids, rfl, _⟩ :=
          gathers_of_parts place accountable whole each (by omega) together
        exact ⟨gang, braid, [.gaveUp], handed, sound, braids, rfl, .inr rfl,
          fun well => (nomatch success well), fun _ => .inl (List.cons_ne_nil _ _)⟩

/-! ## Descending -/

/-- What is skipped is logged, and that does not show. -/
theorem of_logSkipped_bind {α : Type} {className : String} {nodes : List Json}
    {continuation : Unit → Plan α} {course : Course} {ended : Option (Outcome α)}
    (takes : (logSkipped className nodes >>= continuation).Takes run course ended) :
    (continuation ()).Takes run course ended := by
  unfold logSkipped at takes
  generalize Document.skipped nodes = skipped at takes
  induction skipped with
  | nil => exact takes
  | cons node skipped ih =>
      refine ih ?_
      have whole : (Plan.log (.nodeSkipped className node.print) >>= fun _ =>
          Plan.forEach (fun node => Plan.log (.nodeSkipped className node.print)) skipped
            >>= continuation).Takes run course ended := takes
      exact whole.of_log_bind_any

/-- Things that are done for each item of a list are done one after another. -/
theorem continues_of_forEach {ι : Type} {action : ι → Plan Unit}
    {group : ι → List (Waypoint × Task)} {bound : Nat} :
    ∀ {items : List ι}, (∀ item ∈ items, ∀ {course ended events},
        (action item).Takes run course ended → course.Orders events →
        course.inTurn.length < bound → Gathers run (group item) events (Fate.of ended)) →
      ∀ {course : Course} {ended : Option (Outcome Unit)} {events : List Event},
        (Plan.forEach action items).Takes run course ended → course.Orders events →
        course.inTurn.length < bound → Continues run (items.map group) events (Fate.of ended)
  | [], _, course, ended, events, takes, orders, _ => by
      obtain ⟨rfl, calm, _⟩ := takes.of_pure
      rw [show events = [] from orders]
      exact .empty calm (List.forall_mem_nil _)
  | item :: items, each, course, ended, events, takes, orders, shorter => by
      obtain ⟨first, others⟩ := List.forall_mem_cons.mp each
      rcases takes.split_bind with ⟨_, _, _, rfl, before, after⟩ | ⟨stop, stops, same, short⟩
      · obtain ⟨_, _, rfl, ahead, behind⟩ := Course.orders_append orders
        rw [Course.inTurn_append, List.length_append] at shorter
        exact (first before ahead (by omega)).next
          (continues_of_forEach others after behind (by omega))
      · rw [← same]
        exact (first stops orders shorter).stop short _

theorem gathers_of_childrenOfType {parent : Entity} {lineage : Lineage}
    (declared : String × Blueprint) {bound : Nat} (accountable : Accountable run bound)
    {course : Course} {ended : Option (Outcome Unit)} {events : List Event}
    (takes : (run.childrenOfType parent lineage declared).Takes run course ended)
    (orders : course.Orders events) (shorter : course.inTurn.length < bound) :
    Gathers run (Task.brood declared lineage (parent.childrenOf declared)) events
      (Fate.of ended) := by
  have nobody : Fate.of ended ≠ .failed → course = .idle →
      (parent.children.find? declared.1).getD [] = [] →
      Gathers run (Task.brood declared lineage (parent.childrenOf declared)) events
        (Fate.of ended) := by
    rintro calm rfl nothing
    rw [show events = [] from orders, Entity.childrenOf, nothing]
    exact .nobody calm
  unfold childrenOfType at takes
  split at takes
  · rename_i absent
    obtain ⟨idle, calm, _⟩ := takes.of_pure
    exact nobody calm idle (by rw [absent]; rfl)
  · rename_i absent
    obtain ⟨idle, calm, _⟩ := takes.of_pure
    exact nobody calm idle (by rw [absent]; rfl)
  · rename_i nodes _ present
    rw [Entity.childrenOf, present]
    exact gathers_of_children (.child declared.1) accountable (of_logSkipped_bind takes) orders
      shorter

/-- An entity without children has none of any type. -/
theorem childrenOf_eq_nil {parent : Entity} (childless : parent.hasChildren = false)
    (declared : String × Blueprint) : parent.childrenOf declared = [] := by
  rw [Entity.childrenOf, nodes_eq_nil childless]
  rfl

/-! ## Entities -/

/-- What comes after an entity has been put in place: it has children of a type that is not
declared, or its children are handed out. -/
theorem continues_of_settled {visit : Visit} {settled : Entity} {bound : Nat}
    (accountable : Accountable run bound) {course : Course}
    {ended : Option (Outcome (Option Entity))} {events : List Event}
    (takes : Plan.Takes run (do
      if (visit.placed settled).hasChildren then
        run.descend visit.blueprint (visit.placed settled) (visit.below settled)
      pure (some (visit.placed settled))) course ended)
    (orders : course.Orders events) (shorter : course.inTurn.length < bound) :
    ((undeclared? visit.blueprint (visit.placed settled)).isSome ∧ events = [] ∧
      Fate.of ended ≠ .succeeded) ∨
    (undeclared? visit.blueprint (visit.placed settled) = none ∧
      Continues run (Task.broods visit settled) events (Fate.of ended)) := by
  split at takes
  · obtain ⟨stop, stops, same⟩ := takes.of_bind_pure fun _ => ⟨_, rfl⟩
    rw [← same]
    unfold descend at stops
    split at stops
    · rename_i unknown
      obtain ⟨rfl, short⟩ := stops.of_fail
      rw [unknown]
      exact .inl ⟨rfl, orders, short⟩
    · rename_i declared
      exact .inr ⟨declared, continues_of_forEach
        (fun declared _ => gathers_of_childrenOfType declared accountable) stops orders shorter⟩
  · rename_i childless
    have childless : (visit.placed settled).hasChildren = false := by simpa using childless
    have empty : ∀ group ∈ Task.broods visit settled, group = [] := by
      intro group member
      obtain ⟨declared, _, rfl⟩ := List.mem_map.mp member
      rw [childrenOf_eq_nil childless]
      rfl
    obtain ⟨rfl, calm, _⟩ := takes.of_pure
    rw [show events = [] from orders]
    exact .inr ⟨undeclared?_eq_none childless _, .empty calm empty⟩

/-- An entity in place hands out its children. -/
theorem accounts_of_settled {visit : Visit} {own : List Event} {settled : Entity}
    (settles : (visit.settle run).Takes run (.ofEvents own .idle) (some (.value (some settled))))
    {bound : Nat} (accountable : Accountable run bound) {course : Course}
    {ended : Option (Outcome (Option Entity))} {events : List Event}
    (takes : Plan.Takes run (do
      if (visit.placed settled).hasChildren then
        run.descend visit.blueprint (visit.placed settled) (visit.below settled)
      pure (some (visit.placed settled))) course ended)
    (orders : course.Orders events) (shorter : course.inTurn.length < bound) :
    Accounts run (.entity visit)
      (.told (.begun visit) :: (own ++ .remembered run.session settled :: events))
      (Fate.of ended) := by
  rcases continues_of_settled accountable takes orders shorter with
    ⟨unknown, rfl, short⟩ | ⟨declared, gangs, history, sequel, each, rfl⟩
  · exact ⟨_, rfl, rfl, .stopped (.undeclared settles unknown short), by simp⟩
  · exact ⟨_, rfl, rfl, .handing (.entity settles declared) sequel each, by simp⟩

/-- The handling of an entity has an account. -/
theorem accountable : ∀ bound, Accountable run bound
  | 0 => fun _ _ _ _ shorter => absurd shorter (Nat.not_lt_zero _)
  | bound + 1 => by
      intro visit course ended events shorter takes orders
      rcases takes.split_note with ⟨rfl, rfl⟩ | ⟨rest, rfl, later⟩
      · rw [show events = [] from orders]
        exact ⟨_, rfl, rfl, .stopped (.unbegun visit), rfl⟩
      · obtain ⟨others, rfl, orders⟩ := orders
        rw [Event.ofNotice?, Course.after, Course.inTurn_act, List.length_cons] at shorter
        have unsettled : ∀ {own : List Event} {outcome},
            (visit.settle run).Takes run (.ofEvents own .idle) outcome →
            (∀ settled, outcome ≠ some (.value (some settled))) →
            Accounts run (.entity visit) (.told (.begun visit) :: own) (Fate.of outcome) :=
          fun settles nothing =>
            ⟨_, rfl, rfl, .stopped (.unsettled settles nothing), by simp⟩
        have handled : ((visit.settle run).bind _).Takes run rest ended := later
        rcases handled.split_bind with ⟨settled, _, second, rfl, settles, after⟩ |
          ⟨stop, stops, same, short⟩
        · obtain ⟨own, rfl, _, _⟩ := settles.of_solitary (solitary_settle visit.desired)
          rw [Course.ofEvents_append, Course.idle_append] at orders shorter
          obtain ⟨following, rfl, behind⟩ := Course.orders_ofEvents orders
          rw [Course.inTurn_ofEvents, List.length_append] at shorter
          cases settled with
          | none =>
              obtain ⟨rfl, _, rfl | rfl⟩ := after.of_pure
              · rw [show following = [] from behind, List.append_nil]
                exact unsettled settles.paused (by rintro _ ⟨⟩)
              · rw [show following = [] from behind, List.append_nil]
                exact unsettled settles (by rintro _ ⟨⟩)
          | some settled =>
              cases after with
              | pause =>
                  rw [show following = [] from behind, List.append_nil]
                  exact unsettled settles.paused (by rintro _ ⟨⟩)
              | remember _ _ _ goesOn =>
                  obtain ⟨following, rfl, further⟩ := behind
                  rw [Course.inTurn_act, List.length_cons] at shorter
                  exact accounts_of_settled settles (accountable bound) goesOn further (by omega)
        · obtain ⟨own, rfl, _, _⟩ := stops.of_solitary (solitary_settle visit.desired)
          obtain ⟨following, rfl, behind⟩ := Course.orders_ofEvents orders
          rw [show following = [] from behind, List.append_nil, ← same]
          refine unsettled stops ?_
          rintro settled rfl
          exact short rfl

theorem accounts_of_reconcile {visit : Visit} {course : Course}
    {ended : Option (Outcome (Option Entity))} {events : List Event}
    (takes : (run.reconcile visit.blueprint visit.lineage visit.desired).Takes run course ended)
    (orders : course.Orders events) : Accounts run (.entity visit) events (Fate.of ended) :=
  accountable _ visit course ended events (Nat.lt_succ_self _) takes orders

/-! ## Documents -/

theorem continues_of_roots {blueprint : Blueprint} :
    ∀ {entities : List Entity} {course : Course} {ended : Option (Outcome (List Entity))}
      {events : List Event} (start : Nat),
      (run.roots blueprint entities).Takes run course ended → course.Orders events →
      Continues run ((entities.zipIdx start).map fun root =>
        [(.root root.2, .entity ⟨blueprint, .empty, root.1⟩)]) events (Fate.of ended)
  | [], _, _, _, _, takes, orders => by
      obtain ⟨rfl, calm, _⟩ := takes.of_pure
      rw [show _ = [] from orders]
      exact .empty calm (List.forall_mem_nil _)
  | root :: entities, _, _, _, start, takes, orders => by
      have first : ∀ {course ended events},
          (run.reconcile blueprint .empty root).Takes run course ended → course.Orders events →
          Gathers run [(.root start, .entity ⟨blueprint, .empty, root⟩)] events
            (Fate.of ended) := by
        intro course ended events takes orders
        have accounts : Accounts run (.entity ⟨blueprint, .empty, root⟩) events (Fate.of ended) :=
          accounts_of_reconcile takes orders
        exact accounts.gathers (.root start)
      rcases takes.split_bind with ⟨_, _, _, rfl, handled, later⟩ | ⟨stop, stops, same, short⟩
      · obtain ⟨_, _, rfl, ahead, behind⟩ := Course.orders_append orders
        refine (first handled ahead).next ?_
        obtain ⟨stop, stops, same⟩ := later.of_bind_pure fun _ => ⟨_, rfl⟩
        rw [← same]
        exact continues_of_roots (start + 1) stops behind
      · rw [← same]
        exact (first stops orders).stop short _

theorem solitary_opening (type text : String) : (run.opening type text).Solitary False := by
  unfold opening
  refine (solitary_observe _).bind fun _ => (solitary_fetchBlueprint type).bind fun blueprint =>
    (solitary_observe _).bind fun _ => Plan.Solitary.bind ?_ fun _ =>
    (Plan.Solitary.log _).bind fun _ => .pure _
  unfold readDocument
  split
  · exact .fail _
  · exact (solitary_logSkipped _ _).bind fun _ => .pure _

theorem document_eq (type text : String) :
    run.document type text = (run.opening type text).bind fun opened =>
      run.roots opened.1 opened.2 := by
  change _ = run.opening type text >>= _
  simp only [document, opening, bind_assoc, pure_bind]

/-- **Every run of a document has an account.** -/
theorem accounts_of_document {type text : String} {course : Course}
    {ended : Option (Outcome (List Entity))} {events : List Event}
    (takes : (run.document type text).Takes run course ended) (orders : course.Orders events) :
    Accounts run (.document type text) events (Fate.of ended) := by
  rw [document_eq] at takes
  rcases takes.split_bind with ⟨⟨blueprint, entities⟩, _, rest, rfl, opens, later⟩ |
    ⟨stop, stops, same, short⟩
  · obtain ⟨own, rfl, _, _⟩ := opens.of_solitary (solitary_opening type text)
    rw [Course.ofEvents_append, Course.idle_append] at orders
    obtain ⟨following, rfl, behind⟩ := Course.orders_ofEvents orders
    obtain ⟨gangs, history, sequel, each, rfl⟩ := continues_of_roots 0 later behind
    exact ⟨_, rfl, rfl, .handing (.document opens) sequel each, by simp⟩
  · obtain ⟨own, rfl, _, _⟩ := stops.of_solitary (solitary_opening type text)
    obtain ⟨following, rfl, behind⟩ := Course.orders_ofEvents orders
    rw [show following = [] from behind, List.append_nil, ← same]
    exact ⟨_, rfl, rfl, .stopped (.unopened stops short), by simp⟩

/-! ## Catalogs -/

theorem forEach_map {ι κ : Type} (action : κ → Plan Unit) (image : ι → κ) (items : List ι) :
    Plan.forEach action (items.map image)
      = Plan.forEach (fun item => action (image item)) items := by
  induction items with
  | nil => rfl
  | cons item items ih => simp only [List.map_cons, Plan.forEach, ih]

theorem accounts_of_model {named : String × String} {course : Course}
    {ended : Option (Outcome Unit)} {events : List Event}
    (takes : (run.model named).Takes run course ended) (orders : course.Orders events) :
    Accounts run (.document (ClassName.ofModelName named.1) named.2) events (Fate.of ended) := by
  have handled : ((run.document (ClassName.ofModelName named.1) named.2).bind _).Takes run course
      ended := Plan.Takes.of_log_bind_any takes
  obtain ⟨stop, stops, same⟩ := handled.of_bind_pure fun _ => ⟨_, rfl⟩
  rw [← same]
  exact accounts_of_document stops orders

/-- **Every run of a catalog has an account.** -/
theorem accounts_of_models {documents : List (String × String)} {course : Course}
    {ended : Option (Outcome (List (String × String)))} {events : List Event}
    (takes : (run.models documents).Takes run course ended) (orders : course.Orders events) :
    Accounts run (.catalog documents) events (Fate.of ended) := by
  obtain ⟨stop, stops, same⟩ := takes.of_bind_pure fun _ => ⟨_, rfl⟩
  have named : documents = documents.zipIdx.map Prod.fst := by simp
  rw [named, forEach_map] at stops
  obtain ⟨gangs, history, sequel, each, rfl⟩ := continues_of_forEach
    (fun item _ => fun takes orders _ => (accounts_of_model takes orders).gathers
      (.document item.2)) stops orders (Nat.lt_succ_self _)
  rw [← same]
  exact ⟨_, rfl, rfl, .handing (.catalog documents) sequel each, by simp⟩

end Run

end DesiredState
