import DesiredState.Proofs.Run.Sequence

/-!
# Dry runs only read

A dry run asks for the blueprint of each document and looks each entity up at most once, and it
sends nothing else, whatever it is answered and whatever the observer does. The reason is that
of each plan the requests are within a budget that is known beforehand (`Plan.Within`): a task
has nothing but its lookup to spend (`Task.reads`), whichever branch it takes.
-/

set_option autoImplicit false

namespace DesiredState

/-! ## Budgets -/

namespace Plan

variable {run : Run} {α β : Type}

/-- Whatever is answered, the requests of the plan are among the given ones, in their order and
none of them twice. No batch is handled. -/
def Within : Plan α → List Request → Prop
  | .done _, _ => True
  | .call request next, budget =>
      ∃ rest, (request :: rest).Sublist budget ∧ ∀ exchange, (next exchange).Within rest
  | .note _ next, budget => next.Within budget
  | .remember _ _ next, budget => next.Within budget
  | .recall _ _ next, budget => ∀ known, (next known).Within budget
  | .batch _ _, _ => False

namespace Within

variable {budget : List Request}

@[simp] theorem done (outcome : Outcome α) : (Plan.done outcome).Within budget := trivial

@[simp] theorem pure (value : α) : (Pure.pure value : Plan α).Within budget := trivial

@[simp] theorem fail (failure : Failure) : (Plan.fail failure : Plan α).Within budget := trivial

@[simp] theorem tell (notice : Notice) : (Plan.tell notice).Within budget := trivial

@[simp] theorem log (event : LogEvent) : (Plan.log event).Within budget := trivial

/-- A larger budget will do. -/
theorem mono {plan : Plan α} : ∀ {budget larger : List Request}, budget.Sublist larger →
    plan.Within budget → plan.Within larger := by
  induction plan with
  | done outcome => exact fun _ _ => trivial
  | call request next ih =>
      rintro _ _ less ⟨rest, inside, within⟩
      exact ⟨rest, inside.trans less, within⟩
  | note notice next ih => exact ih
  | remember session entity next ih => exact ih
  | «recall» session entity next ih => exact fun less within known => ih known less (within known)
  | batch group next ih => exact fun _ within => within.elim

/-- The budgets of a sequence add up. -/
theorem bind {continuation : α → Plan β} {rest : List Request} {plan : Plan α} :
    ∀ {budget : List Request}, plan.Within budget →
      (∀ value, (continuation value).Within rest) →
      (plan >>= continuation).Within (budget ++ rest) := by
  intro budget within after
  change (plan.bind continuation).Within (budget ++ rest)
  revert budget
  induction plan with
  | done outcome =>
      intro budget _
      cases outcome with
      | value value => exact (after value).mono (List.sublist_append_right _ _)
      | failed failure => exact trivial
      | broken cause => exact trivial
  | call request next ih =>
      rintro budget ⟨left, inside, within⟩
      exact ⟨left ++ rest, inside.append_right rest, fun exchange => ih exchange (within exchange)⟩
  | note notice next ih => exact ih
  | remember session entity next ih => exact ih
  | «recall» session entity next ih => exact fun within known => ih known (within known)
  | batch group next ih => exact fun within => within.elim

/-- What asks for nothing leaves the budget to what follows. -/
theorem before {plan : Plan α} {continuation : α → Plan β} (first : plan.Within [])
    (after : ∀ value, (continuation value).Within budget) :
    (plan >>= continuation).Within budget := first.bind after

/-- What asks for nothing may follow. -/
theorem closing {plan : Plan α} {continuation : α → Plan β} (first : plan.Within budget)
    (after : ∀ value, (continuation value).Within []) :
    (plan >>= continuation).Within budget := by
  rw [← List.append_nil budget]
  exact first.bind after

/-- A task stays within the budget of its plan, wherever it stops. -/
theorem sublist {plan : Plan α} {ended : Option (Outcome α)} :
    ∀ {budget : List Request} {course : Course}, plan.Within budget →
      plan.Takes run course ended →
      ((calls course.inTurn).map (·.request)).Sublist budget := by
  induction plan with
  | done outcome =>
      intro budget course _ takes
      cases takes <;> exact List.nil_sublist _
  | call request next ih =>
      rintro budget course ⟨rest, inside, within⟩ takes
      cases takes with
      | pause => exact List.nil_sublist _
      | call _ exchange _ later =>
          exact ((ih exchange (within exchange) later).cons_cons _).trans inside
  | note notice next ih =>
      intro budget course within takes
      rcases takes.split_note with ⟨rfl, _⟩ | ⟨rest, rfl, later⟩
      · exact List.nil_sublist _
      · have shorter := ih within later
        cases notice <;> exact shorter
  | remember session entity next ih =>
      intro budget course within takes
      cases takes with
      | pause => exact List.nil_sublist _
      | remember _ _ _ later =>
          have shorter := ih within later
          exact shorter
  | «recall» session entity next ih =>
      intro budget course within takes
      cases takes with
      | pause => exact List.nil_sublist _
      | «recall» _ _ known _ later =>
          have shorter := ih known (within known) later
          exact shorter
  | batch group next ih => exact fun within => within.elim

/-- A task that does one thing after another stays within the budget of its plan. -/
theorem sublist_own {plan : Plan α} {ended : Option (Outcome α)} {own : List Event}
    (within : plan.Within budget) (takes : plan.Takes run (.ofEvents own .idle) ended) :
    ((calls own).map (·.request)).Sublist budget := by
  have inTurn := within.sublist takes
  rwa [Course.inTurn_ofEvents, Course.inTurn_idle, List.append_nil] at inTurn

end Within

end Plan

/-! ## What a task may ask for -/

/-- All that the task itself may ask for in a dry run. -/
def Task.reads (run : Run) : Task → List Request
  | .catalog _ => []
  | .document type _ => [⟨.get, run.settings.blueprintUri type, none⟩]
  | .entity visit =>
      (Run.lookupAddress? visit.blueprint visit.lineage visit.desired).toList.map
        (⟨.get, ·, none⟩)

namespace Access

variable {access : Access}

theorem within_trace (line : LogEvent) : (access.trace line).Within [] := by
  unfold trace
  split
  · exact .log line
  · exact .pure ()

theorem within_exchange (request : Request) : (access.exchange request).Within [request] := by
  refine (within_trace _).before fun _ => ?_
  refine ⟨[], .refl _, fun exchange => ?_⟩
  cases exchange with
  | lost cause => exact .pure _
  | answered response => exact (within_trace _).before fun _ => .pure _

theorem within_get (path : String) : (access.get path).Within [⟨.get, path, none⟩] :=
  within_exchange _

end Access

namespace Run

variable {run : Run} {blueprint : Blueprint} {lineage : Lineage}

theorem within_observe (moment : Moment) : (run.observe moment).Within [] := by
  unfold observe
  split
  · exact .pure ()
  · split
    · exact .done _
    · exact .tell _

theorem within_fetchBlueprint (type : String) :
    (run.fetchBlueprint type).Within [⟨.get, run.settings.blueprintUri type, none⟩] := by
  refine (Plan.Within.log _).before fun _ => (Access.within_get _).closing fun result => ?_
  cases result with
  | error failure => exact .fail _
  | ok response =>
      simp only
      split
      · exact .fail _
      · split
        · exact .fail _
        · split
          · exact .pure _
          · exact .fail _

theorem within_logSkipped (className : String) (nodes : List Json) :
    (logSkipped className nodes).Within [] := by
  unfold logSkipped
  induction Document.skipped nodes with
  | nil => exact .pure _
  | cons node skipped ih => exact (Plan.Within.log _).before fun _ => ih

theorem within_readDocument (className text : String) :
    (readDocument className text).Within [] := by
  unfold readDocument
  split
  · exact .fail _
  · exact (within_logSkipped _ _).before fun _ => .pure _

theorem within_opening (type text : String) :
    (run.opening type text).Within [⟨.get, run.settings.blueprintUri type, none⟩] := by
  unfold opening
  refine (within_observe _).before fun _ => ?_
  refine (within_fetchBlueprint type).closing fun blueprint => ?_
  refine (within_observe _).before fun _ => ?_
  have reads := within_readDocument (blueprint.rootClassName type) text
  -- what the text says does not matter here, so it is not read
  generalize readDocument (blueprint.rootClassName type) text = plan at reads ⊢
  exact reads.before fun _ => Plan.Within.before (.log _) fun _ => .pure _

theorem within_substitute (flagged : Bool) (entity : Entity) :
    (run.substitute flagged entity).Within [] := by
  unfold substitute
  split
  · exact (within_observe _).before fun _ => .pure _
  · exact .pure _

theorem within_reportMissing (entity : Entity) : (reportMissing blueprint entity).Within [] :=
  (Plan.Within.log _).before fun _ => .tell _

theorem within_reportExisting (remote desired : Entity) :
    (reportExisting blueprint remote desired).Within [] :=
  (Plan.Within.log _).before fun _ => .tell _

/-- In a dry run nothing is asked for once an entity has been looked up. -/
theorem within_settleAnswered (dry : run.dry = true) (desired : Entity) (uri : String)
    (response : Response) :
    (run.settleAnswered blueprint lineage desired uri response).Within [] := by
  unfold settleAnswered
  split
  · split
    · exact .fail _
    · rw [map_eq_pure_bind, settleExisting, if_pos dry]
      refine Plan.Within.before ?_ fun _ => .pure _
      exact (within_substitute _ _).before fun _ =>
        (within_reportExisting _ _).before fun _ => .pure _
  · split
    · exact (within_reportMissing desired).before fun _ => .pure _
    · exact .fail _

theorem within_lookup (dry : run.dry = true) (desired : Entity) (uri : String) :
    (run.lookup blueprint lineage desired uri).Within [⟨.get, uri, none⟩] := by
  refine (within_observe _).before fun _ => (Access.within_get uri).closing fun result => ?_
  cases result with
  | error failure => exact .fail _
  | ok response =>
      exact (within_observe _).before fun _ => within_settleAnswered dry desired uri response

/-- **In a dry run, settling an entity asks for its lookup at most.** -/
theorem within_settle (dry : run.dry = true) (visit : Visit) :
    (visit.settle run).Within ((Task.entity visit).reads run) := by
  have unable : Plan.Within (do
      reportMissing visit.blueprint visit.desired
      pure (some visit.desired)) [] := (within_reportMissing _).before fun _ => .pure _
  rw [Visit.settle, settle, lookupPath, Task.reads, lookupAddress?]
  cases visit.blueprint.lookupUri? with
  | none =>
      rw [pure_bind]
      simp only [dry, if_true]
      exact unable
  | some template =>
      simp only [resolve, Option.bind_some]
      cases Template.resolve visit.lineage visit.desired template with
      | path uri => exact within_lookup dry visit.desired uri
      | unidentified uri =>
          simp only [dry, if_true]
          exact unable
      | unfilled uri => exact .done _

end Run

/-! ## Tasks of a dry run -/

namespace Task

variable {run : Run} {task : Task} {own : List Event}

/-- A task that goes no further has asked for what it may ask for. -/
theorem Stops.within {fate : Fate} (dry : run.dry = true) (stops : task.Stops run own fate) :
    ((calls own).map (·.request)).Sublist (task.reads run) := by
  cases stops with
  | @unopened type text _ _ opens _ => exact (Run.within_opening type text).sublist_own opens
  | unbegun visit => exact List.nil_sublist _
  | @unsettled visit _ _ settles _ =>
      simpa using (Run.within_settle dry visit).sublist_own settles
  | @undeclared visit _ _ _ settles _ _ =>
      simpa using (Run.within_settle dry visit).sublist_own settles

/-- A task that has handed out others has asked for what it may ask for. -/
theorem GoesOn.within {groups : List (List (Waypoint × Task))} (dry : run.dry = true)
    (goesOn : task.GoesOn run own groups) :
    ((calls own).map (·.request)).Sublist (task.reads run) := by
  cases goesOn with
  | catalog documents => exact List.nil_sublist _
  | @document type text _ _ _ opens => exact (Run.within_opening type text).sublist_own opens
  | @entity visit _ _ settles _ => simpa using (Run.within_settle dry visit).sublist_own settles

/-- What a task may ask for only reads. -/
theorem reads_only (run : Run) (task : Task) :
    ∀ request ∈ task.reads run, request.method = .get ∧ request.body = none := by
  cases task with
  | catalog documents => exact List.forall_mem_nil _
  | document type text => exact List.forall_mem_singleton.mpr ⟨rfl, rfl⟩
  | entity visit =>
      intro request member
      obtain ⟨uri, _, rfl⟩ := List.mem_map.mp member
      exact ⟨rfl, rfl⟩

end Task

namespace History

variable {history : History} {call : Call}

/-- A call among the events of a history is one of some task. -/
theorem own_of_call (member : call ∈ calls history.events) :
    ∃ origin, call ∈ calls (history.own origin) := by
  obtain ⟨event, inEvents, calling⟩ := List.mem_filterMap.mp member
  obtain ⟨⟨origin, _⟩, inside, rfl⟩ := List.mem_map.mp inEvents
  refine ⟨origin, List.mem_filterMap.mpr ⟨_, ?_, calling⟩⟩
  exact List.mem_filterMap.mpr ⟨_, inside, if_pos rfl⟩

end History

namespace Account

variable {run : Run}

/-- A task that has asked for something is one of the account. -/
theorem Sound.part_of_own {account : Account} (sound : account.Sound run)
    (ordered : account.task.Ordered) {origin : Origin} {call : Call}
    (member : call ∈ calls (account.history.own origin)) :
    ∃ part, account.part? origin = some part := by
  obtain ⟨event, inEvents, _⟩ := List.mem_filterMap.mp member
  obtain ⟨⟨place, _⟩, inside, same⟩ := List.mem_filterMap.mp inEvents
  obtain rfl : place = origin := by
    by_contra elsewhere
    rw [if_neg elsewhere] at same
    nomatch same
  exact Option.isSome_iff_exists.mp (sound.known ordered _ inside)

/-- A call of an account is one of a task of the account. -/
theorem Sound.part_of_call {account : Account} (sound : account.Sound run)
    (ordered : account.task.Ordered) {call : Call} (member : call ∈ calls account.history.events) :
    ∃ origin part, account.part? origin = some part ∧
      call ∈ calls (account.history.own origin) := by
  obtain ⟨origin, inOwn⟩ := History.own_of_call member
  obtain ⟨part, found⟩ := sound.part_of_own ordered inOwn
  exact ⟨origin, part, found, inOwn⟩

/-- The account of a task below is true. -/
theorem Sound.of_part? : ∀ {origin : Origin} {account part : Account}, account.Sound run →
    account.task.Ordered → account.part? origin = some part → part.Sound run ∧ part.task.Ordered
  | [], _, _, sound, ordered, found => by
      cases found
      exact ⟨sound, ordered⟩
  | place :: rest, _, _, sound, ordered, found => by
      obtain ⟨member, inMembers, rfl, below⟩ := member_of_part? found
      obtain ⟨sounds, orders⟩ := sound.of_member ordered member inMembers
      exact sounds.of_part? orders below

/-- A task asks only for what it does itself, before it hands out others. -/
theorem Sound.calls_own {account part : Account} {origin : Origin} (sound : account.Sound run)
    (ordered : account.task.Ordered) (found : account.part? origin = some part) :
    calls (account.history.own origin) = calls part.own := by
  obtain ⟨closing, same, rfl | rfl⟩ := sound.own ordered found
  · rw [same, List.append_nil]
  · rw [same, calls_append]
    exact List.append_nil _

/-- In a dry run each task has asked for what it may ask for. -/
theorem Sound.within {account : Account} (dry : run.dry = true) (sound : account.Sound run) :
    ((calls account.own).map (·.request)).Sublist (account.task.reads run) := by
  rcases sound.form with ⟨_, _, stops⟩ | ⟨_, _, goesOn, _, _⟩
  · exact stops.within dry
  · exact goesOn.within dry

/-- All that the task at the end of a way has asked for is what it may ask for. -/
theorem Sound.within_own {account part : Account} {origin : Origin} (dry : run.dry = true)
    (sound : account.Sound run) (ordered : account.task.Ordered)
    (found : account.part? origin = some part) :
    ((calls (account.history.own origin)).map (·.request)).Sublist (part.task.reads run) := by
  rw [sound.calls_own ordered found]
  exact (sound.of_part? ordered found).1.within dry

end Account

namespace Run

/-! ## Dry runs -/

/-- The events are those of an account of the task in which each task has at most asked for what it
may ask for, so that nothing is written. -/
structure OnlyReads (run : Run) (task : Task) (events : List Event) : Prop where
  reads : ∀ call ∈ calls events, call.request.method = .get ∧ call.request.body = none
  attributed : ∃ account : Account, account.task = task ∧ account.Sound run ∧
    account.history.events = events ∧
    (∀ entry ∈ account.history, ∃ part, account.part? entry.1 = some part) ∧
    ∀ origin part, account.part? origin = some part →
      ((calls (account.history.own origin)).map (·.request)).Sublist (part.task.reads run)

/-- The events of an account are read off the origins at which they stand. -/
theorem Accounts.onlyReads {run : Run} (dry : run.dry = true) {task : Task} (ordered : task.Ordered)
    {events : List Event} {fate : Fate} (accounts : Accounts run task events fate) :
    OnlyReads run task events := by
  obtain ⟨account, rfl, _, sound, rfl⟩ := accounts
  have known : ∀ entry ∈ account.history, ∃ part, account.part? entry.1 = some part := by
    rintro ⟨origin, event⟩ inside
    exact Option.isSome_iff_exists.mp (sound.known ordered event inside)
  have within : ∀ origin part, account.part? origin = some part →
      ((calls (account.history.own origin)).map (·.request)).Sublist (part.task.reads run) :=
    fun _ _ found => sound.within_own dry ordered found
  refine ⟨?_, account, rfl, sound, rfl, known, within⟩
  intro call member
  obtain ⟨origin, part, found, inOwn⟩ := sound.part_of_call ordered member
  exact part.task.reads_only run call.request
    ((within origin part found).subset (List.mem_map_of_mem inOwn))

/-- **A dry run only reads.** Wherever a dry run has got to, whatever it was answered, whatever the
observer does and in whatever order its tasks acted, it has asked for the blueprint of each document
and for each entity at the address of the entity, at most once each, and it has sent nothing
else. -/
theorem dry_run_only_reads {run : Run} (dry : run.dry = true) :
    (∀ documents events (stage : Stage ChildTask (List (String × String))),
      Stage.Steps run (.active (run.models documents)) events stage →
        OnlyReads run (.catalog documents) events) ∧
    ∀ type text events (stage : Stage ChildTask (List Entity)),
      Stage.Steps run (.active (run.document type text)) events stage →
        OnlyReads run (.document type text) events := by
  refine ⟨?_, ?_⟩
  · intro documents events stage steps
    obtain ⟨course, takes, orders⟩ := steps.takes
    have ordered : (Task.catalog documents).Ordered := trivial
    exact (accounts_of_models takes orders).onlyReads dry ordered
  · intro type text events stage steps
    obtain ⟨course, takes, orders⟩ := steps.takes
    have ordered : (Task.document type text).Ordered := trivial
    exact (accounts_of_document takes orders).onlyReads dry ordered

end Run

/-! ## A dry run of a document -/

namespace Sample

/-- A store that holds the blueprint and the thing, but none of its parts. -/
def stocked : String → Held := fun path =>
  if path = "/things/a" then some ⟨[("name", .string "a")], by decide⟩ else shelf path

/-- What the tasks of a run or of a dry run work with. -/
def trial (dry : Bool) : Run := { run 2 with dry }

/-- A run or a dry run of a document on a store. -/
def attempt (dry : Bool) (start : String → Held) (text : String) :
    RunResult ((String → Held) × List Call) (List Entity) :=
  (Engine.create ⟨"/blueprints", 2, 1000, "sample"⟩ none dry).execute
    ⟨⟨0⟩, .direct, .recorded respond⟩ 60 (·.document "Thing" text) (start, [])

/-- What is known of an attempt that has succeeded. -/
theorem attempted {dry : Bool} {start : String → Held} {text : String}
    (value : Outcome.isValue (attempt dry start text).outcome = true) :
    ∃ events, ∃ roots : List Entity,
      Stage.Steps (trial dry) (.active ((trial dry).document "Thing" text)) events
        (.finished (.value roots)) ∧
      calls events = (attempt dry start text).server.2.reverse ∧
      visits events = (attempt dry start text).notices.filterMap Notice.visit? ∧
      reports events = (attempt dry start text).notices.filterMap Notice.report? := by
  obtain ⟨roots, ended⟩ := Outcome.value_of_isValue value
  obtain ⟨events, steps, _, known⟩ :=
    Engine.execute_recorded _ _ _ _ _ _ _ (rfl : _ = attempt dry start text) ended
  exact ⟨events, roots, steps, known⟩

/-- The kind of a report, and the type and label of the entity it is about. -/
def headline : Report → String × String × String
  | .creation type label _ => ("create", type, label)
  | .difference type label _ => ("difference", type, label)

/-- The thing is found and its parts are not; the dry run succeeds. -/
theorem rehearsal_asks : Outcome.isValue (attempt true stocked family).outcome = true ∧
    (attempt true stocked family).server.2.reverse.map (·.request.path)
      = ["/blueprints/Thing", "/things/a", "/parts/b", "/parts/c"] ∧
    ((attempt true stocked family).notices.filterMap Notice.report?).map headline
      = [("difference", "Thing", "a"), ("create", "Part", "b"), ("create", "Part", "c")] := by
  decide +kernel

/-- The dry run has looked the thing and its parts up, and it has sent nothing else. -/
theorem family_only_looked_up : ∃ events, ∃ roots : List Entity,
    Stage.Steps (trial true) (.active ((trial true).document "Thing" family)) events
      (.finished (.value roots)) ∧
    (calls events).map (·.request.path)
      = ["/blueprints/Thing", "/things/a", "/parts/b", "/parts/c"] ∧
    Run.OnlyReads (trial true) (.document "Thing" family) events := by
  obtain ⟨value, paths, _⟩ := rehearsal_asks
  obtain ⟨events, roots, steps, called, _⟩ := attempted value
  have dry : (trial true).dry = true := rfl
  refine ⟨events, roots, steps, ?_, (Run.dry_run_only_reads dry).2 _ _ _ _ steps⟩
  rw [called]
  exact paths

end Sample

end DesiredState
