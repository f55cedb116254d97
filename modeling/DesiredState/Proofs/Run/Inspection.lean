import DesiredState.Proofs.Run.Coverage
import DesiredState.Proofs.Run.Dry

/-!
# What a dry run reports

A dry run without an observer makes one report of each entity that it reaches: that the entity
would be created, if it cannot be looked up or is not found, and in which fields it differs, if it
is found. The roots are reached, and so are the children of a reached entity unless the entity was
not found.

**Why accounts.** The reports of tasks that act side by side come in any order, and a report does
not say which task has made it. So it is shown of each task what it has done itself
(`Visit.Inspects`), and the account of the run puts the tasks together (`Sound.inspected`).
-/

set_option autoImplicit false

namespace DesiredState

/-! ## The inspection of an entity -/

namespace Visit

/-- No lookup is possible: there is no template, or it asks for a uuid that is not known. -/
def Unaddressed (visit : Visit) : Prop :=
  ∀ template, visit.blueprint.lookupUri? = some template →
    ∃ uri, Template.resolve visit.lineage visit.desired template = .unidentified uri

/-- All that a dry run does for an entity itself, with the entity whose children come next: it is
reported that the entity would be created, or in which fields it differs from what was found. -/
inductive Inspects (visit : Visit) : List Event → Option Entity → Prop
  | unaddressed (unable : visit.Unaddressed) :
      Inspects visit
        [.told (.report (.creation visit.desired.type visit.desired.label visit.desired.body))]
        (some visit.desired)
  | missing {uri : String} {response : Response}
      (address : Run.lookupAddress? visit.blueprint visit.lineage visit.desired = some uri)
      (status : response.status = CallFailure.missingStatus) :
      Inspects visit
        [.called ⟨⟨.get, uri, none⟩, .answered response⟩,
          .told (.report (.creation visit.desired.type visit.desired.label visit.desired.body))]
        none
  | found {uri : String} {response : Response} {value : Json}
      (address : Run.lookupAddress? visit.blueprint visit.lineage visit.desired = some uri)
      (status : response.status = Run.foundStatus) (spelled : response.json? = some value) :
      Inspects visit
        [.called ⟨⟨.get, uri, none⟩, .answered response⟩,
          .told (.report (.difference visit.desired.type visit.desired.label
            (Report.differences (.ofRemote value visit.desired.className) visit.desired)))]
        (some (visit.desired.laidOver (.ofRemote value visit.desired.className)))

/-- The calls show that the lookup of the entity has failed, or its template cannot be filled. -/
inductive LookupFails (visit : Visit) (sent : List Call) : Prop
  | unfilled {template uri : String} (given : visit.blueprint.lookupUri? = some template)
      (unfilled : Template.resolve visit.lineage visit.desired template = .unfilled uri)
  | lost {request : Request} {cause : String} (member : ⟨request, .lost cause⟩ ∈ sent)
  | unexpected {request : Request} {response : Response}
      (member : ⟨request, .answered response⟩ ∈ sent) (notFound : response.status ≠ Run.foundStatus)
      (notMissing : response.status ≠ CallFailure.missingStatus)
  | undecodable {request : Request} {response : Response}
      (member : ⟨request, .answered response⟩ ∈ sent) (status : response.status = Run.foundStatus)
      (garbled : response.json? = none)

variable {visit : Visit} {own : List Event} {result : Option Entity}

/-- An entity that cannot be looked up has no address. -/
theorem Unaddressed.address_eq_none (unable : visit.Unaddressed) :
    Run.lookupAddress? visit.blueprint visit.lineage visit.desired = none := by
  rw [Run.lookupAddress?]
  cases given : visit.blueprint.lookupUri? with
  | none => rfl
  | some template =>
      obtain ⟨uri, unidentified⟩ := unable template given
      rw [Option.bind_some, unidentified]
      rfl

/-- After an answer the lookup fails only if the answer is no good. -/
theorem LookupFails.of_answered {uri : String} {request : Request} {response : Response}
    (address : Run.lookupAddress? visit.blueprint visit.lineage visit.desired = some uri)
    (fails : visit.LookupFails [⟨request, .answered response⟩]) :
    (response.status ≠ Run.foundStatus ∧ response.status ≠ CallFailure.missingStatus) ∨
      (response.status = Run.foundStatus ∧ response.json? = none) := by
  cases fails with
  | unfilled given unfilled =>
      simp [Run.lookupAddress?, given, unfilled, Template.Resolution.path?] at address
  | lost member => simp at member
  | unexpected member notFound notMissing =>
      obtain ⟨_, rfl⟩ : _ ∧ _ := by simpa using member
      exact .inl ⟨notFound, notMissing⟩
  | undecodable member status garbled =>
      obtain ⟨_, rfl⟩ : _ ∧ _ := by simpa using member
      exact .inr ⟨status, garbled⟩

/-- An entity that was inspected was looked up, or no lookup was possible. -/
theorem Inspects.not_lookupFails (inspects : visit.Inspects own result) :
    ¬ visit.LookupFails (calls own) := by
  intro fails
  cases inspects with
  | unaddressed unable =>
      cases fails with
      | unfilled given unfilled =>
          obtain ⟨uri, unidentified⟩ := unable _ given
          cases unfilled.symm.trans unidentified
      | lost member => cases member
      | unexpected member _ _ => cases member
      | undecodable member _ _ => cases member
  | missing address status =>
      rcases fails.of_answered address with ⟨_, notMissing⟩ | ⟨found, _⟩
      · exact notMissing status
      · exact absurd (found.symm.trans status) (by decide)
  | found address status spelled =>
      rcases fails.of_answered address with ⟨notFound, _⟩ | ⟨_, garbled⟩
      · exact notFound status
      · cases garbled.symm.trans spelled

end Visit

/-! ## What the plan of a dry run does -/

namespace Access

variable {run : Run} {access : Access} {α : Type} {course : Course}
  {ended : Option (Outcome α)}

/-- What is logged of a request does not show. -/
theorem takes_trace_bind {line : LogEvent} {continuation : Unit → Plan α}
    (takes : (access.trace line >>= continuation).Takes run course ended) :
    (continuation ()).Takes run course ended := by
  unfold trace at takes
  split at takes
  · exact takes.of_log_bind_any
  · exact takes

/-- A path that is read has been asked for, or nothing has been done. -/
theorem takes_get_bind {path : String}
    {continuation : Except CallFailure Response → Plan α}
    (takes : (access.get path >>= continuation).Takes run course ended) :
    (course = .idle ∧ ended = none) ∨
      ∃ exchange rest, course = .act (.called ⟨⟨.get, path, none⟩, exchange⟩) rest ∧
        (continuation (access.received ⟨.get, path, none⟩ exchange)).Takes run rest ended := by
  rw [get, exchange, bind_assoc] at takes
  have sent := takes_trace_bind takes
  cases sent with
  | pause => exact .inl ⟨rfl, rfl⟩
  | call _ exchange _ later =>
      refine .inr ⟨exchange, _, rfl, ?_⟩
      cases exchange with
      | lost cause => exact later
      | answered response =>
          have told : ((access.trace (.responseReceived .get (access.address path)
              response.status) >>= fun _ => pure (.ok response)) >>= continuation).Takes run _
              ended := later
          rw [bind_assoc] at told
          exact takes_trace_bind told

end Access

namespace Run

variable {run : Run} {visit : Visit}

section

variable {α : Type} {course : Course} {ended : Option (Outcome α)} {continuation : Unit → Plan α}

/-- A report has been made, or nothing has been done. -/
theorem takes_report_bind {report : Report}
    (takes : (Plan.tell (.report report) >>= continuation).Takes run course ended) :
    (course = .idle ∧ ended = none) ∨
      ∃ rest, course = .act (.told (.report report)) rest ∧
        (continuation ()).Takes run rest ended := Plan.Takes.split_note takes

theorem takes_reportMissing_bind {blueprint : Blueprint} {entity : Entity}
    (takes : (reportMissing blueprint entity >>= continuation).Takes run course ended) :
    (course = .idle ∧ ended = none) ∨
      ∃ rest, course = .act (.told (.report (.ofMissing entity))) rest ∧
        (continuation ()).Takes run rest ended := by
  rw [reportMissing, bind_assoc] at takes
  exact takes_report_bind takes.of_log_bind_any

theorem takes_reportExisting_bind {blueprint : Blueprint} {remote desired : Entity}
    (takes : (reportExisting blueprint remote desired >>= continuation).Takes run course ended) :
    (course = .idle ∧ ended = none) ∨
      ∃ rest, course = .act (.told (.report (.ofExisting remote desired))) rest ∧
        (continuation ()).Takes run rest ended := by
  rw [reportExisting, bind_assoc] at takes
  exact takes_report_bind takes.of_log_bind_any

end

/-- The observer is not told anything if there is none. -/
theorem observe_unobserved (unobserved : run.observer = none) (moment : Moment) :
    run.observe moment = pure () := by
  rw [observe, unobserved]

theorem substitute_unobserved (unobserved : run.observer = none) (flagged : Bool)
    (entity : Entity) : run.substitute flagged entity = pure entity := by
  simp [substitute, unobserved]

/-- How far the inspection of an entity has got: nothing is reported, and it has failed only if the
lookup has, or all is done. -/
def Inspecting (visit : Visit) (own : List Event) (ended : Option (Outcome (Option Entity))) :
    Prop :=
  (reports own = [] ∧ Fate.of ended ≠ .succeeded ∧
    (Fate.of ended = .failed → visit.LookupFails (calls own))) ∨
  ∃ result, visit.Inspects own result ∧ (ended = none ∨ ended = some (.value result))

variable {course : Course} {ended : Option (Outcome (Option Entity))}

/-- A task that has stopped for now. -/
theorem Inspecting.paused {own : List Event} (silent : reports own = []) :
    Inspecting visit own none := .inl ⟨silent, nofun, nofun⟩

/-- A task that fails, since the lookup has failed. -/
theorem Inspecting.of_fail {own : List Event} {failure : Failure} (silent : reports own = [])
    (fails : visit.LookupFails (calls own))
    (takes : (Plan.fail failure : Plan (Option Entity)).Takes run course ended) :
    course = .idle ∧ Inspecting visit own ended := by
  obtain ⟨idle, short⟩ := takes.of_fail
  exact ⟨idle, .inl ⟨silent, short, fun _ => fails⟩⟩

/-- Once the entity has been reported, the inspection is done. -/
theorem Inspecting.of_pure {own : List Event} {result : Option Entity}
    (inspects : visit.Inspects own result)
    (takes : (pure result : Plan (Option Entity)).Takes run course ended) :
    course = .idle ∧ Inspecting visit own ended := by
  obtain ⟨idle, _, stopped⟩ := takes.of_pure
  exact ⟨idle, .inr ⟨result, inspects, stopped⟩⟩

/-- The inspection of an entity that has been looked up. -/
theorem inspecting_of_settleAnswered (dry : run.dry = true) (unobserved : run.observer = none)
    {uri : String} {response : Response}
    (address : lookupAddress? visit.blueprint visit.lineage visit.desired = some uri)
    (takes : (run.settleAnswered visit.blueprint visit.lineage visit.desired uri response).Takes run
      course ended) :
    ∃ own, course = .ofEvents own .idle ∧
      Inspecting visit (.called ⟨⟨.get, uri, none⟩, .answered response⟩ :: own) ended := by
  have silent : reports [.called ⟨⟨.get, uri, none⟩, .answered response⟩] = [] := rfl
  unfold settleAnswered at takes
  split at takes
  · rename_i status
    split at takes
    · rename_i garbled
      have fails : visit.LookupFails [⟨⟨.get, uri, none⟩, .answered response⟩] :=
        .undecodable (List.mem_singleton_self _) status garbled
      obtain ⟨rfl, inspecting⟩ := Inspecting.of_fail silent fails takes
      exact ⟨[], rfl, inspecting⟩
    · rename_i value spelled
      rw [map_eq_pure_bind, settleExisting, if_pos dry, substitute_unobserved unobserved,
        pure_bind, bind_assoc] at takes
      rcases takes_reportExisting_bind takes with ⟨rfl, rfl⟩ | ⟨rest, rfl, later⟩
      · exact ⟨[], rfl, .paused rfl⟩
      · obtain ⟨rfl, inspecting⟩ := Inspecting.of_pure (.found address status spelled) later
        exact ⟨[_], rfl, inspecting⟩
  · split at takes
    · rename_i status
      rcases takes_reportMissing_bind takes with ⟨rfl, rfl⟩ | ⟨rest, rfl, later⟩
      · exact ⟨[], rfl, .paused rfl⟩
      · obtain ⟨rfl, inspecting⟩ := Inspecting.of_pure (.missing address status) later
        exact ⟨[_], rfl, inspecting⟩
    · rename_i notFound notMissing
      have fails : visit.LookupFails [⟨⟨.get, uri, none⟩, .answered response⟩] :=
        .unexpected (List.mem_singleton_self _) notFound notMissing
      obtain ⟨rfl, inspecting⟩ := Inspecting.of_fail silent fails takes
      exact ⟨[], rfl, inspecting⟩

/-- The inspection of an entity that is looked up at a path. -/
theorem inspecting_of_lookup (dry : run.dry = true) (unobserved : run.observer = none)
    {uri : String}
    (address : lookupAddress? visit.blueprint visit.lineage visit.desired = some uri)
    (takes : (run.lookup visit.blueprint visit.lineage visit.desired uri).Takes run course ended) :
    ∃ own, course = .ofEvents own .idle ∧ Inspecting visit own ended := by
  simp only [lookup, observe_unobserved unobserved, pure_bind] at takes
  rcases Access.takes_get_bind takes with ⟨rfl, rfl⟩ | ⟨exchange, rest, rfl, later⟩
  · exact ⟨[], rfl, .paused rfl⟩
  · cases exchange with
    | lost cause =>
        have fails : visit.LookupFails [⟨⟨.get, uri, none⟩, .lost cause⟩] :=
          .lost (List.mem_singleton_self _)
        have silent : reports [.called ⟨⟨.get, uri, none⟩, .lost cause⟩] = [] := rfl
        obtain ⟨rfl, inspecting⟩ := Inspecting.of_fail silent fails later
        exact ⟨[_], rfl, inspecting⟩
    | answered response =>
        obtain ⟨own, rfl, inspecting⟩ :=
          inspecting_of_settleAnswered dry unobserved address later
        exact ⟨_ :: own, rfl, inspecting⟩

/-- The inspection of an entity that cannot be looked up. -/
theorem inspecting_of_unaddressed (unable : visit.Unaddressed)
    (takes : Plan.Takes run (do
      reportMissing visit.blueprint visit.desired
      pure (some visit.desired)) course ended) :
    ∃ own, course = .ofEvents own .idle ∧ Inspecting visit own ended := by
  rcases takes_reportMissing_bind takes with ⟨rfl, rfl⟩ | ⟨rest, rfl, later⟩
  · exact ⟨[], rfl, .paused rfl⟩
  · obtain ⟨rfl, inspecting⟩ := Inspecting.of_pure (.unaddressed unable) later
    exact ⟨[_], rfl, inspecting⟩

/-- **In a dry run, settling an entity is inspecting it.** -/
theorem inspecting_of_settle (dry : run.dry = true) (unobserved : run.observer = none)
    (takes : (visit.settle run).Takes run course ended) :
    ∃ own, course = .ofEvents own .idle ∧ Inspecting visit own ended := by
  rw [Visit.settle, settle, lookupPath] at takes
  cases given : visit.blueprint.lookupUri? with
  | none =>
      rw [given, pure_bind] at takes
      simp only [dry, if_true] at takes
      refine inspecting_of_unaddressed (fun template also => ?_) takes
      cases given.symm.trans also
  | some template =>
      rw [given] at takes
      simp only [resolve] at takes
      cases resolved : Template.resolve visit.lineage visit.desired template with
      | path uri =>
          rw [resolved] at takes
          refine inspecting_of_lookup dry unobserved ?_ takes
          rw [lookupAddress?, given, Option.bind_some, resolved]
          rfl
      | unidentified uri =>
          rw [resolved] at takes
          simp only [bind_assoc, pure_bind, dry, if_true] at takes
          refine inspecting_of_unaddressed (fun other also => ?_) takes.of_log_bind_any
          obtain rfl := Option.some.inj (given.symm.trans also)
          exact ⟨uri, resolved⟩
      | unfilled uri =>
          rw [resolved] at takes
          have fails : visit.LookupFails (calls []) := .unfilled given resolved
          obtain ⟨rfl, inspecting⟩ := Inspecting.of_fail reports_nil fails takes
          exact ⟨[], rfl, inspecting⟩

/-- What a task has done itself, when it has inspected its entity. -/
theorem inspecting_own (dry : run.dry = true) (unobserved : run.observer = none)
    {own : List Event} (takes : (visit.settle run).Takes run (.ofEvents own .idle) ended) :
    Inspecting visit own ended := by
  obtain ⟨events, same, inspecting⟩ := inspecting_of_settle dry unobserved takes
  rwa [Course.ofEvents_idle_inj same]

/-- When the lookup of an entity has failed, nothing is reported. -/
theorem reports_of_lookupFails (dry : run.dry = true) (unobserved : run.observer = none)
    {own : List Event} (takes : (visit.settle run).Takes run (.ofEvents own .idle) ended)
    (fails : visit.LookupFails (calls own)) : reports own = [] := by
  rcases inspecting_own dry unobserved takes with ⟨silent, _⟩ | ⟨result, inspects, _⟩
  · exact silent
  · exact absurd fails inspects.not_lookupFails

/-- What is answered is no blueprint, or the text is no document. -/
def OpeningFails (text : String) (exchange : Exchange) : Prop :=
  Document.nodes? text = none ∨ ∀ response value blueprint, exchange = .answered response →
    response.isSuccess = true → response.json? = some value → Blueprint.read value ≠ .ok blueprint

/-- Opening a document asks for its blueprint and makes no report. -/
theorem own_of_opening (unobserved : run.observer = none) {type text : String} {course : Course}
    {ended : Option (Outcome (Blueprint × List Entity))}
    (takes : (run.opening type text).Takes run course ended) :
    (course = .idle ∧ ended = none) ∨ ∃ exchange,
      course = .ofEvents [.called ⟨⟨.get, run.settings.blueprintUri type, none⟩, exchange⟩] .idle ∧
        (Fate.of ended = .failed → OpeningFails text exchange) := by
  simp only [opening, observe_unobserved unobserved, pure_bind, fetchBlueprint, bind_assoc]
    at takes
  rcases Access.takes_get_bind takes.of_log_bind_any with ⟨rfl, rfl⟩ | ⟨exchange, rest, rfl, later⟩
  · exact .inl ⟨rfl, rfl⟩
  · refine .inr ⟨exchange, ?_⟩
    have failing : rest = .idle → OpeningFails text exchange →
        Course.act (.called ⟨⟨.get, run.settings.blueprintUri type, none⟩, exchange⟩) rest
          = .ofEvents [.called ⟨⟨.get, run.settings.blueprintUri type, none⟩, exchange⟩] .idle ∧
        (Fate.of ended = .failed → OpeningFails text exchange) := by
      rintro rfl fails
      exact ⟨rfl, fun _ => fails⟩
    cases exchange with
    | lost cause => exact failing later.of_fail.1 (.inr (by rintro _ _ _ ⟨⟩))
    | answered response =>
        simp only [Access.received] at later
        split at later
        · rename_i unsuccessful
          refine failing later.of_fail.1 (.inr ?_)
          rintro other _ _ same success
          cases same
          simp [success] at unsuccessful
        · split at later
          · rename_i garbled
            refine failing later.of_fail.1 (.inr ?_)
            rintro other _ _ same _ spelled
            cases same
            cases spelled.symm.trans garbled
          · rename_i value spelled
            split at later
            · rw [pure_bind, readDocument] at later
              split at later
              · rename_i unread
                exact failing later.of_fail.1 (.inl unread)
              · rw [bind_assoc] at later
                have goesOn := (of_logSkipped_bind later).of_log_bind_any
                obtain ⟨rfl, calm, _⟩ := goesOn.of_pure
                exact ⟨rfl, fun failed => absurd failed calm⟩
            · rename_i defect unreadable
              refine failing later.of_fail.1 (.inr ?_)
              rintro other _ _ same _ also read
              cases same
              obtain rfl := Option.some.inj (spelled.symm.trans also)
              cases unreadable.symm.trans read

/-- Opening a document makes no report. -/
theorem reports_of_opening (unobserved : run.observer = none) {type text : String}
    {own : List Event} {ended : Option (Outcome (Blueprint × List Entity))}
    (opens : (run.opening type text).Takes run (.ofEvents own .idle) ended) : reports own = [] := by
  rcases own_of_opening unobserved opens with ⟨idle, _⟩ | ⟨exchange, same, _⟩
  · obtain rfl : own = [] := Course.ofEvents_idle_inj idle
    rfl
  · obtain rfl := Course.ofEvents_idle_inj same
    rfl

end Run

/-! ## Tasks that are through -/

namespace Task

variable {run : Run} {visit : Visit} {own : List Event}

/-- A task that is through without handing out others has not found its entity. -/
theorem Stops.inspects (dry : run.dry = true) (unobserved : run.observer = none)
    (stops : (Task.entity visit).Stops run own .succeeded) :
    ∃ mine, visit.Inspects mine none ∧ calls own = calls mine ∧ reports own = reports mine := by
  generalize well : Fate.succeeded = fate at stops
  cases stops with
  | unbegun visit => nomatch well
  | @unsettled _ mine _ settles nothing =>
      obtain ⟨result, rfl⟩ := Fate.value_of_succeeded well.symm
      rcases Run.inspecting_own dry unobserved settles with ⟨_, short, _⟩ |
        ⟨result, inspects, ended | ended⟩
      · exact absurd rfl short
      · nomatch ended
      · cases ended
        cases result with
        | some settled => exact absurd rfl (nothing settled)
        | none => exact ⟨mine, inspects, rfl, rfl⟩
  | undeclared _ _ short => exact absurd well.symm short

/-- A task that hands out others has inspected its entity, and hands out the children of what it has
supposed to be in place. -/
theorem GoesOn.inspects (dry : run.dry = true) (unobserved : run.observer = none)
    {groups : List (List (Waypoint × Task))} (goesOn : (Task.entity visit).GoesOn run own groups) :
    ∃ mine settled, visit.Inspects mine (some settled) ∧ calls own = calls mine ∧
      reports own = reports mine ∧ groups = broods visit settled ∧
      Run.undeclared? visit.blueprint (visit.placed settled) = none := by
  cases goesOn with
  | @entity _ mine settled settles declared =>
      rcases Run.inspecting_own dry unobserved settles with ⟨_, short, _⟩ |
        ⟨result, inspects, ended | ended⟩
      · exact absurd rfl short
      · nomatch ended
      · cases ended
        exact ⟨mine, settled, inspects, by simp, by simp, rfl, declared⟩

end Task

namespace Account

variable {run : Run}

/-- When all groups are through, each of them was handed out, and all events are of members. -/
theorem Sequel.through_all {groups : List (List (Waypoint × Task))}
    {gangs : List (List (Waypoint × Account))} {history : History}
    (sequel : Sequel groups gangs history .succeeded) :
    gangs.flatten.map (fun member => member.2.task) = groups.flatten.map (·.2) ∧
      history.events.Perm (gangs.flatten.flatMap fun member => member.2.history.events) := by
  generalize well : Fate.succeeded = fate at sequel
  induction sequel with
  | pending groups => nomatch well
  | through => exact ⟨rfl, .refl _⟩
  | last closing _ _ _ short _ => exact absurd well.symm short
  | @next group groups gang gangs braid _ _ handed braids _ _ ih =>
      obtain ⟨tasks, events⟩ := ih well
      have mine : braid.events.Perm (gang.flatMap fun member => member.2.history.events) := by
        have all := braids.perm.map Prod.snd
        rw [List.map_flatten, List.map_map, ← List.flatMap_def] at all
        refine all.trans (.of_eq (List.flatMap_congr ?_))
        intro member _
        exact events_thread member
      rw [List.flatten_cons, List.flatten_cons, List.map_append, List.map_append, tasks, ← handed,
        List.map_map, History.events_append, List.flatMap_append]
      exact ⟨rfl, mine.append events⟩

end Account

namespace Task

/-- The children of an entity in place are handed out as its offspring. -/
theorem tasks_broods (visit : Visit) (settled : Entity) :
    (broods visit settled).flatten.map (·.2)
      = (visit.blueprint.offspring (visit.placed settled)).map
          fun child => .entity ⟨child.1, visit.below settled, child.2⟩ := by
  have tasks : ∀ (declared : String × Blueprint) (children : List Entity),
      (brood declared (visit.below settled) children).map (·.2)
        = children.map fun child => .entity ⟨declared.2, visit.below settled, child⟩ := by
    intro declared children
    have images : brood declared (visit.below settled) children
        = children.zipIdx.map fun child =>
          (.child declared.1 child.2, .entity ⟨declared.2, visit.below settled, child.1⟩) := rfl
    rw [images, List.map_map]
    conv_rhs => rw [← List.zipIdx_map_fst 0 children, List.map_map]
    rfl
  rw [broods, Blueprint.offspring, ← List.flatMap_def, List.map_flatMap, List.map_flatMap]
  simp only [tasks, List.map_map]
  rfl

/-- The roots of a document are handed out in their order. -/
theorem tasks_roots (blueprint : Blueprint) (entities : List Entity) :
    (roots blueprint entities).flatten.map (·.2)
      = entities.map fun root => .entity ⟨blueprint, .empty, root⟩ := by
  conv_rhs => rw [← List.zipIdx_map_fst 0 entities, List.map_map]
  rw [roots, ← List.flatMap_def, List.map_flatMap, List.map_eq_flatMap]
  rfl

end Task

/-! ## Trees of reports -/

/-- A node that was reached, with the reports on it and on all nodes below. -/
structure Finding where
  /-- The type under which the node stands. -/
  type : String
  blueprint : Blueprint
  node : Json
  reports : List Report

/-- The node of a finding, with its type and its blueprint. -/
def Finding.origin (finding : Finding) : String × Blueprint × Json :=
  (finding.type, finding.blueprint, finding.node)

/-- A node and all that is reached from it were inspected with the reports, given the calls of the
run. -/
inductive Inspected (sent : List Call) :
    Blueprint → String → Lineage → Json → List Report → Prop
  /-- The entity of the node was not found; nothing below it is reached. -/
  | missing {blueprint : Blueprint} {className : String} {lineage : Lineage} {node : Json}
      (members : NameMap Json) (own : List Event) (isObject : node.members? = some members)
      (inRun : ∀ call ∈ calls own, call ∈ sent)
      (inspects : Visit.Inspects ⟨blueprint, lineage, .ofNode members className⟩ own none) :
      Inspected sent blueprint className lineage node (reports own)
  /-- The entity was found or cannot be looked up; each of its children is reached. -/
  | reached {blueprint : Blueprint} {className : String} {lineage : Lineage} {node : Json}
      (members : NameMap Json) (own : List Event) (settled : Entity) (findings : List Finding)
      (isObject : node.members? = some members) (inRun : ∀ call ∈ calls own, call ∈ sent)
      (inspects :
        Visit.Inspects ⟨blueprint, lineage, .ofNode members className⟩ own (some settled))
      (whole : (findings.map fun finding => (finding.type, finding.node)).Perm
        (Document.childNodes node))
      (declared : ∀ finding ∈ findings, blueprint.child? finding.type = some finding.blueprint)
      (each : ∀ finding ∈ findings, Inspected sent finding.blueprint
        (Run.childClassName settled finding.type finding.blueprint)
        (Visit.below ⟨blueprint, lineage, .ofNode members className⟩ settled)
        finding.node finding.reports) :
      Inspected sent blueprint className lineage node
        (reports own ++ findings.flatMap (·.reports))

/-- Members and the things that they come from, in the same order. -/
theorem forall₂_of_map_eq {ι κ μ τ : Type} {pairs : κ → μ → Prop} {known : ι → Prop}
    {task : ι → τ} {image : κ → τ} {items : List κ} {origins : List μ}
    (paired : List.Forall₂ pairs items origins) :
    ∀ {members : List ι}, members.map task = items.map image → (∀ member ∈ members, known member) →
      List.Forall₂ (fun member origin =>
        known member ∧ ∃ item, task member = image item ∧ pairs item origin) members origins := by
  induction paired with
  | nil =>
      intro members same _
      rw [List.map_nil, List.map_eq_nil_iff] at same
      subst same
      exact .nil
  | @cons item origin items origins first _ ih =>
      intro members same every
      obtain ⟨member, others, rfl, here, there⟩ := List.map_eq_cons_iff.mp same
      obtain ⟨holds, rest⟩ := List.forall_mem_cons.mp every
      exact .cons ⟨holds, item, here, first⟩ (ih there rest)

/-- What was inspected of each member makes up the findings. -/
theorem findings_of_members {members : List (Waypoint × Account)}
    {origins : List (String × Blueprint × Json)}
    {inspected : String × Blueprint × Json → List Report → Prop}
    (each : List.Forall₂ (fun member origin => ∃ told, inspected origin told ∧
      (reports member.2.history.events).Perm told) members origins) :
    ∃ findings : List Finding, findings.map Finding.origin = origins ∧
      (∀ finding ∈ findings, inspected finding.origin finding.reports) ∧
      (reports (members.flatMap fun member => member.2.history.events)).Perm
        (findings.flatMap (·.reports)) := by
  induction each with
  | nil => exact ⟨[], rfl, List.forall_mem_nil _, .refl _⟩
  | @cons member origin members origins first _ ih =>
      obtain ⟨told, here, same⟩ := first
      obtain ⟨findings, rfl, there, others⟩ := ih
      refine ⟨⟨origin.1, origin.2.1, origin.2.2, told⟩ :: findings, rfl,
        List.forall_mem_cons.mpr ⟨here, there⟩, ?_⟩
      rw [List.flatMap_cons, List.flatMap_cons, reports_append]
      exact same.append others

namespace Account

variable {run : Run} {sent : List Call}

/-- The events of a member are among those of the whole. -/
theorem calls_of_member {members : List (Waypoint × Account)} {events : List Event}
    (same : events.Perm (members.flatMap fun member => member.2.history.events))
    (inRun : ∀ call ∈ calls events, call ∈ sent) :
    ∀ member ∈ members, ∀ call ∈ calls member.2.history.events, call ∈ sent := by
  intro member inside call called
  obtain ⟨event, inEvents, calling⟩ := List.mem_filterMap.mp called
  refine inRun call (List.mem_filterMap.mpr ⟨event, same.mem_iff.mpr ?_, calling⟩)
  exact List.mem_flatMap.mpr ⟨member, inside, inEvents⟩

/-- **What a task reports that is through.** Its entity has been inspected with all that is reached
from it, and the reports are those of the tree. -/
theorem Sound.inspected (dry : run.dry = true) (unobserved : run.observer = none)
    {account : Account} (sound : account.Sound run) :
    ∀ {visit : Visit} {className : String} {node : Json} {members : NameMap Json},
      account.task = .entity visit → account.fate = .succeeded → visit.blueprint.Ordered →
      node.members? = some members → visit.desired = .ofNode members className →
      (∀ call ∈ calls account.history.events, call ∈ sent) →
      ∃ told, Inspected sent visit.blueprint className visit.lineage node told ∧
        (reports account.history.events).Perm told := by
  induction sound with
  | @stopped task own fate stops =>
      rintro visit className node members rfl rfl _ isObject readFrom inRun
      rw [History.events_stay] at inRun ⊢
      obtain ⟨mine, inspects, same, told⟩ := stops.inspects dry unobserved
      rw [same] at inRun
      obtain ⟨blueprint, lineage, desired⟩ := visit
      obtain rfl : desired = .ofNode members className := readFrom
      exact ⟨reports mine, .missing members mine isObject inRun inspects, .of_eq told⟩
  | @handing task own groups gangs history fate goesOn sequel each ih =>
      rintro visit className node members rfl rfl ordered isObject readFrom inRun
      have known : ∀ member ∈ gangs.flatten, member ∈ gangs.flatten ∧ member.2.task.Ordered :=
        fun member inside =>
          ⟨inside, ((Sound.handing goesOn sequel each).of_member ordered member inside).2⟩
      obtain ⟨tasks, events⟩ := sequel.through_all
      obtain ⟨mine, settled, inspects, same, told, rfl, declared⟩ :=
        goesOn.inspects dry unobserved
      rw [History.events_append, History.events_stay] at inRun ⊢
      rw [Task.tasks_broods] at tasks
      have grown := forall₂_of_map_eq (Run.offspring_readFrom _ _) tasks known
      have below : List.Forall₂ (fun member origin => ∃ told,
          Inspected sent origin.2.1 (Run.childClassName settled origin.1 origin.2.1)
            (visit.below settled) origin.2.2 told ∧
          (reports member.2.history.events).Perm told) gangs.flatten
          (Run.litter visit.blueprint.childTypes (visit.placed settled)) := by
        refine grown.imp ?_
        rintro member ⟨type, blueprint, inner⟩
          ⟨⟨inside, orders⟩, ⟨_, child⟩, handed, rfl, fields, innerObject, childRead⟩
        obtain ⟨gang, inGangs, inGang⟩ := List.mem_flatten.mp inside
        rw [handed] at orders
        refine ih gang inGangs member inGang handed (sequel.succeeded member inside) orders
          innerObject childRead (calls_of_member events ?_ member inside)
        exact fun call called => inRun call (by simp [called])
      obtain ⟨findings, origins, inspected, reported⟩ := findings_of_members below
      have nodes := Run.litter_perm ordered declared
      rw [← origins, List.map_map] at nodes
      have types : ∀ finding ∈ findings,
          visit.blueprint.child? finding.type = some finding.blueprint := fun finding member =>
        (Run.declared_of_mem_litter ordered (origins ▸ List.mem_map_of_mem member)).1
      obtain ⟨blueprint, lineage, desired⟩ := visit
      obtain rfl : desired = .ofNode members className := readFrom
      refine ⟨_, .reached members mine settled findings isObject ?_ inspects ?_ types inspected, ?_⟩
      · exact fun call called => inRun call (by simp [same, called])
      · rw [Document.children_ofNode className isObject]
        exact nodes
      · have later : (reports history.events).Perm (findings.flatMap (·.reports)) :=
          (events.filterMap _).trans reported
        rw [reports_append, told]
        exact later.append_left (reports mine)

/-- **The roots of a document that is through have been inspected**, each with all that is reached
from it. -/
theorem Sound.inspected_roots (dry : run.dry = true) (unobserved : run.observer = none)
    {account : Account} (sound : account.Sound run) {type text : String}
    (document : account.task = .document type text) (well : account.fate = .succeeded) :
    ∃ nodes blueprint, ∃ findings : List Finding,
      Document.nodes? text = some nodes ∧
      (∃ own, (∀ call ∈ own, call ∈ calls account.history.events) ∧
        run.Fetches type own blueprint) ∧
      findings.map (·.node) = nodes.filter (·.members?.isSome) ∧
      (∀ finding ∈ findings, Inspected (calls account.history.events) blueprint
        (blueprint.rootClassName type) .empty finding.node finding.reports) ∧
      (reports account.history.events).Perm (findings.flatMap (·.reports)) := by
  have ordered : account.task.Ordered := by
    rw [document]
    exact trivial
  obtain ⟨groups, history, goesOn, sequel, same⟩ := sound.handing_of_document document well
  have known : ∀ member ∈ account.members, member ∈ account.members ∧ member.2.Sound run ∧
      member.2.task.Ordered := fun member inside =>
    ⟨inside, sound.of_member ordered member inside⟩
  obtain ⟨tasks, events⟩ := sequel.through_all
  have split : account.history.events = account.own ++ history.events := by
    rw [same, History.events_append, History.events_stay]
  generalize account.own = own at goesOn split ⊢
  cases goesOn with
  | @document _ _ _ blueprint entities opens =>
      obtain ⟨nodes, fetches, spelled, rfl⟩ := Task.fetches_of_opening opens
      rw [Task.tasks_roots] at tasks
      have grown := forall₂_of_map_eq (Document.entities_forall₂ _ nodes) tasks known
      have each : List.Forall₂ (fun member origin => ∃ told,
          Inspected (calls account.history.events) blueprint (blueprint.rootClassName type) .empty
            origin.2.2 told ∧ (reports member.2.history.events).Perm told) account.members
          ((nodes.filter (·.members?.isSome)).map fun node => (type, blueprint, node)) := by
        rw [List.forall₂_map_right_iff]
        refine grown.imp ?_
        rintro member node ⟨⟨inside, sounds, orders⟩, child, handed, fields, isObject, readFrom⟩
        rw [handed] at orders
        refine sounds.inspected dry unobserved handed (sequel.succeeded member inside) orders
          isObject readFrom (calls_of_member events ?_ member inside)
        exact fun call called => by simp [split, called]
      obtain ⟨findings, origins, inspected, told⟩ := findings_of_members each
      refine ⟨nodes, blueprint, findings, spelled, ⟨calls own, ?_, fetches⟩, ?_, inspected, ?_⟩
      · exact fun call called => by simp [split, called]
      · have nodesOnly := congrArg (List.map fun origin => origin.2.2) origins
        simpa [Function.comp_def, Finding.origin] using nodesOnly
      · have later : (reports history.events).Perm (findings.flatMap (·.reports)) :=
          (events.filterMap _).trans told
        rwa [split, reports_append, Run.reports_of_opening unobserved opens]

/-- A task reports only what it does itself, before it hands out others. -/
theorem Sound.reports_own {account part : Account} {origin : Origin} (sound : account.Sound run)
    (ordered : account.task.Ordered) (found : account.part? origin = some part) :
    reports (account.history.own origin) = reports part.own := by
  obtain ⟨closing, same, rfl | rfl⟩ := sound.own ordered found
  · rw [same, List.append_nil]
  · rw [same, reports_append]
    exact List.append_nil _

/-- An entity whose lookup has failed adds no report. -/
theorem Sound.reports_of_lookupFails (dry : run.dry = true) (unobserved : run.observer = none)
    {account : Account} (sound : account.Sound run) {visit : Visit}
    (entity : account.task = .entity visit) (fails : visit.LookupFails (calls account.own)) :
    reports account.own = [] := by
  rcases sound.form with ⟨_, _, stops⟩ | ⟨groups, _, goesOn, _, _⟩
  · rw [entity] at stops
    generalize account.own = own at stops fails ⊢
    generalize account.fate = fate at stops
    cases stops with
    | unbegun visit => rfl
    | unsettled settles _ =>
        simpa using Run.reports_of_lookupFails dry unobserved settles (by simpa using fails)
    | undeclared settles _ _ =>
        simpa using Run.reports_of_lookupFails dry unobserved settles (by simpa using fails)
  · rw [entity] at goesOn
    generalize account.own = own at goesOn fails ⊢
    cases goesOn with
    | entity settles _ =>
        simpa using Run.reports_of_lookupFails dry unobserved settles (by simpa using fails)

end Account

/-! ## Dry runs of documents -/

namespace Run

/-- **A dry run makes exactly one report of each entity that it reaches.** If a dry run of a
document succeeds, its reports are those of the trees of its roots, in which each reached node has
one report of its own: that it would be created, if it cannot be looked up or is not found, and else
in what it differs. And wherever a dry run has got to, an entity whose own lookup has failed has no
report. -/
theorem each_reached_entity_reported_once {run : Run} (dry : run.dry = true)
    (unobserved : run.observer = none) (type text : String) :
    (∀ events (roots : List Entity), Stage.Steps run (.active (run.document type text)) events
        (.finished (.value roots)) →
      ∃ nodes blueprint, ∃ findings : List Finding,
        Json.read? (Text.Comments.strip text) = some (.array nodes) ∧
        (∃ own, (∀ call ∈ own, call ∈ calls events) ∧ run.Fetches type own blueprint) ∧
        findings.map (·.node) = nodes.filter (·.members?.isSome) ∧
        (∀ finding ∈ findings, Inspected (calls events) blueprint (blueprint.rootClassName type)
          .empty finding.node finding.reports) ∧
        (reports events).Perm (findings.flatMap (·.reports))) ∧
    ∀ events (stage : Stage ChildTask (List Entity)),
      Stage.Steps run (.active (run.document type text)) events stage →
      ∃ account : Account, account.task = .document type text ∧ account.Sound run ∧
        account.history.events = events ∧
        (∀ entry ∈ account.history, ∃ part, account.part? entry.1 = some part) ∧
        ∀ origin part visit, account.part? origin = some part → part.task = .entity visit →
          visit.LookupFails (calls (account.history.own origin)) →
          reports (account.history.own origin) = [] := by
  have accountOf : ∀ events (stage : Stage ChildTask (List Entity)),
      Stage.Steps run (.active (run.document type text)) events stage →
      Accounts run (.document type text) events (Fate.of stage.outcome?) := by
    intro events stage steps
    obtain ⟨course, takes, orders⟩ := steps.takes
    exact accounts_of_document takes orders
  refine ⟨?_, ?_⟩
  · intro events roots steps
    obtain ⟨account, document, well, sound, rfl⟩ := accountOf events _ steps
    obtain ⟨nodes, blueprint, findings, spelled, found⟩ :=
      sound.inspected_roots dry unobserved document well
    exact ⟨nodes, blueprint, findings, Document.nodes?_eq_some_iff.mp spelled, found⟩
  · intro events stage steps
    obtain ⟨account, document, _, sound, rfl⟩ := accountOf events stage steps
    have ordered : account.task.Ordered := by
      rw [document]
      exact trivial
    refine ⟨account, document, sound, rfl, ?_, ?_⟩
    · rintro ⟨origin, event⟩ inside
      exact Option.isSome_iff_exists.mp (sound.known ordered event inside)
    · intro origin part visit found entity fails
      rw [sound.calls_own ordered found] at fails
      rw [sound.reports_own ordered found]
      exact (sound.of_part? ordered found).1.reports_of_lookupFails dry unobserved entity fails

end Run

/-! ## The reports on a family -/

namespace Sample

/-- The thing is found and its parts are not: it is reported in what the thing differs and that each
of the parts would be created. -/
theorem one_report_of_each : ∃ events, ∃ roots : List Entity,
    Stage.Steps (trial true) (.active ((trial true).document "Thing" family)) events
      (.finished (.value roots)) ∧
    (reports events).map headline
      = [("difference", "Thing", "a"), ("create", "Part", "b"), ("create", "Part", "c")] ∧
    ∃ nodes blueprint, ∃ findings : List Finding,
      Json.read? (Text.Comments.strip family) = some (.array nodes) ∧
      findings.map (·.node) = nodes.filter (·.members?.isSome) ∧
      (∀ finding ∈ findings, Inspected (calls events) blueprint (blueprint.rootClassName "Thing")
        .empty finding.node finding.reports) ∧
      (reports events).Perm (findings.flatMap (·.reports)) := by
  obtain ⟨value, _, headlines⟩ := rehearsal_asks
  obtain ⟨events, roots, steps, _, _, reported⟩ := attempted value
  have dry : (trial true).dry = true := rfl
  obtain ⟨nodes, blueprint, findings, spelled, _, objects, inspected, told⟩ :=
    (Run.each_reached_entity_reported_once dry rfl "Thing" family).1 events roots steps
  refine ⟨events, roots, steps, ?_, nodes, blueprint, findings, spelled, objects, inspected, told⟩
  rw [reported]
  exact headlines

end Sample

end DesiredState
