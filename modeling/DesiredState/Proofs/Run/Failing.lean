import DesiredState.Proofs.Run.Updating

/-!
# A failure leaves nothing half done

When an entity fails before its children, none of them has been begun, and little is left behind
(`Run.failure_leaves_nothing_half_done`): the registry has at most gained the state that was looked
up, under a key that nothing was known under, and if what is wrong is to be found before anything is
written, no write has been answered with success. This holds whatever the observer does.

**Harmless events.** An event is harmless if it neither concerns the registry nor is a write that
was answered with success. Up to its write a plan shows harmless events only (`Plan.Harmless`), and
after a write it has no failure that is to be found earlier (`Plan.Sparing`). The one event of the
registry is that a state is recalled, and before it there is nothing but the lookup (`Run.Leaves`).
-/

set_option autoImplicit false

namespace DesiredState

variable {run : Run} {α β : Type}

/-! ## What is left behind -/

/-- A write that the API has answered with success. -/
def Call.Written (call : Call) : Prop :=
  call.request.method.isWrite = true ∧
    ∃ response, call.exchange = .answered response ∧ response.isSuccess = true

/-- What is wrong with the model, the blueprint or a lookup is found before anything is written. -/
def Failure.BeforeWriting : Failure → Prop
  | .templateUnfilled _ _ => True
  | .parentMissing _ _ _ _ => True
  | .methodUnusable _ _ _ => True
  | .statusUnexpected _ _ _ _ => True
  | .undecodable _ _ => True
  | _ => False

namespace Event

/-- The registry is concerned. -/
def Registers : Event → Prop
  | .remembered _ _ => True
  | .recalled _ _ _ => True
  | _ => False

/-- Neither the registry nor what the API holds is changed. -/
def Harmless (event : Event) : Prop :=
  ¬ event.Registers ∧ ∀ call, event = .called call → ¬ call.Written

theorem harmless_told (notice : Notice) : (Event.told notice).Harmless :=
  ⟨id, fun _ calling => nomatch calling⟩

theorem harmless_called {call : Call} (refused : ¬ call.Written) :
    (Event.called call).Harmless := by
  refine ⟨id, ?_⟩
  rintro _ ⟨⟩
  exact refused

/-- A lookup is no write. -/
theorem harmless_get (path : String) (exchange : Exchange) :
    (Event.called ⟨⟨.get, path, none⟩, exchange⟩).Harmless :=
  harmless_called fun written => nomatch written.1

end Event

/-- Events that do not concern the registry leave it as it is. -/
theorem Registry.after_of_unregistered {events : List Event} (registry : Registry)
    (each : ∀ event ∈ events, ¬ event.Registers) : registry.after events = registry := by
  induction events with
  | nil => rfl
  | cons event events ih =>
      obtain ⟨here, later⟩ := List.forall_mem_cons.mp each
      have same : registry.follow event = registry := by
        cases event with
        | remembered session entity => exact absurd trivial here
        | recalled session entity known => exact absurd trivial here
        | called call => rfl
        | told notice => rfl
        | gaveUp => rfl
      rw [Registry.after_cons, same]
      exact ih later

/-- The events do not concern the registry, and if they end with a failure that is found before
anything is written, they are harmless. -/
structure Spares (events : List Event) (outcome : Outcome α) : Prop where
  unregistered : ∀ event ∈ events, ¬ event.Registers
  unwritten : ∀ failure, outcome = .failed failure → failure.BeforeWriting →
    ∀ event ∈ events, event.Harmless

namespace Spares

variable {events : List Event} {outcome : Outcome α}

theorem of_harmless (each : ∀ event ∈ events, event.Harmless) : Spares events outcome :=
  ⟨fun event member => (each event member).1, fun _ _ _ => each⟩

/-- After harmless events. -/
theorem after {first : List Event} (harmless : ∀ event ∈ first, event.Harmless)
    (spares : Spares events outcome) : Spares (first ++ events) outcome where
  unregistered := by
    intro event member
    rcases List.mem_append.mp member with before | later
    · exact (harmless event before).1
    · exact spares.unregistered event later
  unwritten failure failed early :=
    List.forall_mem_append.mpr ⟨harmless, spares.unwritten failure failed early⟩

/-- After a write, whatever has become of it, nothing is found that is to be found before. -/
theorem after_write (call : Call) (harmless : ∀ event ∈ events, event.Harmless)
    (late : ∀ failure, outcome = .failed failure → ¬ failure.BeforeWriting) :
    Spares (.called call :: events) outcome where
  unregistered := List.forall_mem_cons.mpr ⟨id, fun event member => (harmless event member).1⟩
  unwritten failure failed early := absurd early (late failure failed)

end Spares

/-! ## Plans -/

namespace Plan

/-- However the plan comes to its end, all that it does is harmless. -/
def Harmless (plan : Plan α) : Prop :=
  ∀ events outcome, plan.Yields events outcome → ∀ event ∈ events, event.Harmless

/-- However the plan comes to its end, it spares the registry, and the API if it fails before
writing. -/
def Sparing (plan : Plan α) : Prop :=
  ∀ events outcome, plan.Yields events outcome → Spares events outcome

namespace Harmless

theorem done (outcome : Outcome α) : (Plan.done outcome).Harmless := by
  rintro _ _ ⟨rfl, _⟩
  exact List.forall_mem_nil _

theorem pure (value : α) : (Pure.pure value : Plan α).Harmless := done _

theorem fail (failure : Failure) : (Plan.fail failure : Plan α).Harmless := done _

theorem log (event : LogEvent) : (Plan.log event).Harmless := by
  rintro _ _ ⟨_, rfl, rfl, _⟩
  exact List.forall_mem_nil _

theorem tell (moment : Moment) : (Plan.tell (.moment moment)).Harmless := by
  rintro _ _ ⟨_, rfl, rfl, _⟩
  exact List.forall_mem_singleton.mpr (Event.harmless_told _)

/-- One harmless plan after another. -/
theorem bind {plan : Plan α} {continuation : α → Plan β} (first : plan.Harmless)
    (after : ∀ value, (continuation value).Harmless) : (plan >>= continuation).Harmless := by
  intro events outcome yields
  rcases yields_bind.mp yields with ⟨value, own, rest, rfl, before, goesOn⟩ | ⟨ended, stops, _⟩
  · exact List.forall_mem_append.mpr ⟨first _ _ before, after value _ _ goesOn⟩
  · exact first _ _ stops

theorem sparing {plan : Plan α} (harmless : plan.Harmless) : plan.Sparing :=
  fun _ _ yields => .of_harmless (harmless _ _ yields)

/-- A harmless plan before one that spares. -/
theorem before {plan : Plan α} {continuation : α → Plan β} (first : plan.Harmless)
    (after : ∀ value, (continuation value).Sparing) : (plan >>= continuation).Sparing := by
  intro events outcome yields
  rcases yields_bind.mp yields with ⟨value, own, rest, rfl, before, goesOn⟩ | ⟨ended, stops, _⟩
  · exact .after (first _ _ before) (after value _ _ goesOn)
  · exact .of_harmless (first _ _ stops)

end Harmless

/-- Only a value is changed, and not what is done for it. -/
theorem Sparing.map {plan : Plan α} (sparing : plan.Sparing) (transform : α → β) :
    (transform <$> plan).Sparing := by
  intro events outcome yields
  rw [map_eq_pure_bind] at yields
  rcases yields_bind.mp yields with ⟨value, own, rest, rfl, before, rfl, rfl⟩ | ⟨ended, stops, ends⟩
  · rw [List.append_nil]
    exact ⟨(sparing _ _ before).unregistered, fun _ failed => nomatch failed⟩
  · have spares := sparing _ _ stops
    cases ends with
    | failed failure =>
        refine ⟨spares.unregistered, ?_⟩
        rintro _ ⟨⟩
        exact spares.unwritten failure rfl
    | broken cause => exact ⟨spares.unregistered, fun _ failed => nomatch failed⟩

/-- A plan that keeps to one entity begins none. -/
theorem Solitary.visits_eq_nil (run : Run) {recalls : Prop} {plan : Plan α} {events : List Event}
    {outcome : Outcome α} (solitary : plan.Solitary recalls) (yields : plan.Yields events outcome) :
    visits events = [] := by
  have steps : Stage.Steps run (.active plan) events (.finished outcome) := yields.steps
  obtain ⟨_, takes, orders⟩ := steps.takes
  obtain ⟨own, rfl, alone, _⟩ := takes.of_solitary solitary
  obtain ⟨others, rfl, nothing⟩ := Course.orders_ofEvents orders
  rw [show others = [] from nothing, List.append_nil, alone]

end Plan

namespace Run

variable {visit : Visit} {blueprint : Blueprint} {lineage : Lineage}

/-! ## Up to a write -/

theorem harmless_observe (moment : Moment) : (run.observe moment).Harmless := by
  unfold observe
  split
  · exact .pure ()
  · split
    · exact .done _
    · exact .tell moment

theorem harmless_resolve (entity : Entity) (template : String) :
    (resolve lineage entity template).Harmless := by
  unfold resolve
  split
  · exact .pure _
  · exact (Plan.Harmless.log _).bind fun _ => .pure _
  · exact .fail _

theorem harmless_lookupPath (entity : Entity) :
    (lookupPath blueprint lineage entity).Harmless := by
  unfold lookupPath
  split
  · exact .pure _
  · exact harmless_resolve entity _

theorem harmless_required (template : String) (path : Option String) :
    (required template path).Harmless := by
  cases path with
  | none => exact .fail _
  | some uri => exact .pure uri

theorem harmless_linkParent (entity : Entity) :
    (linkParent blueprint lineage entity).Harmless := by
  unfold linkParent
  split
  · exact .pure _
  · split
    · exact (Plan.Harmless.log _).bind fun _ => .pure _
    · unfold Plan.ofExcept
      split
      · exact .pure _
      · exact .fail _

theorem harmless_substitute (flagged : Bool) (entity : Entity) :
    (run.substitute flagged entity).Harmless := by
  unfold substitute
  split
  · exact (harmless_observe _).bind fun _ => .pure _
  · exact .pure _

theorem harmless_prepare (entity : Entity) : (run.prepare blueprint lineage entity).Harmless :=
  (harmless_linkParent entity).bind fun linked => harmless_substitute linked.substitutes linked

/-- After a create that was rejected there is at most a lookup. -/
theorem harmless_recover (entity : Entity) (uri : String) (rejection : CallFailure) :
    (run.recover blueprint lineage entity uri rejection).Harmless := by
  intro events outcome yields
  have recovery := @recovery_of_recover run ⟨blueprint, lineage, entity⟩ _ _ _ _ yields
  cases recovery with
  | found address success spelled =>
      exact List.forall_mem_singleton.mpr (Event.harmless_get _ _)
  | lost address told => exact List.forall_mem_singleton.mpr (Event.harmless_get _ _)
  | skipped unable childless => exact List.forall_mem_nil _
  | uncheckable unable parent => exact List.forall_mem_nil _
  | unfilled given unfilled => exact List.forall_mem_nil _

/-! ## Writes -/

/-- The observer may break off, but it does not fail. -/
theorem not_failed_of_observe {moment : Moment} {value : α} {events : List Event}
    {outcome : Outcome α}
    (yields : (run.observe moment >>= fun _ => pure value).Yields events outcome)
    (failure : Failure) : outcome ≠ .failed failure := by
  unfold observe at yields
  split at yields
  · obtain ⟨_, rfl⟩ := yields
    nofun
  · split at yields
    · obtain ⟨_, rfl⟩ := yields
      nofun
    · obtain ⟨_, _, _, rfl⟩ := yields
      nofun

/-- After a write that was accepted only the observer is told. -/
theorem spares_of_accepted (call : Call) {moment : Moment} {value : α} {events : List Event}
    {outcome : Outcome α}
    (yields : (run.observe moment >>= fun _ => pure value).Yields events outcome) :
    Spares (.called call :: events) outcome := by
  refine .after_write call ?_ fun failure failed => absurd failed (not_failed_of_observe yields _)
  exact ((harmless_observe moment).bind fun _ => .pure value) _ _ yields

/-- After a write that was refused nothing is done, and the failure is that of the call. -/
theorem spares_of_refused (call : Call) (type uri : String) (source : CallFailure) :
    Spares [.called call] (.failed (run.callFailure type uri source) : Outcome α) := by
  refine .after_write call (List.forall_mem_nil _) ?_
  rintro _ ⟨⟩
  exact id

theorem sparing_submitCreate (entity : Entity) (uri : String)
    (writes : blueprint.createMethod.isWrite = true) :
    (run.submitCreate blueprint lineage entity uri).Sparing := by
  intro events outcome yields
  obtain ⟨exchange, rest, rfl, told⟩ :=
    (Access.yields_write_bind writes).mp (Plan.yields_log_bind.mp yields)
  cases answered : run.access.written blueprint.createMethod uri entity.body exchange with
  | ok value =>
      rw [answered] at told
      exact spares_of_accepted _ told
  | error failure =>
      rw [answered] at told
      dsimp only at told
      by_cases invalid : failure.isValidation = true
      · -- what was rejected has not been written, and a recovery writes nothing
        obtain ⟨response, rfl, status⟩ := Access.answered_of_isValidation answered invalid
        rw [if_pos invalid] at told
        have refused : ¬ Call.Written ⟨⟨blueprint.createMethod, uri, some entity.body⟩,
            .answered response⟩ := by
          rintro ⟨_, _, ⟨⟩, success⟩
          simp [Response.isSuccess, status, CallFailure.validationStatus] at success
        refine .of_harmless (List.forall_mem_cons.mpr ⟨Event.harmless_called refused, ?_⟩)
        refine ((harmless_recover entity uri failure).bind fun found => ?_) _ _ told
        cases found with
        | none => exact .pure _
        | some existing => exact (harmless_observe _).bind fun _ => .pure _
      · rw [if_neg invalid] at told
        obtain ⟨rfl, rfl⟩ := told
        exact spares_of_refused _ _ _ _

theorem sparing_create (wet : run.dry = false) (desired : Entity) :
    (run.create blueprint lineage desired).Sparing := by
  unfold create
  simp only [wet, Bool.false_eq_true, if_false]
  refine (harmless_resolve _ _).before fun path => (harmless_required _ _).before fun uri =>
    (harmless_prepare _).before fun entity => (harmless_observe _).before fun _ => ?_
  split
  · exact sparing_submitCreate entity uri ‹_›
  · exact (Plan.Harmless.fail _).sparing

theorem sparing_submitUpdate (entity : Entity) (uri : String)
    (writes : blueprint.updateMethod.isWrite = true) :
    (run.submitUpdate blueprint entity uri).Sparing := by
  intro events outcome yields
  obtain ⟨exchange, rest, rfl, told⟩ :=
    (Access.yields_write_bind writes).mp (Plan.yields_log_bind.mp yields)
  cases answered : run.access.written blueprint.updateMethod uri entity.body exchange with
  | ok value =>
      rw [answered] at told
      exact spares_of_accepted _ told
  | error failure =>
      rw [answered] at told
      obtain ⟨rfl, rfl⟩ := told
      exact spares_of_refused _ _ _ _

theorem sparing_update (wet : run.dry = false) (merged : Entity) :
    (run.update blueprint lineage merged).Sparing := by
  unfold update
  simp only [wet, Bool.false_eq_true, if_false]
  refine (harmless_lookupPath _).before fun path => (harmless_required _ _).before fun uri =>
    (harmless_prepare _).before fun entity => (harmless_observe _).before fun _ => ?_
  split
  · exact sparing_submitUpdate entity uri ‹_›
  · exact (Plan.Harmless.fail _).sparing

/-! ## What settling an entity leaves behind -/

/-- The call looks the visited entity up, and is answered with its remote state. -/
def LooksUp (visit : Visit) (call : Call) (remote : Entity) : Prop :=
  ∃ path response value, call = ⟨⟨.get, path, none⟩, .answered response⟩ ∧
    lookupAddress? visit.blueprint visit.lineage visit.desired = some path ∧
    response.status = foundStatus ∧ response.json? = some value ∧ remote = visit.found value

/-- What the handling of an entity itself leaves behind. -/
inductive Leaves (run : Run) (visit : Visit) :
    List Event → Outcome (Option Entity) → Prop
  | nothing {events : List Event} {outcome : Outcome (Option Entity)}
      (spares : Spares events outcome) : Leaves run visit events outcome
  /-- What was looked up is recalled, and after that the registry is spared. -/
  | recalled {first rest : List Event} {outcome : Outcome (Option Entity)} {call : Call}
      {remote known : Entity} (harmless : ∀ event ∈ first, event.Harmless)
      (called : .called call ∈ first) (looksUp : LooksUp visit call remote)
      (spares : Spares rest outcome) :
      Leaves run visit (first ++ .recalled run.session remote known :: rest) outcome

variable {events : List Event} {outcome : Outcome (Option Entity)}

/-- What is left behind once the lookup has been answered, in the events up to then. -/
theorem leaves_of_settleAnswered (wet : run.dry = false) {first : List Event} {path : String}
    {response : Response} (harmless : ∀ event ∈ first, event.Harmless)
    (called : .called ⟨⟨.get, path, none⟩, .answered response⟩ ∈ first)
    (address : lookupAddress? visit.blueprint visit.lineage visit.desired = some path)
    (yields : (run.settleAnswered visit.blueprint visit.lineage visit.desired path
      response).Yields events outcome) : Leaves run visit (first ++ events) outcome := by
  have nothing (spares : Spares events outcome) : Leaves run visit (first ++ events) outcome :=
    .nothing (spares.after harmless)
  unfold settleAnswered at yields
  split at yields
  · rename_i found
    split at yields
    · exact nothing ((Plan.Harmless.fail _).sparing _ _ yields)
    · rename_i value spelled
      simp only [settleExisting, wet, Bool.false_eq_true, if_false] at yields
      by_cases updates : visit.desired.updates = true
      · rw [if_pos updates, map_bind] at yields
        obtain ⟨known, rest, rfl, renews⟩ := Plan.yields_recall_bind.mp yields
        rw [map_bind] at renews
        exact .recalled harmless called ⟨path, response, value, rfl, address, found, spelled, rfl⟩
          ((sparing_update wet _).map some _ _ (Plan.yields_log_bind.mp renews))
      · rw [if_neg updates, map_bind] at yields
        obtain ⟨rfl, rfl⟩ := Plan.yields_log_bind.mp yields
        exact nothing (.of_harmless (List.forall_mem_nil _))
  · split at yields
    · rw [wet] at yields
      exact nothing (sparing_create wet _ _ _ yields)
    · exact nothing ((Plan.Harmless.fail _).sparing _ _ yields)

/-- What is left behind by looking an entity up, and by what follows from that. -/
theorem leaves_of_lookup (wet : run.dry = false) {path : String}
    (address : lookupAddress? visit.blueprint visit.lineage visit.desired = some path)
    (yields : (run.lookup visit.blueprint visit.lineage visit.desired path).Yields events
      outcome) : Leaves run visit events outcome := by
  rcases Plan.yields_bind.mp yields with ⟨_, before, _, rfl, told, looks⟩ | ⟨_, stops, _⟩
  · have before_harmless := harmless_observe _ _ _ told
    obtain ⟨exchange, rest, rfl, answered⟩ := Access.yields_get_bind.mp looks
    cases exchange with
    | lost cause =>
        obtain ⟨rfl, rfl⟩ := answered
        exact .nothing (.of_harmless (List.forall_mem_append.mpr ⟨before_harmless,
          List.forall_mem_singleton.mpr (Event.harmless_get _ _)⟩))
    | answered response =>
        rcases Plan.yields_bind.mp answered with ⟨_, own, rest, rfl, told, goesOn⟩ | ⟨_, stops, _⟩
        · have harmless : ∀ event ∈ before ++
              .called ⟨⟨.get, path, none⟩, .answered response⟩ :: own, event.Harmless :=
            List.forall_mem_append.mpr ⟨before_harmless, List.forall_mem_cons.mpr
              ⟨Event.harmless_get _ _, harmless_observe _ _ _ told⟩⟩
          have leaves := leaves_of_settleAnswered wet harmless (by simp) address goesOn
          simpa using leaves
        · exact .nothing (.of_harmless (List.forall_mem_append.mpr ⟨before_harmless,
            List.forall_mem_cons.mpr ⟨Event.harmless_get _ _, harmless_observe _ _ _ stops⟩⟩))
  · exact .nothing (.of_harmless (harmless_observe _ _ _ stops))

/-- What is left behind by the handling of an entity itself. -/
theorem leaves_of_settle (wet : run.dry = false) (yields : (visit.settle run).Yields events
    outcome) : Leaves run visit events outcome := by
  rcases yields_lookupPath_bind yields with ⟨path, address, looks⟩ | ⟨_, creates⟩ |
    ⟨_, _, _, _, rfl, rfl⟩
  · exact leaves_of_lookup wet address looks
  · rw [wet] at creates
    exact .nothing (sparing_create wet _ _ _ creates)
  · exact .nothing (.of_harmless (List.forall_mem_nil _))

/-! ## Entities that fail before their children -/

/-- The handling of a visit has got as far as having settled its entity. -/
def Settled (run : Run) (visit : Visit) (events : List Event) : Prop :=
  ∃ own rest settled, events = .told (.begun visit) :: (own ++ rest) ∧
    (visit.settle run).Yields own (.value settled)

/-- The registry is as it was, or has gained the remote state under a key that was not known. -/
theorem Leaves.registry (leaves : Leaves run visit events outcome) (registry : Registry) :
    registry.after events = registry ∨
    ∃ call ∈ calls events, ∃ remote, LooksUp visit call remote ∧
      registry.find? (KnownState.key ⟨run.session, remote⟩) = none ∧
      registry.after events = registry.insert run.session remote := by
  cases leaves with
  | nothing spares => exact .inl (registry.after_of_unregistered spares.unregistered)
  | @recalled first rest _ call remote known harmless called looksUp spares =>
      have first_spared : registry.after first = registry :=
        registry.after_of_unregistered fun event member => (harmless event member).1
      have whole : registry.after (first ++ .recalled run.session remote known :: rest)
          = (registry.findOrInsert run.session remote).2 := by
        rw [Registry.after_append, first_spared, Registry.after_cons]
        exact Registry.after_of_unregistered _ spares.unregistered
      rw [whole]
      cases unknown : registry.find? (KnownState.key ⟨run.session, remote⟩) with
      | some known => exact .inl (by simp [Registry.findOrInsert, unknown])
      | none =>
          refine .inr ⟨call, ?_, remote, looksUp, unknown, by simp [Registry.findOrInsert, unknown]⟩
          exact List.mem_filterMap.mpr ⟨_, List.mem_append_left _ called, rfl⟩

/-- If what is wrong is found before anything is written, no write has been accepted. -/
theorem Leaves.unwritten {failure : Failure} (leaves : Leaves run visit events (.failed failure))
    (early : failure.BeforeWriting) : ∀ call ∈ calls events, ¬ call.Written := by
  have harmless : ∀ call, .called call ∈ events → ¬ call.Written := by
    cases leaves with
    | nothing spares => exact fun call member => (spares.unwritten _ rfl early _ member).2 call rfl
    | recalled harmless _ _ spares =>
        intro call member
        rcases List.mem_append.mp member with before | later
        · exact (harmless _ before).2 call rfl
        · rcases List.mem_cons.mp later with same | after
          · nomatch same
          · exact (spares.unwritten _ rfl early _ after).2 call rfl
  intro call member
  obtain ⟨event, inside, same⟩ := List.mem_filterMap.mp member
  cases event with
  | called _ =>
      obtain rfl := Option.some.inj same
      exact harmless _ inside
  | _ => nomatch same

/-- A handling that has ended without having settled its entity has ended with its own part. -/
theorem ended_of_unsettled
    (steps : Stage.Steps run
      (.active (run.reconcile visit.blueprint visit.lineage visit.desired)) events
      (.finished outcome)) (unsettled : ¬ Settled run visit events) :
    ∃ own, events = .told (.begun visit) :: own ∧ (visit.settle run).Yields own outcome ∧
      ∀ value, outcome ≠ .value value := by
  obtain ⟨course, takes, orders⟩ := steps.takes
  rcases takes.split_note with ⟨_, pending⟩ | ⟨rest, rfl, later⟩
  · nomatch pending
  obtain ⟨own, rfl, behind⟩ := orders
  have handled : ((visit.settle run).bind _).Takes run rest (some outcome) := later
  generalize ending : some outcome = ended at handled
  refine ⟨own, rfl, ?_⟩
  cases handled.split_solitary (solitary_settle visit.desired) with
  | underWay yields => nomatch ending
  | failed yields =>
      obtain rfl := Option.some.inj ending
      obtain ⟨following, rfl, nothing⟩ := Course.orders_ofEvents behind
      rw [show following = [] from nothing, List.append_nil]
      exact ⟨yields, nofun⟩
  | broken yields =>
      obtain rfl := Option.some.inj ending
      obtain ⟨following, rfl, nothing⟩ := Course.orders_ofEvents behind
      rw [show following = [] from nothing, List.append_nil]
      exact ⟨yields, nofun⟩
  | through yields goesOn =>
      obtain ⟨following, rfl, _⟩ := Course.orders_ofEvents behind
      exact absurd ⟨_, following, _, rfl, yields⟩ unsettled

/-- **A failure leaves nothing half done.** If in a run that is not dry the handling of an entity
ends, whatever has been answered and whatever the observer does, and its own part has not come to
a result, then this part has failed or was broken off, and with the outcome of the whole. None of
its children has been begun. The registry is as it was before, or has gained the remote state that
was looked up, under a key that nothing was known under. If what is wrong is found before anything
is written, no write has been answered with success. -/
theorem failure_leaves_nothing_half_done (wet : run.dry = false)
    (steps : Stage.Steps run
      (.active (run.reconcile visit.blueprint visit.lineage visit.desired)) events
      (.finished outcome)) (unsettled : ¬ Settled run visit events) :
    (∃ own, events = .told (.begun visit) :: own ∧ (visit.settle run).Yields own outcome) ∧
    (∀ value, outcome ≠ .value value) ∧
    visits events = [visit] ∧
    (∀ registry : Registry, registry.after events = registry ∨
      ∃ call ∈ calls events, ∃ remote, LooksUp visit call remote ∧
        registry.find? (KnownState.key ⟨run.session, remote⟩) = none ∧
        registry.after events = registry.insert run.session remote) ∧
    ∀ failure, outcome = .failed failure → failure.BeforeWriting →
      ∀ call ∈ calls events, ¬ call.Written := by
  obtain ⟨own, rfl, yields, valueless⟩ := ended_of_unsettled steps unsettled
  have leaves := leaves_of_settle wet yields
  refine ⟨⟨own, rfl, yields⟩, valueless, ?_, leaves.registry, ?_⟩
  · have alone := (solitary_settle visit.desired).visits_eq_nil run yields
    rw [visits_cons, alone]
    rfl
  · rintro failure rfl early
    exact leaves.unwritten early

end Run

/-! ## A thing whose parent is missing -/

namespace Sample

/-- A thing to be updated that refers to an owner, but has no ancestors. -/
def ownerless : Visit :=
  { renewable with
    blueprint := { renewable.blueprint with parentLink := some ⟨some "owner", ⟨"Owner", "uuid"⟩⟩ } }

/-- Where things are. -/
def thingPath : String := "/things/\x7bname\x7d"

/-- The value in the answer to the lookup. -/
def staleValue : Json := stale.json?.getD .null

/-- The failure for want of the owner. -/
def ownerMissing : Failure := .parentMissing "Owner" "owner" "Thing" "a"

/-- The thing is looked up and recalled, and then its owner is missing. -/
def vainly : List Event :=
  [.called ⟨⟨.get, "/things/a", none⟩, .answered stale⟩,
    .recalled ⟨0⟩ (ownerless.found staleValue) (ownerless.found staleValue)]

/-- The thing is not updated, since its owner is missing. -/
theorem ownerless_not_updated :
    ((trial false).update ownerless.blueprint ownerless.lineage
      (ownerless.desired.laidOver (ownerless.found staleValue))).Yields []
      (.failed ownerMissing) := by
  have template : ownerless.blueprint.lookupUri? = some thingPath := by decide +kernel
  generalize merging : ownerless.desired.laidOver (ownerless.found staleValue) = merged
  have path : Template.resolve ownerless.lineage merged thingPath = .path "/things/a" := by
    rw [← merging]
    decide +kernel
  have unlinked : Run.linkParent ownerless.blueprint ownerless.lineage merged
      = Plan.fail ownerMissing := by
    have label : merged.label = "a" := by
      rw [← merging]
      decide +kernel
    have type : merged.type = "Thing" := by
      rw [← merging]
      decide +kernel
    rw [ownerMissing, ← label, ← type]
    rfl
  have looked : Run.lookupPath ownerless.blueprint ownerless.lineage merged
      = pure (some "/things/a") := by
    rw [Run.lookupPath, template]
    simp only [Run.resolve, path]
  have unprepared : (trial false).prepare ownerless.blueprint ownerless.lineage merged
      = Plan.fail ownerMissing := by
    rw [Run.prepare, unlinked]
    rfl
  unfold Run.update
  rw [looked, unprepared]
  exact ⟨rfl, rfl⟩

/-- The thing is looked up and recalled, and then fails. -/
theorem ownerless_fails :
    (ownerless.settle (trial false)).Yields vainly (.failed ownerMissing) := by
  have template : ownerless.blueprint.lookupUri? = some thingPath := by decide +kernel
  have path : Template.resolve ownerless.lineage ownerless.desired thingPath
      = .path "/things/a" := by decide +kernel
  have found : stale.status = Run.foundStatus := rfl
  have spelled : stale.json? = some staleValue := by
    obtain ⟨value, some⟩ := Option.isSome_iff_exists.mp (by decide +kernel : stale.json?.isSome)
    rw [staleValue, some, Option.getD_some]
  have settles : ((trial false).settleExisting ownerless.blueprint ownerless.lineage
      ownerless.desired (ownerless.found staleValue) "/things/a").Yields
      [.recalled ⟨0⟩ (ownerless.found staleValue) (ownerless.found staleValue)]
      (.failed ownerMissing) :=
    Plan.yields_recall_bind.mpr ⟨_, [], rfl, Plan.yields_log_bind.mpr ownerless_not_updated⟩
  unfold Visit.settle Run.settle Run.lookupPath
  rw [template]
  simp only [Run.resolve, path, pure_bind]
  unfold Run.lookup
  rw [Run.observe_unobserved rfl, pure_bind]
  refine Access.yields_get_bind.mpr ⟨.answered stale, _, rfl, ?_⟩
  change (Run.settleAnswered _ _ _ _ _ stale).Yields _ _
  unfold Run.settleAnswered
  rw [if_pos found, spelled]
  exact Plan.yields_bind.mpr (.inr ⟨_, settles, .failed _⟩)

/-- The thing without an owner has begun nothing else and is not written; what was looked up of it
has been remembered by a run that knew nothing. -/
theorem ownerless_leaves_nothing_written :
    Stage.Steps (trial false) (.active ((trial false).reconcile ownerless.blueprint
      ownerless.lineage ownerless.desired)) (.told (.begun ownerless) :: vainly)
      (.finished (.failed ownerMissing)) ∧
    ¬ Run.Settled (trial false) ownerless (.told (.begun ownerless) :: vainly) ∧
    visits (.told (.begun ownerless) :: vainly) = [ownerless] ∧
    (∀ call ∈ calls (.told (.begun ownerless) :: vainly), ¬ call.Written) ∧
    Registry.empty.after (.told (.begun ownerless) :: vainly)
      = Registry.empty.insert ⟨0⟩ (ownerless.found staleValue) := by
  have steps : Stage.Steps (trial false) (.active ((trial false).reconcile ownerless.blueprint
      ownerless.lineage ownerless.desired)) (.told (.begun ownerless) :: vainly)
      (.finished (.failed ownerMissing)) := by
    refine Plan.Yields.steps ⟨vainly, rfl, ?_⟩
    change ((ownerless.settle (trial false)).bind _).Yields vainly _
    exact Plan.yields_bind.mpr (.inr ⟨_, ownerless_fails, .failed _⟩)
  have unsettled : ¬ Run.Settled (trial false) ownerless (.told (.begun ownerless) :: vainly) := by
    rintro ⟨own, rest, settled, same, yields⟩
    have fails := ownerless_fails
    rw [(List.cons.inj same).2] at fails
    nomatch (yields.unique fails).2
  obtain ⟨_, _, alone, _, unwritten⟩ :=
    Run.failure_leaves_nothing_half_done rfl steps unsettled
  exact ⟨steps, unsettled, alone, unwritten _ rfl trivial, rfl⟩

end Sample

end DesiredState
