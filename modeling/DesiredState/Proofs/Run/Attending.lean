import DesiredState.Proofs.Run.Patience
import DesiredState.Proofs.Run.Differences

/-!
# What an observer hears of an entity

An observer is told of each step around it: before a lookup is sent and when it is answered, before
a write and when an entity is in place after it. A flagged entity is shown before the write that
sends what the observer puts in its place, and in a dry run what was found is shown before the
report on it. `Run.Attends` says for every sequence of answers which moments are told between the
calls, and with which entities; nothing else is told of the entity itself (`moments_bracket_steps`).

**Whole and half.** `Attends` speaks of handlings that have come to their end before a patient
observer. A handling that has got only part of the way, or that the observer has broken off, has
shown the beginning of such a one, and in the second case the moment at which the observer has
broken off comes next (`Run.Hears`).

**What is silent.** Between the moment before a write and the one after it there are calls only, and
among them may be the lookup of an entity that another writer has created (`Run.Submits`): of this
lookup the observer does not hear.
-/

set_option autoImplicit false

namespace DesiredState

/-! ## What is heard of a handling -/

/-- The moment before a write. -/
def WriteKind.before : WriteKind → Entity → Moment
  | .create => .beforeCreate
  | .update => .beforeUpdate

/-- The moment after a write, with the entity that was sent and the one that is in place. -/
def WriteKind.after : WriteKind → Entity → Entity → Moment
  | .create => .afterCreate
  | .update => .afterUpdate

/-- The verb of a write. -/
def Visit.method (visit : Visit) : WriteKind → Method
  | .create => visit.blueprint.createMethod
  | .update => visit.blueprint.updateMethod

/-- Where a write goes and the entity with the field set that refers to its parent, before the
observer has seen it; or why there is none. -/
def Visit.draft (visit : Visit) (template : String) : Except Failure (String × Entity) := do
  let uri ← visit.destination template
  let linked ← Run.linked visit.blueprint visit.lineage visit.desired
  pure (uri, linked)

namespace Run

/-- The observer is shown a flagged entity and puts another one in its place. An entity that is not
flagged is not shown and stays. -/
inductive Substitutes (observer : Observer) (flagged : Bool) (entity : Entity) :
    List Event → Entity → Prop
  | shown (given : flagged = true) :
      Substitutes observer flagged entity [.told (.moment (.substitution entity))]
        (observer.substitute entity)
  | plain (none : flagged = false) : Substitutes observer flagged entity [] entity

/-- What is asked to write an entity at a path, and what comes of it. The observer hears nothing of
this, not even of the lookup after a create that was rejected as invalid. -/
inductive Submits (run : Run) (visit : Visit) (kind : WriteKind) (uri : String) (sender : Entity) :
    List Event → Outcome (Option Entity) → Prop
  | unusable (reads : (visit.method kind).isWrite = false) :
      Submits run visit kind uri sender []
        (.failed (.methodUnusable sender.type kind (visit.method kind)))
  | written {exchange : Exchange} {value : Json} (writes : (visit.method kind).isWrite = true)
      (told : run.access.written (visit.method kind) uri sender.body exchange = .ok value) :
      Submits run visit kind uri sender
        [.called ⟨⟨visit.method kind, uri, some sender.body⟩, exchange⟩]
        (.value (some (sender.answeredWith value)))
  | refused {exchange : Exchange} {failure : CallFailure}
      (writes : (visit.method kind).isWrite = true)
      (told : run.access.written (visit.method kind) uri sender.body exchange = .error failure)
      (final : kind = .create → failure.isValidation = false) :
      Submits run visit kind uri sender
        [.called ⟨⟨visit.method kind, uri, some sender.body⟩, exchange⟩]
        (.failed (run.callFailure sender.type uri failure))
  /-- A create was answered with the status for invalid writes, and the entity that was sent may be
  looked up. -/
  | rejected {exchange : Exchange} {failure : CallFailure} {events : List Event}
      {outcome : Outcome (Option Entity)} (create : kind = .create)
      (writes : (visit.method kind).isWrite = true)
      (told : run.access.written (visit.method kind) uri sender.body exchange = .error failure)
      (invalid : failure.isValidation = true)
      (recovery : Recovery run (visit.sending sender) uri failure events outcome) :
      Submits run visit kind uri sender
        (.called ⟨⟨visit.method kind, uri, some sender.body⟩, exchange⟩ :: events) outcome

/-- The moment that is told if there is an entity in the end, and nothing without one. -/
def heardOf (moment : Entity → Moment) : Outcome (Option Entity) → List Event
  | .value (some entity) => [.told (.moment (moment entity))]
  | _ => []

/-- All that is heard of a write, around what is asked: the substitution of a flagged entity, the
moment before the write with the entity that is sent, and if an entity is in place in the end, the
moment after the write with both. -/
inductive Writes (run : Run) (observer : Observer) (visit : Visit) (kind : WriteKind) (uri : String)
    (linked : Entity) : List Event → Outcome (Option Entity) → Prop
  | mk {shown requests : List Event} {sender : Entity} {outcome : Outcome (Option Entity)}
      (substitutes : Substitutes observer visit.desired.substitutes linked shown sender)
      (submits : Submits run visit kind uri sender requests outcome) :
      Writes run observer visit kind uri linked
        (shown ++ .told (.moment (kind.before sender)) :: (requests ++ heardOf (kind.after sender)
          outcome)) outcome

/-- All that is heard of an entity after its lookup, which was answered with the response if there
was one. If a write cannot be made ready, nothing is heard. -/
inductive Follows (run : Run) (observer : Observer) (visit : Visit) :
    Option Response → List Event → Outcome (Option Entity) → Prop
  | kept {response : Response} {value : Json} (wet : run.dry = false)
      (status : response.status = foundStatus) (spelled : response.json? = some value)
      (fixed : visit.desired.updates = false) :
      Follows run observer visit (some response) []
        (.value (some (.ofRemote value visit.desired.className)))
  | uncreated {answer : Option Response} {failure : Failure} (wet : run.dry = false)
      (absent : ∀ response, answer = some response → response.status = CallFailure.missingStatus)
      (fails : visit.draft visit.blueprint.createUri = .error failure) :
      Follows run observer visit answer [] (.failed failure)
  | created {answer : Option Response} {uri : String} {linked : Entity} {events : List Event}
      {outcome : Outcome (Option Entity)} (wet : run.dry = false)
      (absent : ∀ response, answer = some response → response.status = CallFailure.missingStatus)
      (drafted : visit.draft visit.blueprint.createUri = .ok (uri, linked))
      (writes : Writes run observer visit .create uri linked events outcome) :
      Follows run observer visit answer events outcome
  | unrenewed {response : Response} {value : Json} {known : Entity} {template : String}
      {failure : Failure} (wet : run.dry = false) (status : response.status = foundStatus)
      (spelled : response.json? = some value) (updates : visit.desired.updates = true)
      (given : visit.blueprint.lookupUri? = some template)
      (fails : (visit.sending (visit.desired.laidOver known)).draft template = .error failure) :
      Follows run observer visit (some response)
        [.recalled run.session (.ofRemote value visit.desired.className) known] (.failed failure)
  | updated {response : Response} {value : Json} {known : Entity} {template uri : String}
      {linked : Entity} {events : List Event} {outcome : Outcome (Option Entity)}
      (wet : run.dry = false) (status : response.status = foundStatus)
      (spelled : response.json? = some value) (updates : visit.desired.updates = true)
      (given : visit.blueprint.lookupUri? = some template)
      (drafted : (visit.sending (visit.desired.laidOver known)).draft template = .ok (uri, linked))
      (writes : Writes run observer visit .update uri linked events outcome) :
      Follows run observer visit (some response)
        (.recalled run.session (.ofRemote value visit.desired.className) known :: events) outcome
  | unasked (dry : run.dry = true) :
      Follows run observer visit none [.told (.report (.ofMissing visit.desired))]
        (.value (some visit.desired))
  | missing {response : Response} (dry : run.dry = true)
      (status : response.status = CallFailure.missingStatus) :
      Follows run observer visit (some response) [.told (.report (.ofMissing visit.desired))]
        (.value none)
  /-- A dry run shows what was found, if the desired entity is flagged, and reports on what the
  observer puts in its place. -/
  | compared {response : Response} {value : Json} {shown : List Event} {remote : Entity}
      (dry : run.dry = true) (status : response.status = foundStatus)
      (spelled : response.json? = some value)
      (substitutes : Substitutes observer visit.desired.substitutes
        (.ofRemote value visit.desired.className) shown remote) :
      Follows run observer visit (some response)
        (shown ++ [.told (.report (.ofExisting remote visit.desired))])
        (.value (some (visit.desired.laidOver remote)))

/-- All that is heard of an entity itself until it is in place or given up, beside what is asked and
answered. The observer hears of the lookup exactly if there is a path for it, and of the answer
exactly if there is one. -/
inductive Attends (run : Run) (observer : Observer) (visit : Visit) :
    List Event → Outcome (Option Entity) → Prop
  | unfilled {template path : String} (given : visit.blueprint.lookupUri? = some template)
      (unfilled : Template.resolve visit.lineage visit.desired template = .unfilled path) :
      Attends run observer visit [] (.failed (.templateUnfilled template path))
  | unasked {events : List Event} {outcome : Outcome (Option Entity)} (unable : visit.Unaddressed)
      (follows : Follows run observer visit none events outcome) :
      Attends run observer visit events outcome
  | lost {path cause : String} {failure : CallFailure}
      (address : lookupAddress? visit.blueprint visit.lineage visit.desired = some path)
      (told : run.access.received ⟨.get, path, none⟩ (.lost cause) = .error failure) :
      Attends run observer visit [.told (.moment (.beforeLookup visit.desired)),
        .called ⟨⟨.get, path, none⟩, .lost cause⟩]
        (.failed (run.callFailure visit.desired.type path failure))
  | unexpected {path : String} {response : Response}
      (address : lookupAddress? visit.blueprint visit.lineage visit.desired = some path)
      (notFound : response.status ≠ foundStatus)
      (notMissing : response.status ≠ CallFailure.missingStatus) :
      Attends run observer visit [.told (.moment (.beforeLookup visit.desired)),
        .called ⟨⟨.get, path, none⟩, .answered response⟩,
        .told (.moment (.afterLookup visit.desired response))]
        (.failed (.statusUnexpected visit.desired.type run.label path response.status))
  | undecodable {path : String} {response : Response}
      (address : lookupAddress? visit.blueprint visit.lineage visit.desired = some path)
      (status : response.status = foundStatus) (garbled : response.json? = none) :
      Attends run observer visit [.told (.moment (.beforeLookup visit.desired)),
        .called ⟨⟨.get, path, none⟩, .answered response⟩,
        .told (.moment (.afterLookup visit.desired response))]
        (.failed (.undecodable (visit.desired.type ++ " at " ++ path) unreadableJson))
  | answered {path : String} {response : Response} {events : List Event}
      {outcome : Outcome (Option Entity)}
      (address : lookupAddress? visit.blueprint visit.lineage visit.desired = some path)
      (follows : Follows run observer visit (some response) events outcome) :
      Attends run observer visit (.told (.moment (.beforeLookup visit.desired))
        :: .called ⟨⟨.get, path, none⟩, .answered response⟩
        :: .told (.moment (.afterLookup visit.desired response)) :: events) outcome

/-! ## What a patient observer hears -/

section Patient

variable {run : Run} {observer : Observer} {visit : Visit} {α : Type} {events : List Event}

theorem yields_observe_patient {moment : Moment} {continuation : Unit → Plan α}
    {outcome : Outcome α}
    (yields : ((run.patient observer).observe moment >>= continuation).Yields events outcome) :
    ∃ rest, events = .told (.moment moment) :: rest ∧ (continuation ()).Yields rest outcome :=
  yields

theorem yields_substitute_patient {flagged : Bool} {entity : Entity}
    {continuation : Entity → Plan α} {outcome : Outcome α}
    (yields : ((run.patient observer).substitute flagged entity >>= continuation).Yields events
      outcome) :
    ∃ shown sender rest, Substitutes observer flagged entity shown sender ∧ events = shown ++ rest ∧
      (continuation sender).Yields rest outcome := by
  cases flagged with
  | false =>
      rw [substitute_plain] at yields
      exact ⟨[], entity, events, .plain rfl, rfl, yields⟩
  | true =>
      have observed : (run.patient observer).observer = some observer.patient := rfl
      rw [substitute_flagged observed, bind_assoc] at yields
      obtain ⟨rest, rfl, goesOn⟩ := yields_observe_patient yields
      exact ⟨_, _, rest, .shown rfl, rfl, goesOn⟩

/-- **A write is heard**, from its substitution to its end, or it cannot be made ready and nothing
is heard of it. -/
theorem writes_of_prepare {kind : WriteKind} {template : String} {desired : Entity}
    {continuation : String → Entity → Plan (Option Entity)} {outcome : Outcome (Option Entity)}
    (flagged : desired.substitutes = visit.desired.substitutes)
    (submits : ∀ {uri sender rest}, (visit.method kind).isWrite = true →
      (continuation uri sender).Yields rest outcome →
      ∃ requests, Submits run visit kind uri sender requests outcome ∧
        rest = requests ++ heardOf (kind.after sender) outcome)
    (yields : (do
      let uri ← required template (← resolve visit.lineage desired template)
      let entity ← (run.patient observer).prepare visit.blueprint visit.lineage desired
      (run.patient observer).observe (kind.before entity)
      if (visit.method kind).isWrite then continuation uri entity
      else Plan.fail (.methodUnusable entity.type kind (visit.method kind))).Yields events
        outcome) :
    (∃ failure, (visit.sending desired).draft template = .error failure ∧ events = [] ∧
      outcome = .failed failure) ∨
    ∃ uri linked, (visit.sending desired).draft template = .ok (uri, linked) ∧
      Writes run observer visit kind uri linked events outcome := by
  simp only [prepare, bind_assoc] at yields
  unfold Visit.draft
  rcases @yields_required_bind (visit.sending desired) _ _ _ _ _ yields with
    ⟨failure, nowhere, rfl, rfl⟩ | ⟨uri, leads, prepares⟩
  · rw [nowhere]
    exact .inl ⟨failure, rfl, rfl, rfl⟩
  rw [leads]
  rcases @yields_linkParent_bind (visit.sending desired) _ _ _ _ prepares with
    ⟨failure, orphaned, rfl, rfl⟩ | ⟨linked, links, replaces⟩
  · rw [orphaned]
    exact .inl ⟨failure, rfl, rfl, rfl⟩
  rw [links]
  obtain ⟨shown, sender, told, substitutes, rfl, tells⟩ := yields_substitute_patient replaces
  obtain ⟨rest, rfl, sends⟩ := yields_observe_patient tells
  rw [linked_substitutes links] at substitutes
  change Substitutes observer desired.substitutes linked shown sender at substitutes
  rw [flagged] at substitutes
  refine .inr ⟨uri, linked, rfl, ?_⟩
  by_cases writes : (visit.method kind).isWrite = true
  · rw [if_pos writes] at sends
    obtain ⟨requests, submitted, rfl⟩ := submits writes sends
    exact .mk substitutes submitted
  · rw [if_neg writes] at sends
    obtain ⟨rfl, rfl⟩ := sends
    exact .mk substitutes (.unusable (by simpa using writes))

/-- What a recovery has found is heard of, and the lookup itself is not. -/
theorem heard_of_recovery {uri : String} {rejection : CallFailure} {sender : Entity}
    {outcome : Outcome (Option Entity)}
    (yields : ((run.patient observer).recover visit.blueprint visit.lineage sender uri rejection
      >>= fun found => match found with
        | none => pure none
        | some existing => do
            (run.patient observer).observe (.afterCreate sender existing)
            pure (some existing)).Yields events outcome) :
    ∃ asked, Recovery run (visit.sending sender) uri rejection asked outcome ∧
      events = asked ++ heardOf (.afterCreate sender) outcome := by
  have recovers : ∀ {asked : List Event} {ended : Outcome (Option Entity)},
      ((run.patient observer).recover visit.blueprint visit.lineage sender uri rejection).Yields
        asked ended → Recovery run (visit.sending sender) uri rejection asked ended :=
    fun asks => @recovery_of_recover run (visit.sending sender) _ _ _ _ asks
  rcases Plan.yields_bind.mp yields with ⟨found, asked, rest, rfl, asks, goesOn⟩ |
    ⟨ended, asks, ends⟩
  · cases found with
    | none =>
        obtain ⟨rfl, rfl⟩ := goesOn
        exact ⟨asked, recovers asks, rfl⟩
    | some existing =>
        obtain ⟨rest, rfl, rfl, rfl⟩ := yields_observe_patient goesOn
        exact ⟨asked, recovers asks, rfl⟩
  · cases ends with
    | failed failure => exact ⟨events, recovers asks, (List.append_nil events).symm⟩
    | broken cause => cases recovers asks

/-- A create that was sent is heard of again exactly if an entity is in place then. -/
theorem submits_of_submitCreate {uri : String} {sender : Entity} {outcome : Outcome (Option Entity)}
    (writes : (visit.method .create).isWrite = true)
    (yields : ((run.patient observer).submitCreate visit.blueprint visit.lineage sender uri).Yields
      events outcome) :
    ∃ requests, Submits run visit .create uri sender requests outcome ∧
      events = requests ++ heardOf (.afterCreate sender) outcome := by
  obtain ⟨exchange, rest, rfl, told⟩ :=
    (Access.yields_write_bind writes).mp (Plan.yields_log_bind.mp yields)
  rw [patient_access] at told
  cases answered : run.access.written (visit.method .create) uri sender.body exchange with
  | ok value =>
      rw [answered] at told
      obtain ⟨rest, rfl, rfl, rfl⟩ := yields_observe_patient told
      exact ⟨_, .written writes answered, rfl⟩
  | error failure =>
      rw [answered] at told
      simp only at told
      by_cases invalid : failure.isValidation = true
      · rw [if_pos invalid] at told
        obtain ⟨asked, recovery, rfl⟩ := heard_of_recovery told
        exact ⟨_, .rejected rfl writes answered invalid recovery, rfl⟩
      · rw [if_neg invalid] at told
        obtain ⟨rfl, rfl⟩ := told
        exact ⟨_, .refused writes answered fun _ => by simpa using invalid, rfl⟩

/-- An update that was sent is heard of again exactly if it succeeds. -/
theorem submits_of_submitUpdate {uri : String} {sender : Entity} {outcome : Outcome (Option Entity)}
    (writes : (visit.method .update).isWrite = true)
    (yields : (some <$> (run.patient observer).submitUpdate visit.blueprint sender uri).Yields
      events outcome) :
    ∃ requests, Submits run visit .update uri sender requests outcome ∧
      events = requests ++ heardOf (.afterUpdate sender) outcome := by
  simp only [submitUpdate, map_bind] at yields
  obtain ⟨exchange, rest, rfl, told⟩ :=
    (Access.yields_write_bind writes).mp (Plan.yields_log_bind.mp yields)
  rw [patient_access] at told
  cases answered : run.access.written (visit.method .update) uri sender.body exchange with
  | ok value =>
      rw [answered] at told
      simp only [map_bind] at told
      obtain ⟨rest, rfl, rfl, rfl⟩ := yields_observe_patient told
      exact ⟨_, .written writes answered, rfl⟩
  | error failure =>
      rw [answered] at told
      obtain ⟨rfl, rfl⟩ := told
      exact ⟨_, .refused writes answered (fun create => by cases create), rfl⟩

theorem follows_of_create {answer : Option Response} {outcome : Outcome (Option Entity)}
    (wet : run.dry = false)
    (absent : ∀ response, answer = some response → response.status = CallFailure.missingStatus)
    (yields : ((run.patient observer).create visit.blueprint visit.lineage visit.desired).Yields
      events outcome) : Follows run observer visit answer events outcome := by
  simp only [create, patient_dry, wet, Bool.false_eq_true, if_false] at yields
  rcases writes_of_prepare rfl submits_of_submitCreate yields with
    ⟨failure, fails, rfl, rfl⟩ | ⟨uri, linked, drafted, writes⟩
  · exact .uncreated wet absent fails
  · exact .created wet absent drafted writes

theorem follows_of_update {response : Response} {value : Json} {known : Entity} {template : String}
    {outcome : Outcome (Option Entity)} (wet : run.dry = false)
    (status : response.status = foundStatus) (spelled : response.json? = some value)
    (updates : visit.desired.updates = true) (given : visit.blueprint.lookupUri? = some template)
    (yields : (some <$> (run.patient observer).update visit.blueprint visit.lineage
      (visit.desired.laidOver known)).Yields events outcome) :
    Follows run observer visit (some response)
      (.recalled run.session (.ofRemote value visit.desired.className) known :: events)
      outcome := by
  have nothing : ∀ failure : Failure,
      some <$> (Plan.fail failure : Plan Entity) = (Plan.fail failure : Plan (Option Entity)) :=
    fun _ => rfl
  simp only [update, patient_dry, wet, Bool.false_eq_true, if_false, lookupPath, given,
    updateUri_of_lookupUri given, Option.getD_some, map_bind,
    apply_ite (fun plan : Plan Entity => some <$> plan), nothing] at yields
  have flagged : (visit.desired.laidOver known).substitutes = visit.desired.substitutes := rfl
  rcases writes_of_prepare flagged submits_of_submitUpdate yields with
    ⟨failure, fails, rfl, rfl⟩ | ⟨uri, linked, drafted, writes⟩
  · exact .unrenewed wet status spelled updates given fails
  · exact .updated wet status spelled updates given drafted writes

theorem follows_of_settleExisting {path : String} {response : Response} {value : Json}
    {outcome : Outcome (Option Entity)}
    (address : lookupAddress? visit.blueprint visit.lineage visit.desired = some path)
    (status : response.status = foundStatus) (spelled : response.json? = some value)
    (yields : (some <$> (run.patient observer).settleExisting visit.blueprint visit.lineage
      visit.desired (.ofRemote value visit.desired.className) path).Yields events outcome) :
    Follows run observer visit (some response) events outcome := by
  cases mode : run.dry with
  | true =>
      simp only [settleExisting, patient_dry, mode, if_true, map_bind] at yields
      obtain ⟨shown, remote, rest, substitutes, rfl, reports⟩ := yields_substitute_patient yields
      rw [reportExisting, bind_assoc] at reports
      obtain ⟨rest, rfl, rfl, rfl⟩ := Plan.yields_log_bind.mp reports
      exact .compared mode status spelled substitutes
  | false =>
      simp only [settleExisting, patient_dry, mode, Bool.false_eq_true, if_false] at yields
      by_cases updates : visit.desired.updates = true
      · obtain ⟨template, given, _⟩ := Option.bind_eq_some_iff.mp address
        rw [if_pos updates, map_bind] at yields
        obtain ⟨known, rest, rfl, renews⟩ := Plan.yields_recall_bind.mp yields
        rw [map_bind] at renews
        exact follows_of_update mode status spelled updates given (Plan.yields_log_bind.mp renews)
      · rw [if_neg updates, map_bind] at yields
        obtain ⟨rfl, rfl⟩ := Plan.yields_log_bind.mp yields
        exact .kept mode status spelled (by simpa using updates)

theorem attends_of_settleAnswered {path : String} {response : Response}
    {outcome : Outcome (Option Entity)}
    (address : lookupAddress? visit.blueprint visit.lineage visit.desired = some path)
    (yields : ((run.patient observer).settleAnswered visit.blueprint visit.lineage visit.desired
      path response).Yields events outcome) :
    Attends run observer visit (.told (.moment (.beforeLookup visit.desired))
      :: .called ⟨⟨.get, path, none⟩, .answered response⟩
      :: .told (.moment (.afterLookup visit.desired response)) :: events) outcome := by
  unfold settleAnswered at yields
  split at yields
  · rename_i found
    split at yields
    · rename_i garbled
      obtain ⟨rfl, rfl⟩ := yields
      exact .undecodable address found garbled
    · rename_i value spelled
      exact .answered address (follows_of_settleExisting address found spelled yields)
  · rename_i notFound
    split at yields
    · rename_i missing
      refine .answered address ?_
      cases mode : run.dry with
      | true =>
          rw [patient_dry, if_pos mode, reportMissing, bind_assoc] at yields
          obtain ⟨rest, rfl, rfl, rfl⟩ := Plan.yields_log_bind.mp yields
          exact .missing mode missing
      | false =>
          simp only [patient_dry, mode, Bool.false_eq_true, if_false] at yields
          refine follows_of_create mode ?_ yields
          rintro _ ⟨⟩
          exact missing
    · rename_i notMissing
      obtain ⟨rfl, rfl⟩ := yields
      exact .unexpected address notFound notMissing

/-- **What a patient observer hears of an entity.** -/
theorem attends_of_settle {outcome : Outcome (Option Entity)}
    (yields : (visit.settle (run.patient observer)).Yields events outcome) :
    Attends run observer visit events outcome := by
  rcases yields_lookupPath_bind yields with ⟨path, address, looks⟩ | ⟨unable, goesOn⟩ |
    ⟨template, path, given, unfilled, rfl, rfl⟩
  · obtain ⟨asks, rfl, asked⟩ := yields_observe_patient looks
    obtain ⟨exchange, rest, rfl, told⟩ := Access.yields_get_bind.mp asked
    cases exchange with
    | lost cause =>
        obtain ⟨rfl, rfl⟩ := told
        exact .lost address rfl
    | answered response =>
        obtain ⟨rest, rfl, settles⟩ := yields_observe_patient told
        exact attends_of_settleAnswered address settles
  · refine .unasked unable ?_
    cases mode : run.dry with
    | true =>
        simp only [patient_dry, mode, if_true, reportMissing, bind_assoc] at goesOn
        obtain ⟨rest, rfl, rfl, rfl⟩ := Plan.yields_log_bind.mp goesOn
        exact .unasked mode
    | false =>
        simp only [patient_dry, mode, Bool.false_eq_true, if_false] at goesOn
        exact follows_of_create mode (fun _ given => by cases given) goesOn
  · exact .unfilled given unfilled

end Patient

/-! ## Wherever a handling stops -/

/-- What is heard of an entity by an observer who may break off, wherever its handling has got to
and whatever has become of it. -/
inductive Hears (run : Run) (observer : Observer) (visit : Visit) : List Event → Fate → Prop
  | underWay {own more : List Event} {outcome : Outcome (Option Entity)}
      (attends : Attends run observer visit (own ++ more) outcome) :
      Hears run observer visit own .pending
  /-- The observer has broken off at the moment that comes next. -/
  | broken {own more : List Event} {moment : Moment} {cause : String}
      {outcome : Outcome (Option Entity)} (breaks : observer.breaks moment = some cause)
      (attends : Attends run observer visit (own ++ .told (.moment moment) :: more) outcome) :
      Hears run observer visit own .failed
  /-- No entity is in place: the handling has failed, or there is none. -/
  | ended {own : List Event} {outcome : Outcome (Option Entity)}
      (attends : Attends run observer visit own outcome)
      (nothing : ∀ settled, outcome ≠ .value (some settled)) :
      Hears run observer visit own (Fate.of (some outcome))
  /-- An entity is in place; what becomes of the task is the matter of its children. -/
  | settled {own : List Event} {settled : Entity}
      (attends : Attends run observer visit own (.value (some settled))) (fate : Fate) :
      Hears run observer visit own fate

section Hears

variable {run : Run} {observer : Observer} {visit : Visit} {own : List Event}

/-- What is heard of a handling, up to a moment at which the observer breaks off. -/
theorem attends_of_yields (observed : run.observer = some observer)
    {outcome : Outcome (Option Entity)} (yields : (visit.settle run).Yields own outcome) :
    Attends run observer visit own outcome ∨ ∃ moment cause more ended,
      observer.breaks moment = some cause ∧ outcome = .broken cause ∧
      Attends run observer visit (own ++ .told (.moment moment) :: more) ended := by
  have interrupts : Plan.Interrupts observer (visit.settle run)
      (visit.settle (run.patient observer)) := interrupts_settle observed visit.desired
  have reaches := interrupts.yields (solitary_settle visit.desired) yields
  rcases reaches with same | ⟨moment, cause, more, ended, breaks, same, goesOn⟩
  · exact .inl (attends_of_settle same)
  · exact .inr ⟨moment, cause, more, ended, breaks, same, attends_of_settle goesOn⟩

/-- An entity is in place only after the observer has heard all. -/
theorem attends_of_settled (observed : run.observer = some observer) {settled : Entity}
    (settles : (visit.settle run).Takes run (.ofEvents own .idle) (some (.value (some settled)))) :
    Attends run observer visit own (.value (some settled)) := by
  rcases attends_of_yields observed (settles.yields_ended (solitary_settle visit.desired)) with
    attends | ⟨_, _, _, _, _, nothing, _⟩
  · exact attends
  · cases nothing

/-- A handling that has put nothing in place. -/
theorem hears_of_unsettled (observed : run.observer = some observer)
    {ended : Option (Outcome (Option Entity))}
    (settles : (visit.settle run).Takes run (.ofEvents own .idle) ended)
    (nothing : ∀ settled, ended ≠ some (.value (some settled))) :
    Hears run observer visit own (Fate.of ended) := by
  cases ended with
  | none =>
      obtain ⟨more, outcome, yields⟩ := settles.yields_own (solitary_settle visit.desired)
      rcases attends_of_yields observed yields with attends |
        ⟨moment, cause, rest, ended, _, _, attends⟩
      · exact .underWay attends
      · rw [List.append_assoc] at attends
        exact .underWay attends
  | some outcome =>
      rcases attends_of_yields observed (settles.yields_ended (solitary_settle visit.desired)) with
        attends | ⟨moment, cause, rest, ended, breaks, rfl, attends⟩
      · exact .ended attends fun settled same => nothing settled (congrArg some same)
      · exact .broken breaks attends

end Hears

/-- What the task of an entity has done itself: it has begun, the observer has heard of the entity
as far as the handling has got, and in the end the entity in place is remembered and its children
may be given up. -/
inductive Attended (run : Run) (observer : Observer) (visit : Visit) : List Event → Fate → Prop
  | unbegun {closing : List Event} (closes : ∀ event ∈ closing, event.isClosing = true) :
      Attended run observer visit closing .pending
  | begun {own closing : List Event} {fate : Fate} (hears : Hears run observer visit own fate)
      (closes : ∀ event ∈ closing, event.isClosing = true) :
      Attended run observer visit (.told (.begun visit) :: (own ++ closing)) fate

theorem Attended.append {run : Run} {observer : Observer} {visit : Visit} {own more : List Event}
    {fate : Fate} (attended : Attended run observer visit own fate)
    (closes : ∀ event ∈ more, event.isClosing = true) :
    Attended run observer visit (own ++ more) fate := by
  cases attended with
  | unbegun before => exact .unbegun (List.forall_mem_append.mpr ⟨before, closes⟩)
  | begun hears before =>
      rw [List.cons_append, List.append_assoc]
      exact .begun hears (List.forall_mem_append.mpr ⟨before, closes⟩)

end Run

namespace Account

variable {run : Run} {observer : Observer} {account : Account} {visit : Visit}

/-- The task of an entity has been attended by the observer. -/
theorem Sound.attended (observed : run.observer = some observer) (sound : account.Sound run)
    (entity : account.task = .entity visit) :
    Run.Attended run observer visit account.own account.fate := by
  have remembered : ∀ settled : Entity, ∀ event ∈ [Event.remembered run.session settled],
      event.isClosing = true := fun settled => List.forall_mem_singleton.mpr rfl
  rcases sound.form with ⟨_, _, stops⟩ | ⟨groups, _, handsOut, _, _⟩
  · rw [entity] at stops
    generalize account.own = own at stops ⊢
    generalize account.fate = fate at stops ⊢
    cases stops with
    | unbegun _ => exact .unbegun (List.forall_mem_nil _)
    | @unsettled _ own _ settles nothing =>
        rw [← List.append_nil own]
        exact .begun (Run.hears_of_unsettled observed settles nothing) (List.forall_mem_nil _)
    | undeclared settles _ _ =>
        exact .begun (.settled (Run.attends_of_settled observed settles) _) (remembered _)
  · rw [entity] at handsOut
    generalize account.own = own at handsOut ⊢
    cases handsOut with
    | entity settles _ =>
        exact .begun (.settled (Run.attends_of_settled observed settles) _) (remembered _)

/-- What the history says of the task of an entity has been attended by the observer. -/
theorem Sound.attended_own (observed : run.observer = some observer) (sound : account.Sound run)
    (ordered : account.task.Ordered) {origin : Origin} {part : Account}
    (found : account.part? origin = some part) (entity : part.task = .entity visit) :
    Run.Attended run observer visit (account.history.own origin) part.fate := by
  obtain ⟨gaveUp, same, quiet⟩ := sound.own ordered found
  rw [same]
  refine ((sound.of_part? ordered found).1.attended observed entity).append ?_
  rcases quiet with rfl | rfl
  · exact List.forall_mem_nil _
  · exact List.forall_mem_singleton.mpr rfl

end Account

namespace Run

/-- The events are those of an account of the task in which all is attributed to the task it is of,
and the observer has attended the task of each entity. -/
def AttendsEach (run : Run) (observer : Observer) (task : Task) (events : List Event)
    (fate : Fate) : Prop :=
  ∃ account : Account, account.task = task ∧ account.fate = fate ∧ account.Sound run ∧
    account.history.events = events ∧
    (∀ entry ∈ account.history, ∃ part, account.part? entry.1 = some part) ∧
    ∀ origin part visit, account.part? origin = some part → part.task = .entity visit →
      Attended run observer visit (account.history.own origin) part.fate

theorem Accounts.attendsEach {run : Run} {observer : Observer}
    (observed : run.observer = some observer) {task : Task} (ordered : task.Ordered)
    {events : List Event} {fate : Fate} (accounts : Accounts run task events fate) :
    AttendsEach run observer task events fate := by
  obtain ⟨account, rfl, rfl, sound, rfl⟩ := accounts
  refine ⟨account, rfl, rfl, sound, rfl, ?_, ?_⟩
  · rintro ⟨origin, event⟩ inside
    exact Option.isSome_iff_exists.mp (sound.known ordered event inside)
  · exact fun origin part visit found entity => sound.attended_own observed ordered found entity

/-- **The moments that an observer is told of bracket the steps that happen.** Whatever the run is
answered, whatever its observer does, and wherever it has got to, the own events of each entity, at
any depth, are those of `Attends` or a beginning of them. The observer is told of a lookup before it
is sent and when it is answered; then of one write at most, and of none in a dry run, with the
entity that is sent, and again exactly if an entity is in place after it, with both; and a flagged
entity is shown once, before the write of what is put in its place or before the report on it. -/
theorem moments_bracket_steps {run : Run} {observer : Observer}
    (observed : run.observer = some observer) :
    (∀ visit events (stage : Stage ChildTask (Option Entity)), visit.blueprint.Ordered →
      Stage.Steps run (.active (run.reconcile visit.blueprint visit.lineage visit.desired)) events
        stage → AttendsEach run observer (.entity visit) events (Fate.of stage.outcome?)) ∧
    (∀ type text events (stage : Stage ChildTask (List Entity)),
      Stage.Steps run (.active (run.document type text)) events stage →
        AttendsEach run observer (.document type text) events (Fate.of stage.outcome?)) ∧
    ∀ documents events (stage : Stage ChildTask (List (String × String))),
      Stage.Steps run (.active (run.models documents)) events stage →
        AttendsEach run observer (.catalog documents) events (Fate.of stage.outcome?) := by
  refine ⟨?_, ?_, ?_⟩
  · intro visit events stage sorted steps
    obtain ⟨course, takes, orders⟩ := steps.takes
    have ordered : (Task.entity visit).Ordered := sorted
    exact (accounts_of_reconcile takes orders).attendsEach observed ordered
  · intro type text events stage steps
    obtain ⟨course, takes, orders⟩ := steps.takes
    have ordered : (Task.document type text).Ordered := trivial
    exact (accounts_of_document takes orders).attendsEach observed ordered
  · intro documents events stage steps
    obtain ⟨course, takes, orders⟩ := steps.takes
    have ordered : (Task.catalog documents).Ordered := trivial
    exact (accounts_of_models takes orders).attendsEach observed ordered

end Run

/-! ## A thing that is marked before it is sent -/

namespace Sample

/-- An observer who marks what is shown. -/
def marking : Observer := ⟨fun entity => entity.setField "mark" (.bool true), fun _ => none⟩

/-- The contested thing, to be shown before it is sent. -/
def markable : Visit :=
  { contested with desired := { contested.desired with substitutes := true } }

theorem ordered_markable : markable.blueprint.Ordered := .mk .nil (List.forall_mem_nil _)

/-- The handling of the thing, before the observer. -/
def marked : RunResult ((String → Nat) × List Call) (Option Entity) :=
  (Engine.create ⟨"/blueprints", 2, 1000, "sample"⟩ (some marking) false).execute
    ⟨⟨0⟩, .direct, .recorded overtaking⟩ 20
    (·.reconcile markable.blueprint markable.lineage markable.desired) (fun _ => 0, [])

/-- What the task of this handling works with. -/
def marker : Run := { trial false with observer := some marking }

/-- A moment in a word, and whether the entity that it is told with is marked. -/
def heardMark? : Notice → Option (String × Bool)
  | .moment (.beforeLookup entity) => some ("before lookup", (entity.field? "mark").isSome)
  | .moment (.afterLookup entity _) => some ("after lookup", (entity.field? "mark").isSome)
  | .moment (.substitution entity) => some ("substitution", (entity.field? "mark").isSome)
  | .moment (.beforeCreate entity) => some ("before create", (entity.field? "mark").isSome)
  | .moment (.afterCreate entity _) => some ("after create", (entity.field? "mark").isSome)
  | _ => none

/-- The thing is looked up, created in vain as the observer wants it, and looked up again. -/
theorem marked_stands : (inPlace? marked).isSome = true ∧
    marked.server.2.reverse.map (·.request.method) = [.get, .put, .get] ∧
    marked.notices.filterMap heardMark? = [("before lookup", false), ("after lookup", false),
      ("substitution", false), ("before create", true), ("after create", true)] := by
  decide +kernel

/-- The observer has attended the handling of the thing to its end. -/
theorem marked_is_attended : ∃ events placed,
    Stage.Steps marker (.active (marker.reconcile markable.blueprint markable.lineage
      markable.desired)) events (.finished (.value (some placed))) ∧
    (calls events).map (·.request.method) = [.get, .put, .get] ∧
    (events.filterMap fun event => event.notice?.bind heardMark?)
      = [("before lookup", false), ("after lookup", false), ("substitution", false),
        ("before create", true), ("after create", true)] ∧
    Run.AttendsEach marker marking (.entity markable) events .succeeded := by
  obtain ⟨there, methods, heard⟩ := marked_stands
  obtain ⟨placed, inPlace⟩ := Option.isSome_iff_exists.mp there
  obtain ⟨events, world, steps, records, serves, tells⟩ :=
    Engine.execute_interleaves _ _ _ _ _ _ (outcome_of_inPlace inPlace)
  have steps : Stage.Steps marker (.active (marker.reconcile markable.blueprint markable.lineage
      markable.desired)) events (.finished (.value (some placed))) := steps
  have records : World.Records (.recorded overtaking) ⟨_, [], (fun _ => 0, [])⟩ events world :=
    records
  have unlogged : ∀ line, heardMark? (.event line) = none := fun _ => rfl
  have observed : marker.observer = some marking := rfl
  refine ⟨events, placed, steps, ?_, ?_, (Run.moments_bracket_steps observed).1 _ _ _
    ordered_markable steps⟩
  · obtain ⟨written, _⟩ := records.recorded
    have served : marked.server = world.server := serves
    rw [served, written] at methods
    simpa using methods
  · have told : marked.notices = _ := tells
    rw [told, records.told_in_journal unlogged] at heard
    exact heard

end Sample

end DesiredState
