import DesiredState.Proofs.Run.Foresight
import DesiredState.Proofs.Run.Inspection

/-!
# What a completed run has done, by the store that it began with

Let an API keep a store, and let a run read no path that it has written before. Then all that the
run has read says what the store held at the start (`Served.answeredFrom`), however its tasks have
interleaved. So what a completed run has done for each of its entities is known from that store: an
entity that was held is found, and any other one is created (`Visit.Realizes`).

**What a store is.** Whatever is read is answered by what is held and stays as it is, and no write
is rejected as invalid (`Answering.IsStore`). What a write leaves is up to the store: the object as
it was sent, or completed by a uuid.
-/

set_option autoImplicit false

namespace DesiredState

variable {answering : Answering Held} {start final : String → Held}

/-! ## Stores -/

/-- An answer says what is held. -/
inductive Exchange.Tells : Held → Exchange → Prop
  | found {fields : NameMap Json} {response : Response} (status : response.status = Run.foundStatus)
      (shown : response.Shows fields) : Tells (some fields) (.answered response)
  | missing {response : Response} (status : response.status = CallFailure.missingStatus) :
      Tells none (.answered response)

/-- Something was found, so it is held, and it was shown. -/
theorem Exchange.Tells.shown {held : Held} {response : Response}
    (tells : (Exchange.answered response).Tells held)
    (found : response.status = Run.foundStatus) :
    ∃ fields, held = some fields ∧ response.Shows fields := by
  cases tells with
  | found _ shown => exact ⟨_, rfl, shown⟩
  | missing missing => exact absurd (found.symm.trans missing) (by decide)

/-- Something was missing, so nothing is held. -/
theorem Exchange.Tells.eq_none {held : Held} {response : Response}
    (tells : (Exchange.answered response).Tells held)
    (missing : response.status = CallFailure.missingStatus) : held = none := by
  cases tells with
  | found found _ => exact absurd (found.symm.trans missing) (by decide)
  | missing _ => rfl

/-- The API keeps a store. -/
structure Answering.IsStore (answering : Answering Held) : Prop where
  /-- What is read is answered by what is held, and stays. -/
  reads : ∀ {request : Request} {held next : Held} {exchange : Exchange},
    request.method.isWrite = false → answering request held exchange next →
      next = held ∧ exchange.Tells held
  /-- No write is rejected as invalid. -/
  accepts : ∀ {call : Call} {held next : Held},
    answering call.request held call.exchange next → call.Accepted

/-- A store that completes what is written by uuids is a store. -/
theorem isStore_stored (assigns : String → String → Prop) :
    Answering.IsStore (Stored assigns) where
  reads := by
    intro request held next exchange reading stored
    cases stored with
    | found status shown => exact ⟨rfl, .found status shown⟩
    | missing status => exact ⟨rfl, .missing status⟩
    | written writes _ _ _ => nomatch writes.symm.trans reading
  accepts := Stored.accepted

/-- The calls are none that were rejected as invalid, and what they have read is what the store
held. -/
structure AnsweredFrom (start : String → Held) (sent : List Call) : Prop where
  accepted : ∀ call ∈ sent, call.Accepted
  told : ∀ call ∈ sent, call.request.method = .get → call.exchange.Tells (start call.request.path)

/-- No path is read after it was written. -/
def ReadsFirst (sent : List Call) : Prop :=
  sent.Pairwise fun earlier later => earlier.request.method.isWrite = true →
    later.request.method = .get → later.request.path ≠ earlier.request.path

instance (sent : List Call) : Decidable (ReadsFirst sent) :=
  inferInstanceAs (Decidable (List.Pairwise _ sent))

theorem AnsweredFrom.subset {sent others : List Call} (answered : AnsweredFrom start sent)
    (inside : others ⊆ sent) : AnsweredFrom start others where
  accepted call member := answered.accepted call (inside member)
  told call member := answered.told call (inside member)

/-- **All that was read says what the store held at the start**, if nothing was written before. -/
theorem Served.answeredFrom (store : answering.IsStore) {sent : List Call}
    (served : Served answering start sent final) : ReadsFirst sent → AnsweredFrom start sent := by
  induction served with
  | nil => exact fun _ => ⟨List.forall_mem_nil _, List.forall_mem_nil _⟩
  | @cons state last sent call next answers _ ih =>
      intro readsFirst
      obtain ⟨ahead, behind⟩ := List.pairwise_cons.mp readsFirst
      have rest := ih behind
      refine ⟨List.forall_mem_cons.mpr ⟨store.accepts answers, rest.accepted⟩,
        List.forall_mem_cons.mpr ⟨?_, ?_⟩⟩
      · intro reading
        exact (store.reads (by rw [reading]; rfl) answers).2
      · intro later member reading
        have told := rest.told later member reading
        by_cases same : later.request.path = call.request.path
        · have kept : next = state call.request.path := by
            cases writes : call.request.method.isWrite with
            | false => exact (store.reads writes answers).1
            | true => exact absurd same (ahead later member writes reading)
          rwa [same, Function.update_self, kept, ← same] at told
        · rwa [Function.update_of_ne same] at told

/-- Calls that only read leave the store as it is. -/
theorem Served.unchanged (store : answering.IsStore) {sent : List Call}
    (served : Served answering start sent final) :
    (∀ call ∈ sent, call.request.method.isWrite = false) → final = start := by
  induction served with
  | nil => exact fun _ => rfl
  | cons call next answers _ ih =>
      intro reads
      obtain ⟨here, later⟩ := List.forall_mem_cons.mp reads
      rw [ih later, (store.reads here answers).1]
      exact Function.update_eq_self _ _

/-- Calls that only read write nothing before. -/
theorem readsFirst_of_reads {sent : List Call}
    (reads : ∀ call ∈ sent, call.request.method.isWrite = false) : ReadsFirst sent := by
  refine List.pairwise_of_forall_mem_list ?_
  intro earlier member _ _ writes
  nomatch (reads earlier member).symm.trans writes

/-! ## One entity -/

namespace Visit

/-- What a completed run has done for an entity: an entity that was held is found, and updated if
need be; any other one is created. -/
inductive Realizes (start : String → Held) (visit : Visit) : List Call → Prop
  | found {uri : String} {fields : NameMap Json} {response : Response} (updates : List Call)
      (address : Run.lookupAddress? visit.blueprint visit.lineage visit.desired = some uri)
      (held : start uri = some fields) (status : response.status = Run.foundStatus)
      (writes : ∀ call ∈ updates, call.request.method.isWrite = true) :
      Realizes start visit (⟨⟨.get, uri, none⟩, .answered response⟩ :: updates)
  | missing {uri : String} {response : Response} {create : Call}
      (address : Run.lookupAddress? visit.blueprint visit.lineage visit.desired = some uri)
      (absent : start uri = none) (status : response.status = CallFailure.missingStatus)
      (writes : create.request.method.isWrite = true) :
      Realizes start visit [⟨⟨.get, uri, none⟩, .answered response⟩, create]
  | unaddressed {create : Call} (unable : visit.Unaddressed)
      (writes : create.request.method.isWrite = true) : Realizes start visit [create]

end Visit

namespace Run

variable {run : Run} {visit : Visit} {sent : List Call} {result : Option Entity}

/-- An entity that is not looked up cannot be. -/
theorem unaddressed_of_lookupPath
    (sends : (lookupPath visit.blueprint visit.lineage visit.desired).Sends sent none) :
    visit.Unaddressed := by
  intro template given
  rw [lookupPath, given] at sends
  simp only [resolve] at sends
  cases resolved : Template.resolve visit.lineage visit.desired template with
  | path uri =>
      rw [resolved] at sends
      cases sends.2
  | unidentified uri => exact ⟨uri, rfl⟩
  | unfilled uri =>
      rw [resolved] at sends
      exact sends.elim

/-- A create that is not rejected is one write, and an entity is in place then. -/
theorem written_of_creates (accepted : ∀ call ∈ sent, call.Accepted)
    (creates : Creates run visit.blueprint visit.lineage visit.desired sent result) :
    (∃ settled, result = some settled) ∧
      ∃ create : Call, sent = [create] ∧ create.request.method.isWrite = true := by
  obtain ⟨uri, entity, exchange, rest, _, _, writes, rfl, answered⟩ := creates
  rcases answered with ⟨value, _, rfl, rfl⟩ | ⟨failure, told, invalid, _⟩
  · exact ⟨⟨_, rfl⟩, _, rfl, writes⟩
  · obtain ⟨response, rfl, rejected⟩ := Access.answered_of_isValidation told invalid
    exact absurd rejected (accepted _ List.mem_cons_self response rfl)

/-- An entity that exists is left as it is, or written. -/
theorem writes_of_settleExisting {remote settled : Entity} {uri : String}
    (sends : (run.settleExisting visit.blueprint visit.lineage visit.desired remote uri).Sends sent
      settled) :
    ∀ call ∈ sent, call.request.method.isWrite = true := by
  rcases calls_of_settleExisting sends with rfl | ⟨_, request, response, writes, _, rfl⟩
  · exact List.forall_mem_nil _
  · exact List.forall_mem_singleton.mpr writes

/-- **What has been done for an entity**, if its lookup says what the store held at the start. -/
theorem realizes_of_settle (plain : run.Plain) (answered : AnsweredFrom start sent)
    (sends : (visit.settle run).Sends sent result) :
    (∃ settled, result = some settled) ∧ visit.Realizes start sent := by
  obtain ⟨path, _, _, rfl, looks, goesOn⟩ := Plan.sends_bind.mp sends
  obtain ⟨rfl, known⟩ := sends_lookupPath looks
  rw [List.nil_append] at answered ⊢
  cases path with
  | none =>
      simp only [plain.wet, Bool.false_eq_true, if_false] at goesOn
      obtain ⟨settled, create, rfl, writes⟩ := written_of_creates answered.accepted
        (sends_create plain.wet plain.faithful goesOn)
      exact ⟨settled, .unaddressed (unaddressed_of_lookupPath looks) writes⟩
  | some uri =>
      obtain ⟨response, rest, rfl, outcome⟩ := sends_lookup plain.wet plain.faithful goesOn
      obtain ⟨first, _⟩ := List.forall_mem_cons.mp answered.told
      have told : (Exchange.answered response).Tells (start uri) := first rfl
      rcases outcome with ⟨status, value, found, _, existing, rfl⟩ | ⟨status, creates⟩
      · obtain ⟨fields, held, _⟩ := told.shown status
        exact ⟨⟨found, rfl⟩, .found rest known.symm held status
          (writes_of_settleExisting existing)⟩
      · have later := (List.forall_mem_cons.mp answered.accepted).2
        obtain ⟨settled, create, rfl, writes⟩ := written_of_creates later creates
        exact ⟨settled, .missing known.symm (told.eq_none status) status writes⟩

/-- An entity that the store held and that is not flagged for an update is taken as it was held. -/
theorem settled_of_held (plain : run.Plain) (still : visit.desired.updates = false) {uri : String}
    {fields : NameMap Json} {settled : Entity}
    (address : lookupAddress? visit.blueprint visit.lineage visit.desired = some uri)
    (held : start uri = some fields) (answered : AnsweredFrom start sent)
    (sends : (visit.settle run).Sends sent (some settled)) :
    settled = .ofRemote (.ofMap fields) visit.desired.className := by
  rcases sends_settle plain.wet plain.faithful sends with ⟨other, also, finds⟩ | ⟨nowhere, _⟩
  · obtain rfl := Option.some.inj (address.symm.trans also)
    obtain ⟨response, rest, rfl, outcome⟩ := finds
    have told : (Exchange.answered response).Tells (start uri) :=
      answered.told _ List.mem_cons_self rfl
    rcases outcome with ⟨status, value, found, spelled, existing, same⟩ | ⟨status, _⟩
    · obtain ⟨_, known, shown⟩ := told.shown status
      obtain rfl := Option.some.inj (held.symm.trans known)
      obtain rfl := Option.some.inj (spelled.symm.trans shown)
      have sameClass : (Entity.ofRemote (.ofMap fields) visit.desired.className).className
          = visit.desired.className := rfl
      obtain ⟨_, kept⟩ := sends_settleExisting plain.wet plain.faithful sameClass existing
      exact (Option.some.inj same).trans (kept still).2
    · cases held.symm.trans (told.eq_none status)
  · cases address.symm.trans nowhere

/-- The blueprint that a run has fetched is the one that the store held. -/
theorem Fetches.held {type : String} {blueprint : Blueprint}
    (fetches : run.Fetches type sent blueprint) (answered : AnsweredFrom start sent) :
    ∃ config, start (run.settings.blueprintUri type) = some config ∧
      Blueprint.read (.ofMap config) = .ok blueprint := by
  obtain ⟨response, value, rfl, success, spelled, reads⟩ := fetches
  have told : (Exchange.answered response).Tells (start (run.settings.blueprintUri type)) :=
    answered.told _ List.mem_cons_self rfl
  generalize start (run.settings.blueprintUri type) = held at told ⊢
  cases told with
  | @found fields _ status shown =>
      obtain rfl := Option.some.inj (spelled.symm.trans shown)
      exact ⟨fields, rfl, reads⟩
  | missing status =>
      rw [Response.isSuccess, status] at success
      cases success

end Run

/-! ## The parts of a run -/

namespace History

variable {history : History}

/-- The events below a waypoint are events of the whole. -/
theorem events_under_subset (place : Waypoint) :
    (history.under place).events ⊆ history.events := by
  intro event member
  obtain ⟨⟨rest, _⟩, inside, rfl⟩ := List.mem_map.mp member
  obtain ⟨⟨origin, event⟩, inHistory, picked⟩ := List.mem_filterMap.mp inside
  refine List.mem_map.mpr ⟨_, inHistory, ?_⟩
  cases origin with
  | nil => nomatch picked
  | cons head others =>
      simp only at picked
      split at picked
      · exact (Prod.mk.inj (Option.some.inj picked)).2
      · nomatch picked

end History

theorem calls_subset {events others : List Event} (inside : others ⊆ events) :
    calls others ⊆ calls events := List.filterMap_subset _ inside

/-- An entity whose children are handed out has been begun and settled. -/
theorem Task.GoesOn.settled {run : Run} {visit : Visit} {own : List Event}
    {groups : List (List (Waypoint × Task))} (goesOn : (Task.entity visit).GoesOn run own groups) :
    ∃ settled, visit ∈ visits own ∧ (visit.settle run).Sends (calls own) (some settled) ∧
      Run.undeclared? visit.blueprint (visit.placed settled) = none ∧
      groups = Task.broods visit settled := by
  cases goesOn with
  | @entity _ mine settled settles declared =>
      have sends : (visit.settle run).Sends (calls mine) (some settled) :=
        settles.sends_own (Run.solitary_settle visit.desired)
      exact ⟨settled, List.mem_cons_self, by simpa using sends, declared, rfl⟩

namespace Account

variable {run : Run} {account : Account}

/-- The events of a member are events of the whole. -/
theorem Sound.events_member (sound : account.Sound run) (ordered : account.task.Ordered)
    {member : Waypoint × Account} (inside : member ∈ account.members) :
    member.2.history.events ⊆ account.history.events := by
  rw [← sound.under ordered member inside]
  exact History.events_under_subset _

/-- What a task did itself are events of the whole. -/
theorem Sound.own_subset (sound : account.Sound run) : account.own ⊆ account.history.events := by
  rcases sound.form with ⟨_, same, _⟩ | ⟨_, _, _, _, same⟩
  · rw [same, History.events_stay]
    exact List.Subset.refl _
  · rw [same, History.events_append, History.events_stay]
    exact List.subset_append_left _ _

/-- What a task itself has read, if all that was read is what the store held. -/
theorem Sound.answered_own (sound : account.Sound run)
    (answered : AnsweredFrom start (calls account.history.events)) :
    AnsweredFrom start (calls account.own) := answered.subset (calls_subset sound.own_subset)

/-- What a member has read, if all that was read is what the store held. -/
theorem Sound.answered_member (sound : account.Sound run) (ordered : account.task.Ordered)
    (answered : AnsweredFrom start (calls account.history.events)) {member : Waypoint × Account}
    (inside : member ∈ account.members) : AnsweredFrom start (calls member.2.history.events) :=
  answered.subset (calls_subset (sound.events_member ordered inside))

/-- **What a completed run has done for an entity**, and what it has gone on to. -/
theorem Sound.realizes (plain : run.Plain) (sound : account.Sound run) {visit : Visit}
    (entity : account.task = .entity visit) (well : account.fate = .succeeded)
    (answered : AnsweredFrom start (calls account.own)) :
    visit.Realizes start (calls account.own) ∧ ∃ settled history,
      settled.className = visit.desired.className ∧
      Run.undeclared? visit.blueprint (visit.placed settled) = none ∧
      Sequel (Task.broods visit settled) account.gangs history .succeeded := by
  rcases sound.form with ⟨_, _, stops⟩ | ⟨groups, history, goesOn, sequel, _⟩
  · rw [entity, well] at stops
    generalize account.own = own at stops answered
    generalize through : Fate.succeeded = fate at stops
    cases stops with
    | unbegun visit => nomatch through
    | @unsettled visit own _ settles nothing =>
        obtain ⟨result, rfl⟩ := Fate.value_of_succeeded through.symm
        have sends := settles.sends_own (Run.solitary_settle visit.desired)
        obtain ⟨⟨settled, rfl⟩, _⟩ := Run.realizes_of_settle plain (by simpa using answered) sends
        exact absurd rfl (nothing settled)
    | undeclared _ _ short => exact absurd through.symm short
  · rw [entity] at goesOn
    rw [well] at sequel
    generalize account.own = own at goesOn answered ⊢
    obtain ⟨settled, _, sends, declared, rfl⟩ := goesOn.settled
    exact ⟨(Run.realizes_of_settle plain answered sends).2, settled, history,
      Run.className_of_settle plain.wet plain.faithful sends, declared, sequel⟩

end Account

end DesiredState
