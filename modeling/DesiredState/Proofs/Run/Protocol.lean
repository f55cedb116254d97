import DesiredState.Proofs.Plan.Completion
import DesiredState.Proofs.Run.Inspection

/-!
# The requests of one entity

A run that is not dry and has no observer asks for an entity itself in a fixed manner: a lookup
where one is possible, then a write where one is due, and a second lookup where a create was
rejected as invalid. `Run.Protocol` says for every sequence of answers what is asked, what is made
of the answers, and with which failure the handling ends where it ends with one.

**Whole and half.** `Protocol` speaks of handlings that have come to their end. Wherever a handling
stops, what it has done is the beginning of one that ends (`Plan.Takes.split_solitary`), so the
order of its requests (`Visit.Orderly`) and all conditions on them hold there too.
-/

set_option autoImplicit false

namespace DesiredState

/-! ## Plans that are through -/

namespace Access

variable {access : Access} {β : Type} {events : List Event} {outcome : Outcome β}

theorem yields_trace_bind {line : LogEvent} {continuation : Unit → Plan β} :
    (access.trace line >>= continuation).Yields events outcome ↔
      (continuation ()).Yields events outcome := by
  unfold trace
  split
  · exact Plan.yields_log_bind
  · rfl

/-- An exchange shows its call, and what follows is told what was received. -/
theorem yields_exchange_bind {request : Request}
    {continuation : Except CallFailure Response → Plan β} :
    (access.exchange request >>= continuation).Yields events outcome ↔
      ∃ exchange rest, events = .called ⟨request, exchange⟩ :: rest ∧
        (continuation (access.received request exchange)).Yields rest outcome := by
  rw [exchange, bind_assoc, yields_trace_bind, bind_assoc, Plan.yields_send_bind]
  refine exists_congr fun exchange => exists_congr fun rest => and_congr_right fun _ => ?_
  cases exchange with
  | lost cause => rfl
  | answered response =>
      change ((access.trace _ >>= fun _ => pure (.ok response)) >>= continuation).Yields rest
        outcome ↔ _
      rw [bind_assoc, yields_trace_bind]
      rfl

theorem yields_get_bind {path : String} {continuation : Except CallFailure Response → Plan β} :
    (access.get path >>= continuation).Yields events outcome ↔
      ∃ exchange rest, events = .called ⟨⟨.get, path, none⟩, exchange⟩ :: rest ∧
        (continuation (access.received ⟨.get, path, none⟩ exchange)).Yields rest outcome :=
  yields_exchange_bind

/-- What is received is decoded for what follows. -/
theorem yields_decoded_bind {request : Request} {decoding : Response → Except CallFailure Json}
    {decoder : Except CallFailure Response → Plan (Except CallFailure Json)}
    {continuation : Except CallFailure Json → Plan β}
    (decodes : ∀ answer, decoder answer = pure (answer.bind decoding)) :
    ((access.exchange request >>= decoder) >>= continuation).Yields events outcome ↔
      ∃ exchange rest, events = .called ⟨request, exchange⟩ :: rest ∧
        (continuation ((access.received request exchange).bind decoding)).Yields rest outcome := by
  have same : decoder = fun answer => pure (answer.bind decoding) := funext decodes
  simp only [same, bind_assoc, pure_bind]
  exact yields_exchange_bind

theorem yields_fetch_bind {path : String} {continuation : Except CallFailure Json → Plan β} :
    (access.fetch path >>= continuation).Yields events outcome ↔
      ∃ exchange rest, events = .called ⟨⟨.get, path, none⟩, exchange⟩ :: rest ∧
        (continuation (access.fetched path exchange)).Yields rest outcome := by
  refine yields_decoded_bind ?_
  intro answer
  cases answer with
  | error failure => rfl
  | ok response => rfl

theorem yields_write_bind {method : Method} {path : String} {body : Json}
    {continuation : Except CallFailure Json → Plan β} (writes : method.isWrite = true) :
    (access.write method path body >>= continuation).Yields events outcome ↔
      ∃ exchange rest, events = .called ⟨⟨method, path, some body⟩, exchange⟩ :: rest ∧
        (continuation (access.written method path body exchange)).Yields rest outcome := by
  rw [write, if_pos writes, submit]
  refine yields_decoded_bind ?_
  intro answer
  cases answer with
  | error failure => rfl
  | ok response => rfl

/-- Only an answer that succeeds and holds a value is decoded to it. -/
theorem of_decoded {method : Method} {address : String} {request : Request} {exchange : Exchange}
    {value : Json}
    (told : (access.received request exchange).bind (decode method address) = .ok value) :
    ∃ response, exchange = .answered response ∧ response.isSuccess = true ∧
      response.json? = some value := by
  cases exchange with
  | lost cause => nomatch told
  | answered response =>
      change decode method address response = .ok value at told
      unfold decode at told
      split at told
      · rename_i success
        split at told
        · rename_i spelled
          cases told
          exact ⟨response, rfl, success, spelled⟩
        · nomatch told
      · nomatch told

/-- A write that is answered with the status for invalid writes fails with that answer. -/
theorem written_of_invalid {method : Method} {path : String} {body : Json}
    {response : Response} (status : response.status = CallFailure.validationStatus) :
    access.written method path body (.answered response)
      = .error (.http method (access.address path) response) := by
  have refused : response.isSuccess = false := by
    rw [Response.isSuccess, status]
    rfl
  change decode method (access.address path) response = _
  rw [decode, if_neg (by simp [refused])]

end Access

namespace Visit

/-! ## What is sent -/

/-- The visit with another entity in the place of the desired one. -/
def sending (visit : Visit) (sender : Entity) : Visit := { visit with desired := sender }

/-- The path of a write, which must be known. -/
def destination (visit : Visit) (template : String) : Except Failure String :=
  match Template.resolve visit.lineage visit.desired template with
  | .path uri => .ok uri
  | .unidentified _ => .error (.templateUnfilled template template)
  | .unfilled uri => .error (.templateUnfilled template uri)

/-- Where a write goes and the entity that is sent, with the field set that refers to its parent;
or why nothing can be sent. -/
def submission (visit : Visit) (kind : WriteKind) (method : Method) (template : String) :
    Except Failure (String × Entity) := do
  let uri ← visit.destination template
  let sender ← Run.linked visit.blueprint visit.lineage visit.desired
  if method.isWrite then pure (uri, sender)
  else .error (.methodUnusable sender.type kind method)

/-- What is sent has a path, refers to its parent, and is sent with a verb that writes. -/
theorem of_submission {visit : Visit} {kind : WriteKind} {method : Method} {template uri : String}
    {sender : Entity} (ready : visit.submission kind method template = .ok (uri, sender)) :
    Template.resolve visit.lineage visit.desired template = .path uri ∧
      Run.linked visit.blueprint visit.lineage visit.desired = .ok sender ∧
      method.isWrite = true := by
  unfold submission destination at ready
  split at ready
  · rename_i path resolved
    cases links : Run.linked visit.blueprint visit.lineage visit.desired with
    | error failure =>
        rw [links] at ready
        nomatch ready
    | ok linked =>
        rw [links] at ready
        by_cases writes : method.isWrite = true
        · have same : Except.ok (path, linked) = Except.ok (ε := Failure) (uri, sender) := by
            simpa [writes, bind, Except.bind, pure, Except.pure] using ready
          cases same
          exact ⟨resolved, rfl, writes⟩
        · simp [writes, bind, Except.bind] at ready
  · nomatch ready
  · nomatch ready

/-! ## The order of requests -/

/-- The request creates the entity: it could not be looked up, or its lookup has found nothing. -/
def Creates (visit : Visit) (looks : List Call) (request : Request) : Prop :=
  ((looks = [] ∧ visit.Unaddressed) ∨ ∃ lookup response,
    looks = [⟨lookup, .answered response⟩] ∧ response.status = CallFailure.missingStatus) ∧
  ∃ uri sender, visit.submission .create visit.blueprint.createMethod visit.blueprint.createUri
      = .ok (uri, sender) ∧
    request = ⟨visit.blueprint.createMethod, uri, some sender.body⟩

/-- The request updates the entity, which was found and is to be updated. -/
def Updates (visit : Visit) (looks : List Call) (request : Request) : Prop :=
  visit.desired.updates = true ∧
  (∃ lookup response, looks = [⟨lookup, .answered response⟩] ∧
    response.status = Run.foundStatus) ∧
  ∃ known template uri sender, visit.blueprint.lookupUri? = some template ∧
    (visit.sending (visit.desired.laidOver known)).submission .update visit.blueprint.updateMethod
      template = .ok (uri, sender) ∧
    request = ⟨visit.blueprint.updateMethod, uri, some sender.body⟩

/-- The request looks the entity up that was sent by a create, which was rejected as invalid. -/
def Recovers (visit : Visit) (looks writes : List Call) (request : Request) : Prop :=
  ∃ create response sender path, visit.Creates looks create ∧
    writes = [⟨create, .answered response⟩] ∧
    response.status = CallFailure.validationStatus ∧
    Run.linked visit.blueprint visit.lineage visit.desired = .ok sender ∧
    Run.lookupAddress? visit.blueprint visit.lineage sender = some path ∧
    request = ⟨.get, path, none⟩

/-- At most one lookup, at most one write and at most one lookup after it, each where it is due. -/
structure Orderly (visit : Visit) (looks writes again : List Call) : Prop where
  oneLookup : looks.length ≤ 1
  lookup : ∀ call ∈ looks, ∃ path,
    Run.lookupAddress? visit.blueprint visit.lineage visit.desired = some path ∧
      call.request = ⟨.get, path, none⟩
  oneWrite : writes.length ≤ 1
  write : ∀ call ∈ writes, visit.Creates looks call.request ∨ visit.Updates looks call.request
  oneRecovery : again.length ≤ 1
  recovery : ∀ call ∈ again, visit.Recovers looks writes call.request

/-- What is asked for an entity itself, in this order. -/
def Asks (visit : Visit) (sent : List Call) : Prop :=
  ∃ looks writes again, sent = looks ++ (writes ++ again) ∧ visit.Orderly looks writes again

/-- Part of the way, the requests are in order too. -/
theorem Asks.of_append {visit : Visit} {sent more : List Call} (asks : visit.Asks (sent ++ more)) :
    visit.Asks sent := by
  obtain ⟨looks, writes, again, split, orderly⟩ := asks
  rcases List.append_eq_append_iff.mp split with ⟨unsent, rfl, _⟩ | ⟨rest, rfl, later⟩
  · have few : sent.length ≤ 1 := by
      have both := orderly.oneLookup
      rw [List.length_append] at both
      omega
    exact ⟨sent, [], [], by simp, few,
      fun call member => orderly.lookup call (List.mem_append_left _ member), Nat.zero_le _,
      List.forall_mem_nil _, Nat.zero_le _, List.forall_mem_nil _⟩
  · rcases List.append_eq_append_iff.mp later.symm with ⟨unsent, rfl, _⟩ | ⟨last, rfl, rfl⟩
    · have few : rest.length ≤ 1 := by
        have both := orderly.oneWrite
        rw [List.length_append] at both
        omega
      exact ⟨looks, rest, [], by simp, orderly.oneLookup, orderly.lookup, few,
        fun call member => orderly.write call (List.mem_append_left _ member), Nat.zero_le _,
        List.forall_mem_nil _⟩
    · have few : last.length ≤ 1 := by
        have both := orderly.oneRecovery
        rw [List.length_append] at both
        omega
      exact ⟨looks, writes, last, rfl, orderly.oneLookup, orderly.lookup, orderly.oneWrite,
        orderly.write, few,
        fun call member => orderly.recovery call (List.mem_append_left _ member)⟩

end Visit

namespace Run

/-! ## The protocol -/

/-- What becomes of a create that was rejected as invalid. The desired entity of the visit is the
one that was sent to the path. -/
inductive Recovery (run : Run) (visit : Visit) (uri : String) (rejection : CallFailure) :
    List Event → Outcome (Option Entity) → Prop
  /-- What the lookup holds is in place, or the entity that was sent if it holds no object. -/
  | found {path : String} {response : Response} {value : Json}
      (address : lookupAddress? visit.blueprint visit.lineage visit.desired = some path)
      (success : response.isSuccess = true) (spelled : response.json? = some value) :
      Recovery run visit uri rejection [.called ⟨⟨.get, path, none⟩, .answered response⟩]
        (.value (some (visit.desired.answeredWith value)))
  /-- The lookup fails in any way. -/
  | lost {path : String} {exchange : Exchange} {failure : CallFailure}
      (address : lookupAddress? visit.blueprint visit.lineage visit.desired = some path)
      (told : run.access.fetched path exchange = .error failure) :
      Recovery run visit uri rejection [.called ⟨⟨.get, path, none⟩, exchange⟩]
        (.failed (.conflictUnresolved visit.desired.type run.label uri rejection))
  /-- No lookup is possible, and nothing depends on the entity. -/
  | skipped (unable : visit.Unaddressed) (childless : visit.desired.hasChildren = false) :
      Recovery run visit uri rejection [] (.value none)
  /-- No lookup is possible, but children depend on the entity. -/
  | uncheckable (unable : visit.Unaddressed) (parent : visit.desired.hasChildren = true) :
      Recovery run visit uri rejection []
        (.failed (.conflictUncheckable visit.desired.type run.label rejection))
  | unfilled {template path : String} (given : visit.blueprint.lookupUri? = some template)
      (unfilled : Template.resolve visit.lineage visit.desired template = .unfilled path) :
      Recovery run visit uri rejection [] (.failed (.templateUnfilled template path))

/-- How the desired entity is created. -/
inductive Creation (run : Run) (visit : Visit) : List Event → Outcome (Option Entity) → Prop
  | unready {failure : Failure} (fails : visit.submission .create visit.blueprint.createMethod
        visit.blueprint.createUri = .error failure) :
      Creation run visit [] (.failed failure)
  | written {uri : String} {sender : Entity} {exchange : Exchange} {value : Json}
      (ready : visit.submission .create visit.blueprint.createMethod visit.blueprint.createUri
        = .ok (uri, sender))
      (told : run.access.written visit.blueprint.createMethod uri sender.body exchange
        = .ok value) :
      Creation run visit
        [.called ⟨⟨visit.blueprint.createMethod, uri, some sender.body⟩, exchange⟩]
        (.value (some (sender.answeredWith value)))
  /-- The create has failed otherwise than with the status for invalid writes. -/
  | refused {uri : String} {sender : Entity} {exchange : Exchange} {failure : CallFailure}
      (ready : visit.submission .create visit.blueprint.createMethod visit.blueprint.createUri
        = .ok (uri, sender))
      (told : run.access.written visit.blueprint.createMethod uri sender.body exchange
        = .error failure)
      (otherwise : ∀ response, exchange = .answered response →
        response.status ≠ CallFailure.validationStatus) :
      Creation run visit
        [.called ⟨⟨visit.blueprint.createMethod, uri, some sender.body⟩, exchange⟩]
        (.failed (run.callFailure sender.type uri failure))
  | rejected {uri : String} {sender : Entity} {response : Response} {events : List Event}
      {outcome : Outcome (Option Entity)}
      (ready : visit.submission .create visit.blueprint.createMethod visit.blueprint.createUri
        = .ok (uri, sender))
      (status : response.status = CallFailure.validationStatus)
      (recovery : Recovery run (visit.sending sender) uri
        (.http visit.blueprint.createMethod (run.access.address uri) response) events outcome) :
      Creation run visit
        (.called ⟨⟨visit.blueprint.createMethod, uri, some sender.body⟩, .answered response⟩
          :: events) outcome

/-- How an entity that exists is updated. The desired entity of the visit is laid over what is
known of it. -/
inductive Renewal (run : Run) (visit : Visit) (template : String) :
    List Event → Outcome (Option Entity) → Prop
  | unready {failure : Failure} (fails : visit.submission .update visit.blueprint.updateMethod
        template = .error failure) :
      Renewal run visit template [] (.failed failure)
  | written {uri : String} {sender : Entity} {exchange : Exchange} {value : Json}
      (ready : visit.submission .update visit.blueprint.updateMethod template
        = .ok (uri, sender))
      (told : run.access.written visit.blueprint.updateMethod uri sender.body exchange
        = .ok value) :
      Renewal run visit template
        [.called ⟨⟨visit.blueprint.updateMethod, uri, some sender.body⟩, exchange⟩]
        (.value (some (sender.answeredWith value)))
  | refused {uri : String} {sender : Entity} {exchange : Exchange} {failure : CallFailure}
      (ready : visit.submission .update visit.blueprint.updateMethod template
        = .ok (uri, sender))
      (told : run.access.written visit.blueprint.updateMethod uri sender.body exchange
        = .error failure) :
      Renewal run visit template
        [.called ⟨⟨visit.blueprint.updateMethod, uri, some sender.body⟩, exchange⟩]
        (.failed (run.callFailure sender.type uri failure))

/-- All that is done for an entity itself until it is in place, or until it is given up. -/
inductive Protocol (run : Run) (visit : Visit) : List Event → Outcome (Option Entity) → Prop
  | unfilled {template path : String} (given : visit.blueprint.lookupUri? = some template)
      (unfilled : Template.resolve visit.lineage visit.desired template = .unfilled path) :
      Protocol run visit [] (.failed (.templateUnfilled template path))
  | unasked {events : List Event} {outcome : Outcome (Option Entity)} (unable : visit.Unaddressed)
      (creation : Creation run visit events outcome) : Protocol run visit events outcome
  | lost {path : String} {exchange : Exchange} {failure : CallFailure}
      (address : lookupAddress? visit.blueprint visit.lineage visit.desired = some path)
      (told : run.access.received ⟨.get, path, none⟩ exchange = .error failure) :
      Protocol run visit [.called ⟨⟨.get, path, none⟩, exchange⟩]
        (.failed (run.callFailure visit.desired.type path failure))
  | unexpected {path : String} {response : Response}
      (address : lookupAddress? visit.blueprint visit.lineage visit.desired = some path)
      (notFound : response.status ≠ foundStatus)
      (notMissing : response.status ≠ CallFailure.missingStatus) :
      Protocol run visit [.called ⟨⟨.get, path, none⟩, .answered response⟩]
        (.failed (.statusUnexpected visit.desired.type run.label path response.status))
  | undecodable {path : String} {response : Response}
      (address : lookupAddress? visit.blueprint visit.lineage visit.desired = some path)
      (status : response.status = foundStatus) (garbled : response.json? = none) :
      Protocol run visit [.called ⟨⟨.get, path, none⟩, .answered response⟩]
        (.failed (.undecodable (visit.desired.type ++ " at " ++ path) unreadableJson))
  | missing {path : String} {response : Response} {events : List Event}
      {outcome : Outcome (Option Entity)}
      (address : lookupAddress? visit.blueprint visit.lineage visit.desired = some path)
      (status : response.status = CallFailure.missingStatus)
      (creation : Creation run visit events outcome) :
      Protocol run visit (.called ⟨⟨.get, path, none⟩, .answered response⟩ :: events) outcome
  | kept {path : String} {response : Response} {value : Json}
      (address : lookupAddress? visit.blueprint visit.lineage visit.desired = some path)
      (status : response.status = foundStatus) (spelled : response.json? = some value)
      (fixed : visit.desired.updates = false) :
      Protocol run visit [.called ⟨⟨.get, path, none⟩, .answered response⟩]
        (.value (some (.ofRemote value visit.desired.className)))
  | updated {path template : String} {response : Response} {value : Json} {known : Entity}
      {events : List Event} {outcome : Outcome (Option Entity)}
      (address : lookupAddress? visit.blueprint visit.lineage visit.desired = some path)
      (status : response.status = foundStatus) (spelled : response.json? = some value)
      (updates : visit.desired.updates = true)
      (given : visit.blueprint.lookupUri? = some template)
      (renewal : Renewal run (visit.sending (visit.desired.laidOver known)) template events
        outcome) :
      Protocol run visit (.called ⟨⟨.get, path, none⟩, .answered response⟩
        :: .recalled run.session (.ofRemote value visit.desired.className) known :: events) outcome

variable {run : Run} {visit : Visit} {events : List Event}

section

variable {outcome : Outcome (Option Entity)} {looks : List Call}

/-- After a create that was rejected, the entity that was sent is looked up at most. -/
theorem Recovery.asks {uri : String} {rejection : CallFailure} {sender : Entity}
    {writes : List Call}
    (recovery : Recovery run (visit.sending sender) uri rejection events outcome)
    (due : ∀ path, lookupAddress? visit.blueprint visit.lineage sender = some path →
      visit.Recovers looks writes ⟨.get, path, none⟩) :
    (calls events).length ≤ 1 ∧
      ∀ call ∈ calls events, visit.Recovers looks writes call.request := by
  cases recovery with
  | found address _ _ => exact ⟨Nat.le_refl _, List.forall_mem_singleton.mpr (due _ address)⟩
  | lost address _ => exact ⟨Nat.le_refl _, List.forall_mem_singleton.mpr (due _ address)⟩
  | skipped _ _ => exact ⟨Nat.zero_le _, List.forall_mem_nil _⟩
  | uncheckable _ _ => exact ⟨Nat.zero_le _, List.forall_mem_nil _⟩
  | unfilled _ _ => exact ⟨Nat.zero_le _, List.forall_mem_nil _⟩

/-- After lookups, a create is due only where they have found nothing. -/
theorem Creation.asks (creation : Creation run visit events outcome)
    (oneLookup : looks.length ≤ 1)
    (lookup : ∀ call ∈ looks, ∃ path,
      lookupAddress? visit.blueprint visit.lineage visit.desired = some path ∧
        call.request = ⟨.get, path, none⟩)
    (absent : (looks = [] ∧ visit.Unaddressed) ∨ ∃ lookup response,
      looks = [⟨lookup, .answered response⟩] ∧ response.status = CallFailure.missingStatus) :
    visit.Asks (looks ++ calls events) := by
  have creates : ∀ {uri : String} {sender : Entity},
      visit.submission .create visit.blueprint.createMethod visit.blueprint.createUri
        = .ok (uri, sender) →
      visit.Creates looks ⟨visit.blueprint.createMethod, uri, some sender.body⟩ :=
    fun ready => ⟨absent, _, _, ready, rfl⟩
  cases creation with
  | unready _ =>
      exact ⟨looks, [], [], rfl, oneLookup, lookup, Nat.zero_le _, List.forall_mem_nil _,
        Nat.zero_le _, List.forall_mem_nil _⟩
  | written ready _ =>
      exact ⟨looks, [_], [], rfl, oneLookup, lookup, Nat.le_refl _,
        List.forall_mem_singleton.mpr (.inl (creates ready)), Nat.zero_le _,
        List.forall_mem_nil _⟩
  | refused ready _ _ =>
      exact ⟨looks, [_], [], rfl, oneLookup, lookup, Nat.le_refl _,
        List.forall_mem_singleton.mpr (.inl (creates ready)), Nat.zero_le _,
        List.forall_mem_nil _⟩
  | @rejected uri sender response events _ ready status recovery =>
      obtain ⟨_, links, _⟩ := Visit.of_submission ready
      obtain ⟨oneRecovery, recovers⟩ := recovery.asks fun path address =>
        ⟨_, response, sender, path, creates ready, rfl, status, links, address, rfl⟩
      exact ⟨looks, [_], calls events, rfl, oneLookup, lookup, Nat.le_refl _,
        List.forall_mem_singleton.mpr (.inl (creates ready)), oneRecovery, recovers⟩

/-- **What the protocol asks for is in order.** -/
theorem Protocol.asks (protocol : Protocol run visit events outcome) :
    visit.Asks (calls events) := by
  have lookup : ∀ {path : String} {exchange : Exchange},
      lookupAddress? visit.blueprint visit.lineage visit.desired = some path →
      ∀ call ∈ [(⟨⟨.get, path, none⟩, exchange⟩ : Call)], ∃ path,
        lookupAddress? visit.blueprint visit.lineage visit.desired = some path ∧
          call.request = ⟨.get, path, none⟩ :=
    fun address => List.forall_mem_singleton.mpr ⟨_, address, rfl⟩
  have only : ∀ {path : String} {exchange : Exchange},
      lookupAddress? visit.blueprint visit.lineage visit.desired = some path →
      visit.Asks [⟨⟨.get, path, none⟩, exchange⟩] := fun address =>
    ⟨[_], [], [], rfl, Nat.le_refl _, lookup address, Nat.zero_le _, List.forall_mem_nil _,
      Nat.zero_le _, List.forall_mem_nil _⟩
  cases protocol with
  | unfilled _ _ =>
      exact ⟨[], [], [], rfl, Nat.zero_le _, List.forall_mem_nil _, Nat.zero_le _,
        List.forall_mem_nil _, Nat.zero_le _, List.forall_mem_nil _⟩
  | unasked unable creation =>
      exact creation.asks (Nat.zero_le _) (List.forall_mem_nil _) (.inl ⟨rfl, unable⟩)
  | lost address _ => exact only address
  | unexpected address _ _ => exact only address
  | undecodable address _ _ => exact only address
  | missing address status creation =>
      exact creation.asks (Nat.le_refl _) (lookup address) (.inr ⟨_, _, rfl, status⟩)
  | kept address _ _ _ => exact only address
  | @updated path template response value known events outcome address status _ updates given
      renewal =>
      have found : ∃ lookup answer, [(⟨⟨.get, path, none⟩, .answered response⟩ : Call)]
          = [⟨lookup, .answered answer⟩] ∧ answer.status = foundStatus :=
        ⟨_, response, rfl, status⟩
      have updated : ∀ {uri : String} {sender : Entity},
          (visit.sending (visit.desired.laidOver known)).submission .update
            visit.blueprint.updateMethod template = .ok (uri, sender) →
          visit.Updates [⟨⟨.get, path, none⟩, .answered response⟩]
            ⟨visit.blueprint.updateMethod, uri, some sender.body⟩ :=
        fun ready => ⟨updates, found, known, template, _, _, given, ready, rfl⟩
      cases renewal with
      | unready _ => exact only address
      | written ready _ =>
          exact ⟨[_], [_], [], rfl, Nat.le_refl _, lookup address, Nat.le_refl _,
            List.forall_mem_singleton.mpr (.inr (updated ready)), Nat.zero_le _,
            List.forall_mem_nil _⟩
      | refused ready _ =>
          exact ⟨[_], [_], [], rfl, Nat.le_refl _, lookup address, Nat.le_refl _,
            List.forall_mem_singleton.mpr (.inr (updated ready)), Nat.zero_le _,
            List.forall_mem_nil _⟩

end

/-- Where nothing is in place in the end, nothing but calls was done. -/
theorem Protocol.only_calls (protocol : Protocol run visit events (.value none)) :
    ∀ event ∈ events, ∃ call, event = .called call := by
  have creates : ∀ {events : List Event}, Creation run visit events (.value none) →
      ∀ event ∈ events, ∃ call, event = .called call := by
    intro events creation
    cases creation with
    | rejected _ _ recovery =>
        cases recovery with
        | skipped _ _ => exact List.forall_mem_singleton.mpr ⟨_, rfl⟩
  cases protocol with
  | unasked _ creation => exact creates creation
  | missing _ _ creation => exact List.forall_mem_cons.mpr ⟨⟨_, rfl⟩, creates creation⟩
  | updated _ _ _ _ _ renewal => cases renewal

/-- Nothing breaks off where there is no observer. -/
theorem Protocol.not_broken {cause : String} : ¬ Protocol run visit events (.broken cause) := by
  have creates : ∀ {events : List Event}, ¬ Creation run visit events (.broken cause) := by
    intro events creation
    cases creation with
    | rejected _ _ recovery => cases recovery
  intro protocol
  cases protocol with
  | unasked _ creation => exact creates creation
  | missing _ _ creation => exact creates creation
  | updated _ _ _ _ _ renewal => cases renewal

/-! ## What the plans yield -/

section

variable {β : Type} {outcome : Outcome β}

/-- A template is filled, or nothing is done for want of a path. -/
theorem yields_required_bind {template : String} {continuation : String → Plan β}
    (yields : (do
      let uri ← required template (← resolve visit.lineage visit.desired template)
      continuation uri).Yields events outcome) :
    (∃ failure, visit.destination template = .error failure ∧ events = [] ∧
      outcome = .failed failure) ∨
    ∃ uri, visit.destination template = .ok uri ∧ (continuation uri).Yields events outcome := by
  unfold resolve at yields
  unfold Visit.destination
  cases resolved : Template.resolve visit.lineage visit.desired template with
  | path uri =>
      rw [resolved] at yields
      exact .inr ⟨uri, rfl, yields⟩
  | unidentified uri =>
      rw [resolved] at yields
      have logged : (Plan.log (.uuidUnknown uri) >>= fun _ =>
          (Plan.fail (.templateUnfilled template template) : Plan β)).Yields events outcome :=
        yields
      obtain ⟨rfl, rfl⟩ := Plan.yields_log_bind.mp logged
      exact .inl ⟨_, rfl, rfl, rfl⟩
  | unfilled uri =>
      rw [resolved] at yields
      obtain ⟨rfl, rfl⟩ := yields
      exact .inl ⟨_, rfl, rfl, rfl⟩

/-- The field is set that refers to the parent, or nothing is done for want of a parent. -/
theorem yields_linkParent_bind {continuation : Entity → Plan β}
    (yields : (linkParent visit.blueprint visit.lineage visit.desired >>= continuation).Yields
      events outcome) :
    (∃ failure, linked visit.blueprint visit.lineage visit.desired = .error failure ∧ events = [] ∧
      outcome = .failed failure) ∨
    ∃ sender, linked visit.blueprint visit.lineage visit.desired = .ok sender ∧
      (continuation sender).Yields events outcome := by
  unfold linkParent at yields
  unfold linked
  split at yields
  · rename_i unlinked
    rw [unlinked]
    exact .inr ⟨_, rfl, yields⟩
  · rename_i link linking
    obtain ⟨name, reference⟩ := link
    rw [linking]
    cases name with
    | none =>
        have logged : (Plan.log (.parentFieldUnnamed visit.desired.type) >>= fun _ =>
            continuation visit.desired).Yields events outcome := yields
        exact .inr ⟨_, rfl, Plan.yields_log_bind.mp logged⟩
    | some field =>
        simp only [bind_assoc] at yields
        cases found : ParentLink.value ⟨some field, reference⟩ field visit.lineage
            visit.desired with
        | error failure =>
            rw [found] at yields
            obtain ⟨rfl, rfl⟩ := yields
            exact .inl ⟨failure, by simp only [found]; rfl, rfl, rfl⟩
        | ok value =>
            rw [found] at yields
            exact .inr ⟨_, by simp only [found]; rfl, yields⟩

/-- Without an observer, what is prepared is linked to its parent and nothing else. -/
theorem prepare_unobserved (unobserved : run.observer = none) (entity : Entity) :
    run.prepare visit.blueprint visit.lineage entity
      = linkParent visit.blueprint visit.lineage entity := by
  simp only [prepare, substitute_unobserved unobserved, bind_pure]

/-- **A write is prepared**, or nothing is done since it cannot be. -/
theorem yields_submission (unobserved : run.observer = none) {kind : WriteKind} {method : Method}
    {template : String} {moment : Entity → Moment} {continuation : String → Entity → Plan β}
    (yields : (do
      let uri ← required template (← resolve visit.lineage visit.desired template)
      let entity ← run.prepare visit.blueprint visit.lineage visit.desired
      run.observe (moment entity)
      if method.isWrite then continuation uri entity
      else Plan.fail (.methodUnusable entity.type kind method)).Yields events outcome) :
    (∃ failure, visit.submission kind method template = .error failure ∧ events = [] ∧
      outcome = .failed failure) ∨
    ∃ uri sender, visit.submission kind method template = .ok (uri, sender) ∧
      (continuation uri sender).Yields events outcome := by
  simp only [prepare_unobserved unobserved, observe_unobserved unobserved] at yields
  unfold Visit.submission
  rcases yields_required_bind yields with ⟨failure, none, rfl, rfl⟩ | ⟨uri, some, prepares⟩
  · rw [none]
    exact .inl ⟨failure, rfl, rfl, rfl⟩
  · rw [some]
    rcases yields_linkParent_bind prepares with ⟨failure, none, rfl, rfl⟩ | ⟨sender, links, goesOn⟩
    · rw [none]
      exact .inl ⟨failure, rfl, rfl, rfl⟩
    · rw [links]
      have goesOn : (if method.isWrite then continuation uri sender
          else Plan.fail (.methodUnusable sender.type kind method)).Yields events outcome := goesOn
      by_cases writes : method.isWrite = true
      · rw [if_pos writes] at goesOn
        exact .inr ⟨uri, sender, by simp [bind, Except.bind, writes, pure, Except.pure], goesOn⟩
      · rw [if_neg writes] at goesOn
        obtain ⟨rfl, rfl⟩ := goesOn
        exact .inl ⟨_, by simp [bind, Except.bind, writes], rfl, rfl⟩

end

variable {outcome : Outcome (Option Entity)}

/-- Where a visit is looked up, or why it is not. -/
theorem yields_lookupPath_bind {continuation : Option String → Plan (Option Entity)}
    (yields : (lookupPath visit.blueprint visit.lineage visit.desired >>= continuation).Yields
      events outcome) :
    (∃ path, lookupAddress? visit.blueprint visit.lineage visit.desired = some path ∧
      (continuation (some path)).Yields events outcome) ∨
    (visit.Unaddressed ∧ (continuation none).Yields events outcome) ∨
    ∃ template path, visit.blueprint.lookupUri? = some template ∧
      Template.resolve visit.lineage visit.desired template = .unfilled path ∧ events = [] ∧
      outcome = .failed (.templateUnfilled template path) := by
  unfold lookupPath at yields
  unfold lookupAddress?
  cases given : visit.blueprint.lookupUri? with
  | none =>
      rw [given] at yields
      refine .inr (.inl ⟨?_, yields⟩)
      intro template also
      cases given.symm.trans also
  | some template =>
      rw [given] at yields
      simp only [resolve] at yields
      cases resolved : Template.resolve visit.lineage visit.desired template with
      | path uri =>
          rw [resolved] at yields
          exact .inl ⟨uri, by simp [resolved, Template.Resolution.path?], yields⟩
      | unidentified uri =>
          rw [resolved] at yields
          have logged : (Plan.log (.uuidUnknown uri) >>= fun _ => continuation none).Yields events
              outcome := yields
          refine .inr (.inl ⟨?_, Plan.yields_log_bind.mp logged⟩)
          intro other also
          obtain rfl := Option.some.inj (given.symm.trans also)
          exact ⟨uri, resolved⟩
      | unfilled uri =>
          rw [resolved] at yields
          obtain ⟨rfl, rfl⟩ := yields
          exact .inr (.inr ⟨template, uri, rfl, resolved, rfl, rfl⟩)

theorem recovery_of_recover {uri : String} {rejection : CallFailure}
    (yields : (run.recover visit.blueprint visit.lineage visit.desired uri rejection).Yields events
      outcome) : Recovery run visit uri rejection events outcome := by
  rcases yields_lookupPath_bind yields with ⟨path, address, asks⟩ | ⟨unable, goesOn⟩ |
    ⟨template, path, given, unfilled, rfl, rfl⟩
  · obtain ⟨exchange, rest, rfl, told⟩ := Access.yields_fetch_bind.mp asks
    cases fetched : run.access.fetched path exchange with
    | ok value =>
        rw [fetched] at told
        obtain ⟨rfl, rfl⟩ := Plan.yields_log_bind.mp told
        obtain ⟨response, rfl, success, spelled⟩ := Access.of_decoded fetched
        exact .found address success spelled
    | error failure =>
        rw [fetched] at told
        obtain ⟨rfl, rfl⟩ := Plan.yields_log_bind.mp told
        exact .lost address fetched
  · simp only at goesOn
    split at goesOn
    · rename_i parent
      obtain ⟨rfl, rfl⟩ := goesOn
      exact .uncheckable unable parent
    · rename_i childless
      obtain ⟨rfl, rfl⟩ := Plan.yields_log_bind.mp goesOn
      exact .skipped unable (by simpa using childless)
  · exact .unfilled given unfilled

/-- A create is answered with an entity, refused, or rejected as invalid. -/
theorem creation_of_create (wet : run.dry = false) (unobserved : run.observer = none)
    (yields : (run.create visit.blueprint visit.lineage visit.desired).Yields events outcome) :
    Creation run visit events outcome := by
  -- without an observer nothing is done with what a recovery has found
  have afterwards : ∀ (plan : Plan (Option Entity)) (goesOn : Option Entity → Plan (Option Entity)),
      (∀ found, goesOn found = pure found) → plan >>= goesOn = plan :=
    fun plan goesOn same => (bind_congr same).trans (bind_pure plan)
  simp only [create, wet, Bool.false_eq_true, if_false] at yields
  rcases yields_submission unobserved yields with ⟨failure, fails, rfl, rfl⟩ |
    ⟨uri, sender, ready, submits⟩
  · exact .unready fails
  · obtain ⟨_, _, writes⟩ := Visit.of_submission ready
    obtain ⟨exchange, rest, rfl, told⟩ :=
      (Access.yields_write_bind writes).mp (Plan.yields_log_bind.mp submits)
    cases answered : run.access.written visit.blueprint.createMethod uri sender.body exchange with
    | ok value =>
        rw [answered] at told
        simp only [observe_unobserved unobserved] at told
        obtain ⟨rfl, rfl⟩ := told
        exact .written ready answered
    | error failure =>
        rw [answered] at told
        simp only [observe_unobserved unobserved] at told
        by_cases invalid : failure.isValidation = true
        · rw [if_pos invalid] at told
          obtain ⟨response, rfl, status⟩ := Access.answered_of_isValidation answered invalid
          rw [Access.written_of_invalid status] at answered
          obtain rfl := Except.error.inj answered
          have recovers : (run.recover (visit.sending sender).blueprint
              (visit.sending sender).lineage (visit.sending sender).desired uri
              (.http visit.blueprint.createMethod (run.access.address uri) response)).Yields rest
              outcome := by
            rw [afterwards] at told
            · exact told
            · intro found
              cases found <;> rfl
          exact .rejected ready status (recovery_of_recover recovers)
        · rw [if_neg invalid] at told
          obtain ⟨rfl, rfl⟩ := told
          refine .refused ready answered ?_
          rintro response rfl status
          rw [Access.written_of_invalid status] at answered
          obtain rfl := Except.error.inj answered
          exact invalid (by simp [CallFailure.isValidation, CallFailure.status?,
            CallFailure.response?, status])

/-- The template at which entities are looked up is the one at which they are updated. -/
theorem updateUri_of_lookupUri {blueprint : Blueprint} {template : String}
    (given : blueprint.lookupUri? = some template) : blueprint.updateUri = some template :=
  (Option.filter_eq_some_iff.mp given).1

/-- An update is answered with an entity, or refused. -/
theorem renewal_of_update (wet : run.dry = false) (unobserved : run.observer = none)
    {template : String} (given : visit.blueprint.lookupUri? = some template)
    (yields : (some <$> run.update visit.blueprint visit.lineage visit.desired).Yields events
      outcome) : Renewal run visit template events outcome := by
  have nothing : ∀ failure : Failure,
      some <$> (Plan.fail failure : Plan Entity) = (Plan.fail failure : Plan (Option Entity)) :=
    fun _ => rfl
  simp only [update, wet, Bool.false_eq_true, if_false, lookupPath, given,
    updateUri_of_lookupUri given, Option.getD_some, map_bind,
    apply_ite (fun plan : Plan Entity => some <$> plan), nothing] at yields
  rcases yields_submission unobserved yields with ⟨failure, fails, rfl, rfl⟩ |
    ⟨uri, sender, ready, submits⟩
  · exact .unready fails
  · obtain ⟨_, _, writes⟩ := Visit.of_submission ready
    simp only [submitUpdate, map_bind] at submits
    obtain ⟨exchange, rest, rfl, told⟩ :=
      (Access.yields_write_bind writes).mp (Plan.yields_log_bind.mp submits)
    cases answered : run.access.written visit.blueprint.updateMethod uri sender.body exchange with
    | ok value =>
        rw [answered] at told
        simp only [observe_unobserved unobserved] at told
        obtain ⟨rfl, rfl⟩ := told
        exact .written ready answered
    | error failure =>
        rw [answered] at told
        obtain ⟨rfl, rfl⟩ := told
        exact .refused ready answered

/-- What is looked up is kept or updated if it exists, and created if it is missing. -/
theorem protocol_of_settleAnswered (wet : run.dry = false) (unobserved : run.observer = none)
    {path : String} {response : Response}
    (address : lookupAddress? visit.blueprint visit.lineage visit.desired = some path)
    (yields : (run.settleAnswered visit.blueprint visit.lineage visit.desired path response).Yields
      events outcome) :
    Protocol run visit (.called ⟨⟨.get, path, none⟩, .answered response⟩ :: events) outcome := by
  unfold settleAnswered at yields
  split at yields
  · rename_i found
    split at yields
    · rename_i garbled
      obtain ⟨rfl, rfl⟩ := yields
      exact .undecodable address found garbled
    · rename_i value spelled
      simp only [settleExisting, wet, Bool.false_eq_true, if_false] at yields
      by_cases updates : visit.desired.updates = true
      · obtain ⟨template, given, _⟩ := Option.bind_eq_some_iff.mp address
        rw [if_pos updates, map_bind] at yields
        obtain ⟨known, rest, rfl, renews⟩ := Plan.yields_recall_bind.mp yields
        rw [map_bind] at renews
        have renewal := @renewal_of_update run (visit.sending (visit.desired.laidOver known)) _ _
          wet unobserved template given (Plan.yields_log_bind.mp renews)
        exact .updated address found spelled updates given renewal
      · rw [if_neg updates, map_bind] at yields
        obtain ⟨rfl, rfl⟩ := Plan.yields_log_bind.mp yields
        exact .kept address found spelled (by simpa using updates)
  · rename_i notFound
    split at yields
    · rename_i missing
      rw [wet] at yields
      exact .missing address missing (creation_of_create wet unobserved yields)
    · rename_i notMissing
      obtain ⟨rfl, rfl⟩ := yields
      exact .unexpected address notFound notMissing

/-- **What is done for an entity itself follows the protocol.** -/
theorem protocol_of_settle (wet : run.dry = false) (unobserved : run.observer = none)
    (yields : (visit.settle run).Yields events outcome) : Protocol run visit events outcome := by
  rcases yields_lookupPath_bind yields with ⟨path, address, looks⟩ | ⟨unable, goesOn⟩ |
    ⟨template, path, given, unfilled, rfl, rfl⟩
  · simp only [lookup, observe_unobserved unobserved] at looks
    obtain ⟨exchange, rest, rfl, told⟩ := Access.yields_get_bind.mp looks
    cases exchange with
    | lost cause =>
        obtain ⟨rfl, rfl⟩ := told
        exact .lost address rfl
    | answered response => exact protocol_of_settleAnswered wet unobserved address told
  · rw [wet] at goesOn
    exact .unasked unable (creation_of_create wet unobserved goesOn)
  · exact .unfilled given unfilled

/-! ## The handling of one entity -/

/-- How far the handling of an entity has got that has begun: what its task has done itself, what
has come after that, and how it has ended, if it has. -/
inductive Progress (run : Run) (visit : Visit) :
    List Event → List Event → Option (Outcome (Option Entity)) → Prop
  | underWay {own more : List Event} {outcome : Outcome (Option Entity)}
      (protocol : Protocol run visit (own ++ more) outcome) : Progress run visit own [] none
  | failed {own : List Event} {failure : Failure}
      (protocol : Protocol run visit own (.failed failure)) :
      Progress run visit own [] (some (.failed failure))
  /-- Nothing is in place, and nothing is remembered. -/
  | skipped {own : List Event} (protocol : Protocol run visit own (.value none))
      (silent : ∀ event ∈ own, ∃ call, event = .called call) :
      Progress run visit own [] (some (.value none))
  /-- An entity is in place and remembered. What has come after that is of its children. -/
  | settled {own later : List Event} {settled : Entity} {ended : Option (Outcome (Option Entity))}
      (protocol : Protocol run visit own (.value (some settled)))
      (children : later = [] ∨ ∃ fate, Continues run (Task.broods visit settled) later fate)
      (result : ∀ value, ended = some (.value value) → value = some (visit.placed settled)) :
      Progress run visit own (.remembered run.session settled :: later) ended

/-- Whatever comes after an entity has been put in place, the result is the entity in place. -/
theorem result_of_settled {settled : Entity} {course : Course}
    {ended : Option (Outcome (Option Entity))}
    (takes : Plan.Takes run (do
      if (visit.placed settled).hasChildren then
        run.descend visit.blueprint (visit.placed settled) (visit.below settled)
      pure (some (visit.placed settled))) course ended) :
    ∀ value, ended = some (.value value) → value = some (visit.placed settled) := by
  rintro value rfl
  split at takes
  · obtain ⟨_, _, _, rfl, _, after⟩ := takes.of_bind
    obtain ⟨_, _, nothing | same⟩ := after.of_pure
    · nomatch nothing
    · cases same
      rfl
  · obtain ⟨_, _, nothing | same⟩ := takes.of_pure
    · nomatch nothing
    · cases same
      rfl

/-- **The handling of an entity follows the protocol.** In a run that is not dry and has no
observer, whatever is answered and wherever the handling stops, what the task does itself is what
the protocol says, and what it asks for is in order: at most one lookup, then at most one write, and
after a create that was rejected as invalid at most one lookup more. If the protocol ends with a
failure, or with nothing in place, so does the handling, and nothing comes after; otherwise the
entity in place is remembered, only its children come after, and it is the result if they do not
fail. -/
theorem follows_protocol (wet : run.dry = false) (unobserved : run.observer = none)
    {stage : Stage ChildTask (Option Entity)}
    (steps : Stage.Steps run
      (.active (run.reconcile visit.blueprint visit.lineage visit.desired)) events stage) :
    (events = [] ∧ stage.outcome? = none) ∨
    ∃ own below, events = .told (.begun visit) :: (own ++ below) ∧ visit.Asks (calls own) ∧
      Progress run visit own below stage.outcome? := by
  obtain ⟨course, takes, orders⟩ := steps.takes
  rcases takes.split_note with ⟨rfl, none⟩ | ⟨rest, rfl, later⟩
  · exact .inl ⟨orders, none⟩
  · obtain ⟨others, rfl, behind⟩ := orders
    refine .inr ?_
    have handled : ((visit.settle run).bind _).Takes run rest stage.outcome? := later
    generalize stage.outcome? = ended at handled ⊢
    cases handled.split_solitary (solitary_settle visit.desired) with
    | @underWay own more _ yields =>
        obtain ⟨following, rfl, nothing⟩ := Course.orders_ofEvents behind
        have protocol := protocol_of_settle wet unobserved yields
        have asks := protocol.asks
        rw [calls_append] at asks
        exact ⟨own, [], by rw [show following = [] from nothing], asks.of_append,
          .underWay protocol⟩
    | @failed own _ yields =>
        obtain ⟨following, rfl, nothing⟩ := Course.orders_ofEvents behind
        have protocol := protocol_of_settle wet unobserved yields
        exact ⟨own, [], by rw [show following = [] from nothing], protocol.asks,
          .failed protocol⟩
    | broken yields => exact absurd (protocol_of_settle wet unobserved yields) Protocol.not_broken
    | @through own settled rest _ yields after =>
        obtain ⟨following, rfl, further⟩ := Course.orders_ofEvents behind
        have protocol := protocol_of_settle wet unobserved yields
        have asks := protocol.asks
        cases settled with
        | none =>
            obtain ⟨rfl, _, rfl | rfl⟩ := after.of_pure
            · rw [← List.append_nil own] at protocol
              exact ⟨own, [], by rw [show following = [] from further], asks,
                .underWay protocol⟩
            · exact ⟨own, [], by rw [show following = [] from further], asks,
                .skipped protocol protocol.only_calls⟩
        | some settled =>
            cases after with
            | pause =>
                rw [← List.append_nil own] at protocol
                exact ⟨own, [], by rw [show following = [] from further], asks,
                  .underWay protocol⟩
            | @remember _ _ _ _ course _ goesOn =>
                obtain ⟨following, rfl, last⟩ := further
                refine ⟨own, _, rfl, asks, .settled protocol ?_
                  (result_of_settled goesOn)⟩
                rcases continues_of_settled (accountable _) goesOn last (Nat.lt_succ_self _) with
                  ⟨_, none, _⟩ | ⟨_, continues⟩
                · exact .inl none
                · exact .inr ⟨_, continues⟩

end Run

/-! ## A thing that another writer has created -/

namespace Sample

/-- A thing to be put in place by its name. -/
def contested : Visit where
  blueprint := { Blueprint.blank with
    name := "Thing"
    createUri := "/things/\x7bname\x7d"
    updateUri := some "/things/\x7bname\x7d" }
  lineage := .empty
  desired := ⟨"Thing", .ofList [("name", .string "a")], .empty, false, false⟩

/-- At first there is nothing at the path, but creates are rejected, and then there is a thing. -/
def overtaking (request : Request) (served : Nat) : Exchange × Nat :=
  match request.method, served with
  | .get, 0 => (.answered ⟨404, none, none⟩, 1)
  | .get, _ =>
      (.answered ⟨200, some "\x7b\"name\":\"a\",\"kind\":\"theirs\"\x7d", none⟩, served + 1)
  | _, _ => (.answered ⟨422, none, none⟩, served + 1)

/-- The handling of the contested thing. -/
def overtaken : RunResult ((String → Nat) × List Call) (Option Entity) :=
  (Engine.create ⟨"/blueprints", 2, 1000, "sample"⟩ none false).execute
    ⟨⟨0⟩, .direct, .recorded overtaking⟩ 20
    (·.reconcile contested.blueprint contested.lineage contested.desired) (fun _ => 0, [])

/-- What a run has put in place. -/
def inPlace? {σ : Type} (result : RunResult σ (Option Entity)) : Option Entity :=
  match result.outcome with
  | some (.value placed) => placed
  | _ => none

/-- What is in place was the result. -/
theorem outcome_of_inPlace {σ : Type} {result : RunResult σ (Option Entity)} {placed : Entity}
    (there : inPlace? result = some placed) : result.outcome = some (.value (some placed)) := by
  unfold inPlace? at there
  split at there
  · rename_i value ended
    rw [ended, there]
  · nomatch there

/-- The thing is looked up, created in vain, and looked up again. -/
theorem overtaken_stands :
    ((inPlace? overtaken).bind (·.field? "kind")).bind Json.text? = some "theirs" ∧
    overtaken.server.2.reverse.map (·.request.method) = [.get, .put, .get] := by decide +kernel

/-- The handling of the contested thing has followed the protocol to the second lookup. -/
theorem contested_follows_protocol : ∃ events placed,
    Stage.Steps (trial false) (.active ((trial false).reconcile contested.blueprint
      contested.lineage contested.desired)) events (.finished (.value (some placed))) ∧
    (calls events).map (·.request.method) = [.get, .put, .get] ∧
    (placed.field? "kind").bind Json.text? = some "theirs" ∧
    ∃ own below, events = .told (.begun contested) :: (own ++ below) ∧
      contested.Asks (calls own) ∧
      Run.Progress (trial false) contested own below (some (.value (some placed))) := by
  obtain ⟨theirs, methods⟩ := overtaken_stands
  obtain ⟨kind, found, text⟩ := Option.bind_eq_some_iff.mp theirs
  obtain ⟨placed, there, kinds⟩ := Option.bind_eq_some_iff.mp found
  have unobserved : (trial false).observer = none := rfl
  obtain ⟨events, steps, _, called, _⟩ := Engine.execute_recorded _ _ _ _ _ _ _
    (rfl : _ = overtaken) (outcome_of_inPlace there)
  rw [← called] at methods
  refine ⟨events, placed, steps, methods, ?_, ?_⟩
  · rw [kinds]
    exact text
  · rcases Run.follows_protocol rfl unobserved steps with ⟨rfl, _⟩ | progress
    · nomatch methods
    · exact progress

end Sample

end DesiredState
