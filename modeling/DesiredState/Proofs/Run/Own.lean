import DesiredState.Proofs.Plan.Endings
import DesiredState.Run.Model

/-!
# What a task does for its own entity

A task settles its own entity before it turns to the children. It sends at most a lookup, a
write and, after a rejected create, a second lookup; which value it goes on with is determined
by the answers. For each part of the handling this module says which calls go with which value.

**Observers.** An observer may be told of moments and may break off, but it is taken not to put
another entity in the place of the one that is sent (`Run.Faithful`).
-/

set_option autoImplicit false

namespace DesiredState

variable {sent : List Call} {recalls : Prop}

/-! ## Calls -/

namespace Access

variable (access : Access)

/-- What the caller is told of an exchange. -/
def received (request : Request) : Exchange → Except CallFailure Response
  | .lost cause => .error (.transport request.method (access.address request.path) cause)
  | .answered response => .ok response

/-- What the caller is told of an exchange for a write. -/
def written (method : Method) (path : String) (body : Json) (exchange : Exchange) :
    Except CallFailure Json :=
  (access.received ⟨method, path, some body⟩ exchange).bind (decode method (access.address path))

/-- What the caller is told of an exchange for a value. -/
def fetched (path : String) (exchange : Exchange) : Except CallFailure Json :=
  (access.received ⟨.get, path, none⟩ exchange).bind (decode .get path)

variable {access}

theorem solitary_trace (line : LogEvent) : (access.trace line).Solitary recalls := by
  unfold trace
  split
  · exact .log line
  · exact .pure ()

@[simp] theorem sends_trace_bind {β : Type} {line : LogEvent} {continuation : Unit → Plan β}
    {value : β} :
    (access.trace line >>= continuation).Sends sent value ↔
      (continuation ()).Sends sent value := by
  unfold trace
  split
  · exact Plan.sends_log_bind
  · rfl

theorem solitary_exchange (request : Request) : (access.exchange request).Solitary recalls := by
  unfold exchange
  refine (solitary_trace _).bind ?_
  intro _ exchange
  cases exchange with
  | lost cause => exact .pure _
  | answered response => exact (solitary_trace _).bind fun _ => .pure _

theorem sends_exchange {request : Request} {result : Except CallFailure Response} :
    (access.exchange request).Sends sent result ↔
      ∃ exchange, sent = [⟨request, exchange⟩] ∧
        result = access.received request exchange := by
  unfold exchange
  rw [sends_trace_bind]
  constructor
  · rintro ⟨exchange, rest, rfl, sends⟩
    cases exchange with
    | lost cause =>
        obtain ⟨rfl, rfl⟩ := sends
        exact ⟨_, rfl, rfl⟩
    | answered response =>
        obtain ⟨rfl, rfl⟩ := sends_trace_bind.mp sends
        exact ⟨_, rfl, rfl⟩
  · rintro ⟨exchange, rfl, rfl⟩
    refine ⟨exchange, [], rfl, ?_⟩
    cases exchange with
    | lost cause => exact ⟨rfl, rfl⟩
    | answered response => exact sends_trace_bind.mpr ⟨rfl, rfl⟩

theorem solitary_get (path : String) : (access.get path).Solitary recalls := solitary_exchange _

theorem solitary_fetch (path : String) : (access.fetch path).Solitary recalls := by
  refine (solitary_get path).bind ?_
  intro result
  cases result with
  | error failure => exact .pure _
  | ok response => exact .pure _

/-- A task that decodes what it receives sends one request. -/
theorem sends_decoded {request : Request} {decoding : Response → Except CallFailure Json}
    {continuation : Except CallFailure Response → Plan (Except CallFailure Json)}
    {result : Except CallFailure Json}
    (decodes : ∀ answer, continuation answer = pure (answer.bind decoding)) :
    (access.exchange request >>= continuation).Sends sent result ↔
      ∃ exchange, sent = [⟨request, exchange⟩] ∧
        result = (access.received request exchange).bind decoding := by
  have same : continuation = fun answer => pure (answer.bind decoding) := funext decodes
  rw [same, Plan.sends_bind]
  constructor
  · rintro ⟨answer, first, second, rfl, before, rfl, rfl⟩
    obtain ⟨exchange, rfl, rfl⟩ := sends_exchange.mp before
    exact ⟨exchange, List.append_nil _, rfl⟩
  · rintro ⟨exchange, rfl, rfl⟩
    exact ⟨_, _, [], rfl, sends_exchange.mpr ⟨exchange, rfl, rfl⟩, rfl, rfl⟩

theorem sends_fetch {path : String} {result : Except CallFailure Json} :
    (access.fetch path).Sends sent result ↔
      ∃ exchange, sent = [⟨⟨.get, path, none⟩, exchange⟩] ∧
        result = access.fetched path exchange := by
  unfold fetch get
  apply sends_decoded
  intro answer
  cases answer with
  | error failure => rfl
  | ok response => rfl

theorem solitary_write (method : Method) (path : String) (body : Json) :
    (access.write method path body).Solitary recalls := by
  unfold write
  split
  · refine (solitary_exchange _).bind ?_
    intro result
    cases result with
    | error failure => exact .pure _
    | ok response => exact .pure _
  · exact .pure _

theorem sends_write {method : Method} {path : String} {body : Json}
    {result : Except CallFailure Json} (writes : method.isWrite = true) :
    (access.write method path body).Sends sent result ↔
      ∃ exchange, sent = [⟨⟨method, path, some body⟩, exchange⟩] ∧
        result = access.written method path body exchange := by
  unfold write submit
  rw [if_pos writes]
  apply sends_decoded
  intro answer
  cases answer with
  | error failure => rfl
  | ok response => rfl

theorem sends_get {path : String} {result : Except CallFailure Response} :
    (access.get path).Sends sent result ↔
      ∃ exchange, sent = [⟨⟨.get, path, none⟩, exchange⟩] ∧
        result = access.received ⟨.get, path, none⟩ exchange := sends_exchange

/-- Only an answer with the status for invalid writes counts as a rejection. -/
theorem answered_of_isValidation {method : Method}
    {path : String} {body : Json} {exchange : Exchange} {failure : CallFailure}
    (told : access.written method path body exchange = .error failure)
    (invalid : failure.isValidation) :
    ∃ response, exchange = .answered response ∧
      response.status = CallFailure.validationStatus := by
  cases exchange with
  | lost cause =>
      cases told
      nomatch invalid
  | answered response =>
      refine ⟨response, rfl, ?_⟩
      change decode method (access.address path) response = .error failure at told
      unfold decode at told
      split at told
      · split at told
        · nomatch told
        · cases told
          nomatch invalid
      · cases told
        simpa [CallFailure.isValidation, CallFailure.status?, CallFailure.response?] using invalid

end Access

/-- The entity in the place of an answer has the class of the one that was sent. -/
@[simp] theorem Entity.answeredWith_className (entity : Entity) (answer : Json) :
    (entity.answeredWith answer).className = entity.className := by
  cases answer <;> rfl

/-! ## Paths and links -/

/-- The path that a template has been filled to. -/
def Template.Resolution.path? : Template.Resolution → Option String
  | .path uri => some uri
  | .unidentified _ => none
  | .unfilled _ => none

/-- A field takes from the nearest ancestor of the type what it refers to, if that is not null. -/
theorem ParentLink.value_eq_ok_iff {link : ParentLink} {field : String} {lineage : Lineage}
    {entity : Entity} {value : Json} :
    link.value field lineage entity = .ok value ↔
      ∃ ancestor, lineage.nearest? (if link.reference.entity = FieldReference.parentSentinel
          then field else link.reference.entity) = some ancestor ∧
        ancestor.field? link.reference.field = some value ∧ value ≠ .null := by
  unfold ParentLink.value
  simp only
  cases lineage.nearest? _ with
  | none => simp
  | some ancestor =>
      cases held : ancestor.field? link.reference.field with
      | none => simp [held]
      | some inherited => cases inherited <;> simp +contextual [held, eq_comm]

namespace Run

/-- The path at which an entity is looked up, if there is one. -/
def lookupAddress? (blueprint : Blueprint) (lineage : Lineage) (entity : Entity) :
    Option String :=
  blueprint.lookupUri?.bind fun template => (Template.resolve lineage entity template).path?

/-- The entity with the field set that refers to its parent. -/
def linked (blueprint : Blueprint) (lineage : Lineage) (entity : Entity) :
    Except Failure Entity :=
  match blueprint.parentLink with
  | some ⟨some field, reference⟩ =>
      (ParentLink.value ⟨some field, reference⟩ field lineage entity).map (entity.setField field)
  | _ => .ok entity

/-- The observer, if there is one, puts no other entity in the place of one that is sent. -/
def Faithful (run : Run) : Prop :=
  ∀ observer, run.observer = some observer → ∀ entity, observer.substitute entity = entity

variable {run : Run} {blueprint : Blueprint} {lineage : Lineage}

theorem solitary_observe (moment : Moment) : (run.observe moment).Solitary recalls := by
  unfold observe
  split
  · exact .pure ()
  · split
    · exact .done _
    · exact .moment moment

theorem sends_observe {moment : Moment} {value : Unit}
    (sends : (run.observe moment).Sends sent value) :
    sent = [] := by
  unfold observe at sends
  split at sends
  · exact sends.1
  · split at sends
    · exact sends.elim
    · exact sends.1

theorem solitary_resolve (entity : Entity) (template : String) :
    (resolve lineage entity template).Solitary recalls := by
  unfold resolve
  split
  · exact .pure _
  · exact (Plan.Solitary.log _).bind fun _ => .pure _
  · exact .fail _

theorem sends_resolve {entity : Entity} {template : String} {path : Option String}
    (sends : (resolve lineage entity template).Sends sent path) :
    sent = [] ∧ path = (Template.resolve lineage entity template).path? := by
  unfold resolve at sends
  split at sends
  · rename_i found
    exact ⟨sends.1, by rw [sends.2, found]; rfl⟩
  · rename_i found
    exact ⟨sends.1, by rw [sends.2, found]; rfl⟩
  · exact sends.elim

theorem solitary_lookupPath (entity : Entity) :
    (lookupPath blueprint lineage entity).Solitary recalls := by
  unfold lookupPath
  split
  · exact .pure _
  · exact solitary_resolve entity _

theorem sends_lookupPath {entity : Entity} {path : Option String}
    (sends : (lookupPath blueprint lineage entity).Sends sent path) :
    sent = [] ∧ path = lookupAddress? blueprint lineage entity := by
  unfold lookupPath at sends
  unfold lookupAddress?
  split at sends
  · rename_i unable
    rw [unable]
    exact sends
  · rename_i template able
    rw [able]
    exact sends_resolve sends

theorem solitary_required (template : String) (path : Option String) :
    (required template path).Solitary recalls := by
  cases path with
  | none => exact .fail _
  | some uri => exact .pure uri

theorem sends_required {template uri : String} {path : Option String}
    (sends : (required template path).Sends sent uri) : sent = [] ∧ path = some uri := by
  cases path with
  | none => exact sends.elim
  | some known => exact ⟨sends.1, by rw [sends.2]⟩

theorem solitary_linkParent (entity : Entity) :
    (linkParent blueprint lineage entity).Solitary recalls := by
  unfold linkParent
  split
  · exact .pure _
  · split
    · exact (Plan.Solitary.log _).bind fun _ => .pure _
    · unfold Plan.ofExcept
      split
      · exact .pure _
      · exact .fail _

theorem sends_linkParent {entity sender : Entity}
    (sends : (linkParent blueprint lineage entity).Sends sent sender) :
    sent = [] ∧ linked blueprint lineage entity = .ok sender := by
  unfold linkParent at sends
  unfold linked
  split at sends
  · rename_i unlinked
    rw [unlinked]
    exact ⟨sends.1, by rw [sends.2]⟩
  · rename_i link linking
    obtain ⟨name, reference⟩ := link
    rw [linking]
    cases name with
    | none => exact ⟨sends.1, by rw [sends.2]⟩
    | some field =>
        obtain ⟨value, first, second, rfl, before, rfl, rfl⟩ := Plan.sends_bind.mp sends
        cases found : ParentLink.value ⟨some field, reference⟩ field lineage entity with
        | error failure =>
            rw [found] at before
            exact before.elim
        | ok known =>
            rw [found] at before
            obtain ⟨rfl, rfl⟩ := before
            exact ⟨rfl, by simp only [found]; rfl⟩

/-- An entity that is linked has taken one value from an ancestor, or it has stayed as it was. -/
theorem linked_cases {entity sender : Entity}
    (links : linked blueprint lineage entity = .ok sender) :
    (∃ field reference value, blueprint.parentLink = some ⟨some field, reference⟩ ∧
      ParentLink.value ⟨some field, reference⟩ field lineage entity = .ok value ∧
      sender = entity.setField field value) ∨
    (∀ field reference, blueprint.parentLink ≠ some ⟨some field, reference⟩) ∧
      sender = entity := by
  unfold linked at links
  split at links
  · rename_i field reference linking
    cases found : ParentLink.value ⟨some field, reference⟩ field lineage entity with
    | error failure =>
        rw [found] at links
        nomatch links
    | ok value =>
        rw [found] at links
        exact .inl ⟨field, reference, value, linking, found, (Except.ok.inj links).symm⟩
  · rename_i unlinked
    exact .inr ⟨unlinked, (Except.ok.inj links).symm⟩

/-- An entity that is linked to its parent has the value of the ancestor in its parent field. -/
theorem value_of_linked {entity sender : Entity} {own : String} {reference : FieldReference}
    (link : blueprint.parentLink = some ⟨some own, reference⟩)
    (links : linked blueprint lineage entity = .ok sender) :
    ∃ value, ParentLink.value ⟨some own, reference⟩ own lineage entity = .ok value ∧
      sender.field? own = some value := by
  rcases linked_cases links with ⟨field, other, value, linking, found, rfl⟩ | ⟨unlinked, _⟩
  · cases link.symm.trans linking
    exact ⟨value, found, (NameMap.find?_insert entity.fields own own value).trans (if_pos rfl)⟩
  · exact absurd link (unlinked own reference)

/-- The link to the parent is a field; nothing else changes. -/
theorem linked_parts {entity sender : Entity}
    (links : linked blueprint lineage entity = .ok sender) :
    sender.className = entity.className ∧ sender.children = entity.children := by
  rcases linked_cases links with ⟨_, _, _, _, _, rfl⟩ | ⟨_, rfl⟩
  · exact ⟨rfl, rfl⟩
  · exact ⟨rfl, rfl⟩

theorem solitary_substitute (flagged : Bool) (entity : Entity) :
    (run.substitute flagged entity).Solitary recalls := by
  unfold substitute
  split
  · exact (solitary_observe _).bind fun _ => .pure _
  · exact .pure _

theorem sends_substitute_nothing {flagged : Bool} {entity sender : Entity}
    (sends : (run.substitute flagged entity).Sends sent sender) : sent = [] := by
  unfold substitute at sends
  split at sends
  · obtain ⟨_, first, second, rfl, before, rfl, _⟩ := Plan.sends_bind.mp sends
    rw [sends_observe before, List.append_nil]
  · exact sends.1

theorem sends_substitute (faithful : run.Faithful) {flagged : Bool} {entity sender : Entity}
    (sends : (run.substitute flagged entity).Sends sent sender) :
    sent = [] ∧ sender = entity := by
  refine ⟨sends_substitute_nothing sends, ?_⟩
  unfold substitute at sends
  split at sends
  · rename_i observer here
    obtain ⟨_, _, _, _, _, _, rfl⟩ := Plan.sends_bind.mp sends
    exact faithful observer here entity
  · exact sends.2

/-! ## Creating -/

theorem solitary_prepare (entity : Entity) :
    (run.prepare blueprint lineage entity).Solitary recalls :=
  (solitary_linkParent entity).bind fun linked => solitary_substitute linked.substitutes linked

theorem sends_prepare_nothing {entity sender : Entity}
    (sends : (run.prepare blueprint lineage entity).Sends sent sender) : sent = [] := by
  obtain ⟨between, first, second, rfl, before, after⟩ := Plan.sends_bind.mp sends
  rw [(sends_linkParent before).1, sends_substitute_nothing after, List.append_nil]

theorem sends_prepare (faithful : run.Faithful) {entity sender : Entity}
    (sends : (run.prepare blueprint lineage entity).Sends sent sender) :
    sent = [] ∧ linked blueprint lineage entity = .ok sender := by
  refine ⟨sends_prepare_nothing sends, ?_⟩
  obtain ⟨between, _, _, _, before, after⟩ := Plan.sends_bind.mp sends
  rw [(sends_linkParent before).2, (sends_substitute faithful after).2]

theorem solitary_recover (entity : Entity) (createUri : String) (rejection : CallFailure) :
    (run.recover blueprint lineage entity createUri rejection).Solitary recalls := by
  unfold recover
  refine (solitary_lookupPath entity).bind ?_
  intro path
  cases path with
  | none =>
      simp only
      split
      · exact .fail _
      · exact (Plan.Solitary.log _).bind fun _ => .pure _
  | some uri =>
      refine (Access.solitary_fetch uri).bind ?_
      intro result
      cases result with
      | ok value => exact (Plan.Solitary.log _).bind fun _ => .pure _
      | error failure => exact (Plan.Solitary.log _).bind fun _ => .fail _

/-- What a recovery goes on with: the entity that is looked up, or nothing if no lookup is
possible and there are no children. -/
def Recovers (run : Run) (blueprint : Blueprint) (lineage : Lineage) (entity : Entity)
    (sent : List Call) (settled : Option Entity) : Prop :=
  (lookupAddress? blueprint lineage entity = none ∧ entity.hasChildren = false ∧ sent = [] ∧
    settled = none) ∨
  ∃ uri exchange value, lookupAddress? blueprint lineage entity = some uri ∧
    sent = [⟨⟨.get, uri, none⟩, exchange⟩] ∧ run.access.fetched uri exchange = .ok value ∧
    settled = some (entity.answeredWith value)

theorem sends_recover {entity : Entity} {createUri : String} {rejection : CallFailure}
    {settled : Option Entity}
    (sends : (run.recover blueprint lineage entity createUri rejection).Sends sent settled) :
    Recovers run blueprint lineage entity sent settled := by
  obtain ⟨path, first, second, rfl, before, after⟩ := Plan.sends_bind.mp sends
  obtain ⟨rfl, known⟩ := sends_lookupPath before
  cases path with
  | none =>
      simp only at after
      split at after
      · exact after.elim
      · rename_i childless
        obtain ⟨rfl, rfl⟩ := after
        exact .inl ⟨known.symm, by simpa using childless, rfl, rfl⟩
  | some uri =>
      obtain ⟨result, third, fourth, rfl, fetches, goesOn⟩ := Plan.sends_bind.mp after
      obtain ⟨exchange, rfl, told⟩ := Access.sends_fetch.mp fetches
      cases result with
      | error failure => exact goesOn.elim
      | ok value =>
          obtain ⟨rfl, rfl⟩ := goesOn
          exact .inr ⟨uri, exchange, value, known.symm, rfl, told.symm, rfl⟩

theorem solitary_submitCreate (entity : Entity) (uri : String) :
    (run.submitCreate blueprint lineage entity uri).Solitary recalls := by
  refine (Plan.Solitary.log _).bind fun _ => (Access.solitary_write _ _ _).bind fun result => ?_
  cases result with
  | ok value => exact (solitary_observe _).bind fun _ => .pure _
  | error failure =>
      simp only
      split
      · refine (solitary_recover entity uri failure).bind ?_
        intro settled
        cases settled with
        | none => exact .pure _
        | some existing => exact (solitary_observe _).bind fun _ => .pure _
      · exact .fail _

/-- What a create goes on with: the entity that was answered, or what a recovery yields if the
create was rejected as invalid. -/
def Creates (run : Run) (blueprint : Blueprint) (lineage : Lineage) (desired : Entity)
    (sent : List Call) (settled : Option Entity) : Prop :=
  ∃ uri entity exchange rest,
    (Template.resolve lineage desired blueprint.createUri).path? = some uri ∧
    linked blueprint lineage desired = .ok entity ∧ blueprint.createMethod.isWrite ∧
    sent = ⟨⟨blueprint.createMethod, uri, some entity.body⟩, exchange⟩ :: rest ∧
    ((∃ value, run.access.written blueprint.createMethod uri entity.body exchange = .ok value ∧
        rest = [] ∧ settled = some (entity.answeredWith value)) ∨
      ∃ failure, run.access.written blueprint.createMethod uri entity.body exchange
          = .error failure ∧
        failure.isValidation ∧ Recovers run blueprint lineage entity rest settled)

theorem sends_submitCreate {entity : Entity} {uri : String} {settled : Option Entity}
    (writes : blueprint.createMethod.isWrite)
    (sends : (run.submitCreate blueprint lineage entity uri).Sends sent settled) :
    ∃ exchange rest,
      sent = ⟨⟨blueprint.createMethod, uri, some entity.body⟩, exchange⟩ :: rest ∧
      ((∃ value, run.access.written blueprint.createMethod uri entity.body exchange = .ok value ∧
          rest = [] ∧ settled = some (entity.answeredWith value)) ∨
        ∃ failure, run.access.written blueprint.createMethod uri entity.body exchange
            = .error failure ∧
          failure.isValidation ∧ Recovers run blueprint lineage entity rest settled) := by
  obtain ⟨result, first, rest, rfl, before, after⟩ :=
    Plan.sends_bind.mp (Plan.sends_log_bind.mp sends)
  obtain ⟨exchange, rfl, told⟩ := (Access.sends_write writes).mp before
  refine ⟨exchange, rest, rfl, ?_⟩
  cases result with
  | ok value =>
      obtain ⟨_, third, fourth, rfl, observed, rfl, rfl⟩ := Plan.sends_bind.mp after
      exact .inl ⟨value, told.symm, by rw [sends_observe observed]; rfl, rfl⟩
  | error failure =>
      simp only at after
      split at after
      · rename_i invalid
        obtain ⟨found, third, fourth, rfl, recovers, goesOn⟩ := Plan.sends_bind.mp after
        have recovery := sends_recover recovers
        cases found with
        | none =>
            obtain ⟨rfl, rfl⟩ := goesOn
            exact .inr ⟨failure, told.symm, invalid, by rwa [List.append_nil]⟩
        | some existing =>
            obtain ⟨_, fifth, sixth, rfl, observed, rfl, rfl⟩ := Plan.sends_bind.mp goesOn
            rw [sends_observe observed, List.append_nil, List.append_nil]
            exact .inr ⟨failure, told.symm, invalid, recovery⟩
      · exact after.elim

theorem solitary_create (desired : Entity) :
    (run.create blueprint lineage desired).Solitary recalls := by
  unfold create
  split
  · exact (Plan.Solitary.log _).bind fun _ => .pure _
  · refine (solitary_resolve _ _).bind fun path => (solitary_required _ _).bind fun uri =>
      (solitary_prepare _).bind fun entity => (solitary_observe _).bind fun _ => ?_
    split
    · exact solitary_submitCreate entity uri
    · exact .fail _

/-- A create submits what was prepared, whatever the observer has put in its place. -/
theorem submits_of_create (wet : run.dry = false) {desired : Entity} {settled : Option Entity}
    (sends : (run.create blueprint lineage desired).Sends sent settled) :
    ∃ uri entity, (Template.resolve lineage desired blueprint.createUri).path? = some uri ∧
      (run.prepare blueprint lineage desired).Sends [] entity ∧ blueprint.createMethod.isWrite ∧
      (run.submitCreate blueprint lineage entity uri).Sends sent settled := by
  unfold create at sends
  simp only [wet, Bool.false_eq_true, if_false] at sends
  obtain ⟨path, _, _, rfl, resolves, resolved⟩ := Plan.sends_bind.mp sends
  obtain ⟨rfl, filled⟩ := sends_resolve resolves
  obtain ⟨uri, _, _, rfl, requires, required⟩ := Plan.sends_bind.mp resolved
  obtain ⟨rfl, rfl⟩ := sends_required requires
  obtain ⟨entity, _, _, rfl, prepares, prepared⟩ := Plan.sends_bind.mp required
  obtain rfl := sends_prepare_nothing prepares
  obtain ⟨_, _, _, rfl, observes, observed⟩ := Plan.sends_bind.mp prepared
  rw [sends_observe observes]
  split at observed
  · rename_i writes
    exact ⟨uri, entity, filled.symm, prepares, writes, observed⟩
  · exact observed.elim

theorem sends_create (wet : run.dry = false) (faithful : run.Faithful) {desired : Entity}
    {settled : Option Entity} (sends : (run.create blueprint lineage desired).Sends sent settled) :
    Creates run blueprint lineage desired sent settled := by
  obtain ⟨uri, entity, filled, prepares, writes, submits⟩ := submits_of_create wet sends
  obtain ⟨exchange, rest, rfl, answered⟩ := sends_submitCreate writes submits
  exact ⟨uri, entity, exchange, rest, filled, (sends_prepare faithful prepares).2, writes, rfl,
    answered⟩

/-! ## Updating -/

theorem solitary_update (merged : Entity) :
    (run.update blueprint lineage merged).Solitary recalls := by
  unfold update
  split
  · exact (Plan.Solitary.log _).bind fun _ => .pure _
  · refine (solitary_lookupPath _).bind fun path => (solitary_required _ _).bind fun uri =>
      (solitary_prepare _).bind fun entity => (solitary_observe _).bind fun _ => ?_
    split
    · refine (Plan.Solitary.log _).bind fun _ => (Access.solitary_write _ _ _).bind fun result => ?_
      cases result with
      | ok value => exact (solitary_observe _).bind fun _ => .pure _
      | error failure => exact .fail _
    · exact .fail _

/-- An update sends what was prepared, and goes on with what is answered. -/
theorem submits_of_update (wet : run.dry = false) {merged updated : Entity}
    (sends : (run.update blueprint lineage merged).Sends sent updated) :
    ∃ uri entity exchange value, lookupAddress? blueprint lineage merged = some uri ∧
      (run.prepare blueprint lineage merged).Sends [] entity ∧ blueprint.updateMethod.isWrite ∧
      sent = [⟨⟨blueprint.updateMethod, uri, some entity.body⟩, exchange⟩] ∧
      run.access.written blueprint.updateMethod uri entity.body exchange = .ok value ∧
      updated = entity.answeredWith value := by
  unfold update at sends
  simp only [wet, Bool.false_eq_true, if_false] at sends
  obtain ⟨path, _, _, rfl, looks, looked⟩ := Plan.sends_bind.mp sends
  obtain ⟨rfl, known⟩ := sends_lookupPath looks
  obtain ⟨uri, _, _, rfl, requires, required⟩ := Plan.sends_bind.mp looked
  obtain ⟨rfl, rfl⟩ := sends_required requires
  obtain ⟨entity, _, _, rfl, prepares, prepared⟩ := Plan.sends_bind.mp required
  obtain rfl := sends_prepare_nothing prepares
  obtain ⟨_, _, _, rfl, observes, observed⟩ := Plan.sends_bind.mp prepared
  rw [sends_observe observes]
  split at observed
  · rename_i writes
    obtain ⟨result, _, _, rfl, written, answered⟩ :=
      Plan.sends_bind.mp (Plan.sends_log_bind.mp observed)
    obtain ⟨exchange, rfl, told⟩ := (Access.sends_write writes).mp written
    cases result with
    | error failure => exact answered.elim
    | ok value =>
        obtain ⟨_, _, _, rfl, after, rfl, rfl⟩ := Plan.sends_bind.mp answered
        rw [sends_observe after]
        exact ⟨uri, entity, exchange, value, known.symm, prepares, writes, rfl, told.symm, rfl⟩
  · exact observed.elim

/-- An update that is answered leaves the class as it is. -/
theorem sends_update (wet : run.dry = false) (faithful : run.Faithful) {merged updated : Entity}
    (sends : (run.update blueprint lineage merged).Sends sent updated) :
    updated.className = merged.className := by
  obtain ⟨_, entity, _, value, _, prepares, _, _, _, rfl⟩ := submits_of_update wet sends
  rw [Entity.answeredWith_className, (linked_parts (sends_prepare faithful prepares).2).1]

/-! ## Looking up -/

theorem solitary_reportMissing (entity : Entity) :
    (reportMissing blueprint entity).Solitary recalls :=
  (Plan.Solitary.log _).bind fun _ => .report _

theorem solitary_reportExisting (remote desired : Entity) :
    (reportExisting blueprint remote desired).Solitary recalls :=
  (Plan.Solitary.log _).bind fun _ => .report _

theorem solitary_settleExisting (desired remote : Entity) (uri : String) :
    (run.settleExisting blueprint lineage desired remote uri).Solitary
      (desired.updates = true) := by
  unfold settleExisting
  split
  · exact (solitary_substitute _ _).bind fun _ =>
      (solitary_reportExisting _ _).bind fun _ => .pure _
  · split
    · rename_i updates
      refine Plan.Solitary.bind ⟨updates, fun _ => .pure _⟩ fun known => ?_
      exact (Plan.Solitary.log _).bind fun _ => solitary_update _
    · exact (Plan.Solitary.log _).bind fun _ => .pure _

/-- An entity that exists and is not to be updated is left alone. -/
theorem sends_settleExisting (wet : run.dry = false) (faithful : run.Faithful)
    {desired remote settled : Entity} {uri : String} (same : remote.className = desired.className)
    (sends : (run.settleExisting blueprint lineage desired remote uri).Sends sent settled) :
    settled.className = desired.className ∧
      (desired.updates = false → sent = [] ∧ settled = remote) := by
  unfold settleExisting at sends
  simp only [wet, Bool.false_eq_true, if_false] at sends
  split at sends
  · rename_i updates
    obtain ⟨known, _, _, rfl, _, goesOn⟩ := Plan.sends_bind.mp sends
    have kept : settled.className = (desired.laidOver known).className :=
      sends_update wet faithful (Plan.sends_log_bind.mp goesOn)
    exact ⟨kept, fun fixed => absurd updates (by simp [fixed])⟩
  · obtain ⟨rfl, rfl⟩ := Plan.sends_log_bind.mp sends
    exact ⟨same, fun _ => ⟨rfl, rfl⟩⟩

/-- What a lookup goes on with: the entity that exists, or what a create yields if there is
none. -/
def Finds (run : Run) (blueprint : Blueprint) (lineage : Lineage) (desired : Entity)
    (uri : String) (sent : List Call) (settled : Option Entity) : Prop :=
  ∃ response rest, sent = ⟨⟨.get, uri, none⟩, .answered response⟩ :: rest ∧
    ((response.status = foundStatus ∧ ∃ value found, response.json? = some value ∧
        (run.settleExisting blueprint lineage desired (.ofRemote value desired.className)
          uri).Sends rest found ∧
        settled = some found) ∨
      (response.status = CallFailure.missingStatus ∧
        Creates run blueprint lineage desired rest settled))

theorem solitary_settleAnswered (desired : Entity) (uri : String) (response : Response) :
    (run.settleAnswered blueprint lineage desired uri response).Solitary
      (desired.updates = true) := by
  unfold settleAnswered
  split
  · split
    · exact .fail _
    · rw [map_eq_pure_bind]
      exact (solitary_settleExisting _ _ _).bind fun _ => .pure _
  · split
    · split
      · exact (solitary_reportMissing _).bind fun _ => .pure _
      · exact solitary_create desired
    · exact .fail _

theorem solitary_lookup (desired : Entity) (uri : String) :
    (run.lookup blueprint lineage desired uri).Solitary (desired.updates = true) := by
  unfold lookup
  refine (solitary_observe _).bind fun _ => (Access.solitary_get _).bind fun result => ?_
  cases result with
  | error failure => exact .fail _
  | ok response =>
      exact (solitary_observe _).bind fun _ => solitary_settleAnswered desired uri response

/-- What is looked up is found, or it is missing and a run that is not dry creates it. -/
theorem answered_of_lookup {desired : Entity} {uri : String} {settled : Option Entity}
    (sends : (run.lookup blueprint lineage desired uri).Sends sent settled) :
    ∃ response rest, sent = ⟨⟨.get, uri, none⟩, .answered response⟩ :: rest ∧
      ((response.status = foundStatus ∧ ∃ value found, response.json? = some value ∧
          (run.settleExisting blueprint lineage desired (.ofRemote value desired.className)
            uri).Sends rest found ∧
          settled = some found) ∨
        (response.status = CallFailure.missingStatus ∧
          ((run.dry = true ∧ rest = [] ∧ settled = none) ∨
            (run.dry = false ∧ (run.create blueprint lineage desired).Sends rest settled)))) := by
  obtain ⟨_, _, _, rfl, before, goesOn⟩ := Plan.sends_bind.mp sends
  rw [sends_observe before]
  obtain ⟨result, _, _, rfl, gets, answered⟩ := Plan.sends_bind.mp goesOn
  obtain ⟨exchange, rfl, told⟩ := Access.sends_get.mp gets
  cases exchange with
  | lost cause =>
      rw [told] at answered
      exact answered.elim
  | answered response =>
      rw [told] at answered
      obtain ⟨_, _, rest, rfl, after, settles⟩ := Plan.sends_bind.mp answered
      rw [sends_observe after]
      refine ⟨response, rest, rfl, ?_⟩
      unfold settleAnswered at settles
      split at settles
      · rename_i found
        split at settles
        · exact settles.elim
        · rename_i value spelled
          obtain ⟨entity, existing, rfl⟩ := Plan.sends_map.mp settles
          exact .inl ⟨found, value, entity, spelled, existing, rfl⟩
      · split at settles
        · rename_i missing
          split at settles
          · rename_i dry
            obtain ⟨_, _, _, rfl, told, rfl, rfl⟩ := Plan.sends_bind.mp settles
            obtain rfl := Plan.sends_tell.mp (Plan.sends_log_bind.mp told)
            exact .inr ⟨missing, .inl ⟨dry, rfl, rfl⟩⟩
          · rename_i wet
            exact .inr ⟨missing, .inr ⟨by simpa using wet, settles⟩⟩
        · exact settles.elim

theorem sends_lookup (wet : run.dry = false) (faithful : run.Faithful) {desired : Entity}
    {uri : String} {settled : Option Entity}
    (sends : (run.lookup blueprint lineage desired uri).Sends sent settled) :
    Finds run blueprint lineage desired uri sent settled := by
  obtain ⟨response, rest, rfl, found | ⟨missing, ⟨dry, _⟩ | ⟨_, creates⟩⟩⟩ :=
    answered_of_lookup sends
  · exact ⟨response, rest, rfl, .inl found⟩
  · rw [wet] at dry
    nomatch dry
  · exact ⟨response, rest, rfl, .inr ⟨missing, sends_create wet faithful creates⟩⟩

theorem solitary_settle (desired : Entity) :
    (run.settle blueprint lineage desired).Solitary (desired.updates = true) := by
  unfold settle
  refine (solitary_lookupPath desired).bind ?_
  intro path
  cases path with
  | some uri => exact solitary_lookup desired uri
  | none =>
      simp only
      split
      · exact (solitary_reportMissing _).bind fun _ => .pure _
      · exact solitary_create desired

/-- **What a task does for its own entity.** It looks the entity up if there is a path to do
so, and creates it otherwise. -/
theorem sends_settle (wet : run.dry = false) (faithful : run.Faithful) {desired : Entity}
    {settled : Option Entity} (sends : (run.settle blueprint lineage desired).Sends sent settled) :
    (∃ uri, lookupAddress? blueprint lineage desired = some uri ∧
      Finds run blueprint lineage desired uri sent settled) ∨
    (lookupAddress? blueprint lineage desired = none ∧
      Creates run blueprint lineage desired sent settled) := by
  obtain ⟨path, _, _, rfl, looks, goesOn⟩ := Plan.sends_bind.mp sends
  obtain ⟨rfl, known⟩ := sends_lookupPath looks
  cases path with
  | some uri => exact .inl ⟨uri, known.symm, sends_lookup wet faithful goesOn⟩
  | none =>
      rw [wet] at goesOn
      exact .inr ⟨known.symm, sends_create wet faithful goesOn⟩

/-! ## The class of what is settled, and what is skipped -/

theorem Recovers.className {entity settled : Entity}
    (recovers : Recovers run blueprint lineage entity sent (some settled)) :
    settled.className = entity.className := by
  rcases recovers with ⟨_, _, _, nothing⟩ | ⟨_, _, value, _, _, _, same⟩
  · nomatch nothing
  · cases same
    exact Entity.answeredWith_className entity value

theorem Creates.className {desired settled : Entity}
    (creates : Creates run blueprint lineage desired sent (some settled)) :
    settled.className = desired.className := by
  obtain ⟨_, entity, _, _, _, links, _, _, answered⟩ := creates
  rcases answered with ⟨value, _, _, same⟩ | ⟨_, _, _, recovers⟩
  · cases same
    rw [Entity.answeredWith_className, (linked_parts links).1]
  · rw [recovers.className, (linked_parts links).1]

/-- What is in place has the class of what is desired. -/
theorem className_of_settle (wet : run.dry = false) (faithful : run.Faithful)
    {desired settled : Entity}
    (sends : (run.settle blueprint lineage desired).Sends sent (some settled)) :
    settled.className = desired.className := by
  rcases sends_settle wet faithful sends with ⟨uri, _, finds⟩ | ⟨_, creates⟩
  · obtain ⟨response, rest, _, answered⟩ := finds
    rcases answered with ⟨_, value, found, _, existing, same⟩ | ⟨_, creates⟩
    · cases same
      have remote : (Entity.ofRemote value desired.className).className = desired.className := rfl
      exact (sends_settleExisting wet faithful remote existing).1
    · exact creates.className
  · exact creates.className

/-- A create at the address of the entity was rejected as invalid, and it cannot be looked up. -/
def Rejected (sent : List Call) (blueprint : Blueprint) (lineage : Lineage) (desired : Entity) :
    Prop :=
  ∃ uri entity response,
    (Template.resolve lineage desired blueprint.createUri).path? = some uri ∧
    linked blueprint lineage desired = .ok entity ∧
    ⟨⟨blueprint.createMethod, uri, some entity.body⟩, .answered response⟩ ∈ sent ∧
    response.status = CallFailure.validationStatus ∧
    lookupAddress? blueprint lineage entity = none

/-- Nothing is in place only where a create was rejected, and no children depend on it. -/
theorem rejected_of_settle (wet : run.dry = false) (faithful : run.Faithful) {desired : Entity}
    (sends : (run.settle blueprint lineage desired).Sends sent none) :
    desired.hasChildren = false ∧ Rejected sent blueprint lineage desired := by
  have skips : ∀ {calls : List Call}, (∀ call ∈ calls, call ∈ sent) →
      Creates run blueprint lineage desired calls none →
      desired.hasChildren = false ∧ Rejected sent blueprint lineage desired := by
    rintro calls inside ⟨uri, entity, exchange, rest, filled, links, _, rfl, answered⟩
    rcases answered with ⟨_, _, _, nothing⟩ | ⟨failure, told, invalid, recovers⟩
    · nomatch nothing
    · obtain ⟨response, rfl, status⟩ := Access.answered_of_isValidation told invalid
      rcases recovers with ⟨unable, childless, _, _⟩ | ⟨_, _, _, _, _, _, nothing⟩
      · refine ⟨?_, uri, entity, response, filled, links, inside _ List.mem_cons_self, status,
          unable⟩
        rw [← childless, Entity.hasChildren, Entity.hasChildren, (linked_parts links).2]
      · nomatch nothing
  rcases sends_settle wet faithful sends with ⟨uri, _, finds⟩ | ⟨_, creates⟩
  · obtain ⟨response, rest, rfl, answered⟩ := finds
    rcases answered with ⟨_, _, _, _, _, nothing⟩ | ⟨_, creates⟩
    · nomatch nothing
    · exact skips (fun call member => List.mem_cons_of_mem _ member) creates
  · exact skips (fun call member => member) creates

end Run

end DesiredState
