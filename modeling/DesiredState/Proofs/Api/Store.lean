import DesiredState.Proofs.Api.Pathwise
import DesiredState.Proofs.NameMap
import DesiredState.Proofs.Run.Own

/-!
# APIs that keep a store

A store holds an object under some of its paths. Reading a path is answered with the object
there, or with its absence; writing puts the sent object there, completed by a uuid if it has
none or a null one, and is answered with the object that is stored then (`Stored`).

**Disturbances.** A request may be answered with an error, or its answer may be lost, and the
store may have applied it all the same or not (`Disturbed`). The errors for absence and for
invalid writes are not among them, since they are answers of their own.
-/

set_option autoImplicit false

namespace DesiredState

/-- What a store holds under a path. -/
abbrev Held := Option (NameMap Json)

/-- The field under which a store keeps the uuid of an object. -/
def uuidField : String := "uuid"

/-- The object that is stored for the one that was sent; which uuids may be assigned at a path
is up to the store. -/
def Completes (assigns : String → String → Prop) (path : String)
    (sent stored : NameMap Json) : Prop :=
  ((sent.find? uuidField).getD .null = .null ∧
    ∃ uuid, assigns path uuid ∧ stored = sent.insert uuidField (.string uuid)) ∨
  ((sent.find? uuidField).getD .null ≠ .null ∧ stored = sent)

/-- An object is completed in one way if one uuid may be assigned at its path. -/
theorem Completes.unique {assigns : String → String → Prop} {path : String}
    {sent stored other : NameMap Json}
    (one : ∀ uuid another, assigns path uuid → assigns path another → uuid = another)
    (completes : Completes assigns path sent stored)
    (alsoCompletes : Completes assigns path sent other) : stored = other := by
  rcases completes with ⟨absent, uuid, assigned, rfl⟩ | ⟨present, rfl⟩
  · rcases alsoCompletes with ⟨_, another, also, rfl⟩ | ⟨present, _⟩
    · rw [one uuid another assigned also]
    · exact absurd absent present
  · rcases alsoCompletes with ⟨absent, _⟩ | ⟨_, rfl⟩
    · exact absurd absent present
    · rfl

/-- The response shows the object. -/
def Response.Shows (response : Response) (fields : NameMap Json) : Prop :=
  response.json? = some (.ofMap fields)

/-- A store answers. -/
inductive Stored (assigns : String → String → Prop) : Answering Held
  | found {path : String} {fields : NameMap Json} {response : Response} :
      response.status = 200 → response.Shows fields →
      Stored assigns ⟨.get, path, none⟩ (some fields) (.answered response) (some fields)
  | missing {path : String} {response : Response} :
      response.status = 404 →
      Stored assigns ⟨.get, path, none⟩ none (.answered response) none
  | written {method : Method} {path : String} {held : Held} {sent stored : NameMap Json}
      {response : Response} :
      method.isWrite = true → Completes assigns path sent stored →
      response.isSuccess = true → response.Shows stored →
      Stored assigns ⟨method, path, some (.ofMap sent)⟩ held (.answered response) (some stored)

/-- Something else than an answer of the store came back. -/
def Exchange.Troubled : Exchange → Prop
  | .lost _ => True
  | .answered response =>
      response.isSuccess = false ∧ response.status ≠ CallFailure.missingStatus ∧
        response.status ≠ CallFailure.validationStatus

/-- A store answers, or the request is disturbed before or after it was applied. -/
inductive Disturbed (assigns : String → String → Prop) : Answering Held
  | answered {request : Request} {held next : Held} {exchange : Exchange} :
      Stored assigns request held exchange next → Disturbed assigns request held exchange next
  | before {request : Request} {held : Held} {exchange : Exchange} :
      exchange.Troubled → Disturbed assigns request held exchange held
  | after {request : Request} {held next : Held} {exchange answer : Exchange} :
      exchange.Troubled → Stored assigns request held answer next →
      Disturbed assigns request held exchange next

/-! ## What the answers say -/

variable {assigns : String → String → Prop} {held next : Held} {exchange : Exchange}

/-- Reading leaves the store as it is and says what it holds. -/
theorem Stored.of_get {path : String}
    (stored : Stored assigns ⟨.get, path, none⟩ held exchange next) :
    next = held ∧ ∃ response, exchange = .answered response ∧
      ((∃ fields, held = some fields ∧ response.status = 200 ∧ response.Shows fields) ∨
        (held = none ∧ response.status = 404)) := by
  cases stored with
  | found status shows_ => exact ⟨rfl, _, rfl, .inl ⟨_, rfl, status, shows_⟩⟩
  | missing status => exact ⟨rfl, _, rfl, .inr ⟨rfl, status⟩⟩

/-- Writing is answered with what is stored then. -/
theorem Stored.of_write {method : Method} {path : String} {body : Json}
    (stored : Stored assigns ⟨method, path, some body⟩ held exchange next) :
    ∃ sent object response, body = .ofMap sent ∧ Completes assigns path sent object ∧
      next = some object ∧ exchange = .answered response ∧ response.isSuccess = true ∧
      response.Shows object := by
  cases stored with
  | written _ completes success shows_ =>
      exact ⟨_, _, _, rfl, completes, rfl, rfl, success, shows_⟩

/-- A call was not rejected as invalid. -/
def Call.Accepted (call : Call) : Prop :=
  ∀ response, call.exchange = .answered response → response.status ≠ CallFailure.validationStatus

/-- A store rejects nothing as invalid. -/
theorem Stored.accepted {call : Call}
    (stored : Stored assigns call.request held call.exchange next) :
    call.Accepted := by
  obtain ⟨request, exchange⟩ := call
  rintro response rfl invalid
  cases stored with
  | found status _ => exact absurd (status.symm.trans invalid) (by decide)
  | missing status => exact absurd (status.symm.trans invalid) (by decide)
  | written _ _ success _ =>
      rw [Response.isSuccess, invalid] at success
      nomatch success

/-- The calls that a store serves are accepted. -/
theorem accepted_of_served {state last : String → Held} {calls : List Call}
    (served : Served (Stored assigns) state calls last) : ∀ call ∈ calls, call.Accepted := by
  induction served with
  | nil => exact List.forall_mem_nil _
  | cons call next stored _ ih => exact List.forall_mem_cons.mpr ⟨stored.accepted, ih⟩

/-- A call was answered with success. -/
def Call.Succeeded (call : Call) : Prop :=
  ∃ response, call.exchange = .answered response ∧ response.isSuccess = true

/-- A store forgets nothing. -/
theorem held_of_served {state last : String → Held} {calls : List Call}
    (served : Served (Stored assigns) state calls last) :
    (∀ path, state path ≠ none → last path ≠ none) ∧
      ∀ call ∈ calls, call.Succeeded → last call.request.path ≠ none := by
  induction served with
  | nil state => exact ⟨fun _ => id, List.forall_mem_nil _⟩
  | @cons state last calls call next stored _ ih =>
      have known : next ≠ none ∨ next = state call.request.path ∧ ¬ call.Succeeded := by
        obtain ⟨request, exchange⟩ := call
        generalize state request.path = held at stored
        cases stored with
        | found _ _ => exact .inl (Option.some_ne_none _)
        | written _ _ _ _ => exact .inl (Option.some_ne_none _)
        | missing status =>
            refine .inr ⟨rfl, ?_⟩
            rintro ⟨response, same, success⟩
            cases same
            rw [Response.isSuccess, status] at success
            nomatch success
      constructor
      · intro path present
        refine ih.1 path ?_
        by_cases here : path = call.request.path
        · subst here
          rw [Function.update_self]
          rcases known with some | ⟨same, _⟩
          · exact some
          · rwa [same]
        · rwa [Function.update_of_ne here]
      · refine List.forall_mem_cons.mpr ⟨fun succeeded => ih.1 _ ?_, ih.2⟩
        rw [Function.update_self]
        rcases known with some | ⟨_, failed⟩
        · exact some
        · exact absurd succeeded failed

namespace Access

variable {access : Access} {method : Method} {path : String} {body : Json}

/-- An answered write is told with the object that it shows. -/
theorem written_of_shows {response : Response} {object : NameMap Json}
    (success : response.isSuccess = true) (shows_ : response.Shows object) :
    access.written method path body (.answered response) = .ok (.ofMap object) := by
  change decode method (access.address path) response = _
  rw [decode, if_pos success, shows_]

/-- A write that is told with a value succeeded. -/
theorem succeeded_of_written {value : Json}
    (told : access.written method path body exchange = .ok value) :
    ∃ response, exchange = .answered response ∧ response.isSuccess = true := by
  cases exchange with
  | lost cause => nomatch told
  | answered response =>
      refine ⟨response, rfl, ?_⟩
      change decode method (access.address path) response = .ok value at told
      unfold decode at told
      split at told
      · assumption
      · nomatch told

/-- A disturbed write is told as a failure that is no rejection. -/
theorem written_of_troubled (troubled : exchange.Troubled) :
    ∃ failure, access.written method path body exchange = .error failure ∧
      failure.isValidation = false := by
  cases exchange with
  | lost cause => exact ⟨_, rfl, rfl⟩
  | answered response =>
      obtain ⟨failed, _, valid⟩ := troubled
      refine ⟨.http method (access.address path) response, ?_, ?_⟩
      · change decode method (access.address path) response = _
        rw [decode, failed]
        rfl
      · simpa [CallFailure.isValidation, CallFailure.status?, CallFailure.response?] using valid

end Access

end DesiredState
