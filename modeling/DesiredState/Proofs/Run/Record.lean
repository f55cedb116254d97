import DesiredState.Proofs.Run.Foresight

/-!
# Runs on record

A server that answers path by path may write down all that it is asked. The record then holds
the calls that the tasks of a run have made, in their order, and the journal holds the visits
(`Engine.execute_recorded`). So what an API has done in a run of the machine can be judged
afterwards: the calls are replayed one after another, and each answer is compared with what a
store holds (`served_of_replay?`).
-/

set_option autoImplicit false

namespace DesiredState

/-! ## Equal values -/

namespace Json

mutual

/-- Whether two values are equal. -/
def same : Json → Json → Bool
  | .null, .null => true
  | .bool left, .bool right => left == right
  | .number left, .number right => left == right
  | .string left, .string right => left == right
  | .array left, .array right => itemsSame left right
  | .object left, .object right => membersSame left right
  | _, _ => false

/-- Whether two lists hold equal values. -/
def itemsSame : List Json → List Json → Bool
  | [], [] => true
  | left :: lefts, right :: rights => left.same right && itemsSame lefts rights
  | _, _ => false

/-- Whether two lists hold equal members. -/
def membersSame : List (String × Json) → List (String × Json) → Bool
  | [], [] => true
  | (leftName, left) :: lefts, (rightName, right) :: rights =>
      leftName == rightName && left.same right && membersSame lefts rights
  | _, _ => false

end

mutual

theorem eq_of_same : ∀ {left right : Json}, left.same right = true → left = right
  | .null, .null, _ => rfl
  | .bool _, .bool _, equal => congrArg Json.bool (eq_of_beq equal)
  | .number _, .number _, equal => congrArg Json.number (eq_of_beq equal)
  | .string _, .string _, equal => congrArg Json.string (eq_of_beq equal)
  | .array _, .array _, equal => congrArg Json.array (eq_of_itemsSame equal)
  | .object _, .object _, equal => congrArg Json.object (eq_of_membersSame equal)

theorem eq_of_itemsSame : ∀ {left right : List Json}, itemsSame left right = true → left = right
  | [], [], _ => rfl
  | _ :: _, _ :: _, equal => by
      obtain ⟨first, rest⟩ := Bool.and_eq_true_iff.mp equal
      rw [eq_of_same first, eq_of_itemsSame rest]

theorem eq_of_membersSame : ∀ {left right : List (String × Json)},
    membersSame left right = true → left = right
  | [], [], _ => rfl
  | (_, _) :: _, (_, _) :: _, equal => by
      obtain ⟨first, rest⟩ := Bool.and_eq_true_iff.mp equal
      obtain ⟨name, value⟩ := Bool.and_eq_true_iff.mp first
      rw [eq_of_beq name, eq_of_same value, eq_of_membersSame rest]

end

end Json

/-! ## Answers of a store -/

/-- The object that is stored for the one that was sent, with the uuid if it has none. -/
def NameMap.completed (uuid : String) (sent : NameMap Json) : NameMap Json :=
  if ((sent.find? uuidField).getD .null).same .null then sent.insert uuidField (.string uuid)
  else sent

/-- Whether the response shows the object. -/
def Response.shows? (response : Response) (fields : NameMap Json) : Bool :=
  response.json?.any fun value => value.same (.ofMap fields)

theorem Response.shows_of_shows? {response : Response} {fields : NameMap Json}
    (shown : response.shows? fields = true) : response.Shows fields := by
  cases spelled : response.json? with
  | none => simp [shows?, spelled] at shown
  | some value =>
      rw [shows?, spelled] at shown
      rw [Shows, spelled, Json.eq_of_same shown]

section Replay

variable {τ : Type} {answering : Answering τ}

/-- The state that the calls leave, if each of them has an answer that is recognized. -/
def replay? (next? : Call → τ → Option τ) : List Call → (String → τ) → Option (String → τ)
  | [], state => some state
  | call :: calls, state =>
      (next? call (state call.request.path)).bind fun next =>
        replay? next? calls (Function.update state call.request.path next)

/-- **Calls with recognized answers have been served.** -/
theorem served_of_replay? {next? : Call → τ → Option τ}
    (sound : ∀ call state next, next? call state = some next →
      answering call.request state call.exchange next) :
    ∀ {calls : List Call} {state last : String → τ}, replay? next? calls state = some last →
      Served answering state calls last
  | [], state, last, done => by
      obtain rfl := Option.some.inj done
      exact .nil state
  | call :: calls, state, last, goesOn => by
      obtain ⟨next, answered, rest⟩ := Option.bind_eq_some_iff.mp goesOn
      exact .cons call next (sound call _ next answered) (served_of_replay? sound rest)

end Replay

variable {assign : String → String}

theorem completes_completed (path : String) (sent : NameMap Json) :
    Completes (fun path uuid => uuid = assign path) path sent (sent.completed (assign path)) := by
  unfold NameMap.completed
  split
  · rename_i absent
    exact .inl ⟨Json.eq_of_same absent, assign path, rfl, rfl⟩
  · rename_i present
    refine .inr ⟨fun absent => present ?_, rfl⟩
    rw [absent]
    rfl

variable (assign)

/-- What a store holds after a call that it has answered. -/
def Stored.next? (call : Call) (held : Held) : Option Held :=
  match call.request, call.exchange, held with
  | ⟨.get, _, none⟩, .answered response, some fields =>
      if response.status = 200 ∧ response.shows? fields then some (some fields) else none
  | ⟨.get, _, none⟩, .answered response, none =>
      if response.status = 404 then some none else none
  | ⟨method, path, some body⟩, .answered response, _ =>
      body.members?.bind fun sent =>
        let stored := sent.completed (assign path)
        if method.isWrite ∧ body.same (.ofMap sent) ∧ response.isSuccess ∧ response.shows? stored
        then some (some stored) else none
  | _, _, _ => none

variable {assign}

theorem stored_of_next? {call : Call} {held next : Held}
    (recognized : Stored.next? assign call held = some next) :
    Stored (fun path uuid => uuid = assign path) call.request held call.exchange next := by
  obtain ⟨request, exchange⟩ := call
  simp only [Stored.next?] at recognized
  split at recognized
  · split at recognized
    · rename_i known
      obtain rfl := Option.some.inj recognized
      exact .found known.1 (Response.shows_of_shows? known.2)
    · nomatch recognized
  · split at recognized
    · rename_i unknown
      obtain rfl := Option.some.inj recognized
      exact .missing unknown
    · nomatch recognized
  · obtain ⟨sent, _, answered⟩ := Option.bind_eq_some_iff.mp recognized
    split at answered
    · rename_i known
      obtain ⟨writes, body, success, shown⟩ := known
      obtain rfl := Option.some.inj answered
      rw [Json.eq_of_same body]
      exact .written writes (completes_completed _ sent) success (Response.shows_of_shows? shown)
    · nomatch answered
  · nomatch recognized

variable (assign)

/-- What a store holds after a call that it has answered, or that was lost on the way to it. -/
def Disturbed.next? (call : Call) (held : Held) : Option Held :=
  match call.exchange with
  | .answered _ => Stored.next? assign call held
  | .lost _ => some held

variable {assign}

theorem disturbed_of_next? {call : Call} {held next : Held}
    (recognized : Disturbed.next? assign call held = some next) :
    Disturbed (fun path uuid => uuid = assign path) call.request held call.exchange next := by
  obtain ⟨request, exchange⟩ := call
  cases exchange with
  | answered response => exact .answered (stored_of_next? recognized)
  | lost cause =>
      obtain rfl := Option.some.inj recognized
      exact .before trivial

/-! ## Servers that keep a record -/

section Recorded

variable {τ : Type}

/-- The server that answers path by path and writes down all calls, the latest first. -/
def Server.recorded (respond : Request → τ → Exchange × τ) : Server ((String → τ) × List Call) :=
  fun _ request state =>
    let (exchange, next) := respond request (state.1 request.path)
    (⟨exchange, 0⟩, Function.update state.1 request.path next, ⟨request, exchange⟩ :: state.2)

/-- The record holds what was called, and the calls have been served. -/
theorem World.Records.recorded {respond : Request → τ → Exchange × τ}
    {world last : World ((String → τ) × List Call)} {events : List Event}
    (records : World.Records (.recorded respond) world events last) :
    last.server.2 = (calls events).reverse ++ world.server.2 ∧
      Served (.ofRespond respond) world.server.1 (calls events) last.server.1 := by
  induction records with
  | nothing world => exact ⟨rfl, .nil _⟩
  | logged _ _ ih => exact ih
  | called now request _ ih =>
      obtain ⟨written, served⟩ := ih
      refine ⟨?_, .cons _ _ rfl served⟩
      rw [written]
      simp [Server.recorded]
  | told notice seen _ ih =>
      cases notice with
      | event line => nomatch seen
      | moment moment => cases seen; exact ih
      | report report => cases seen; exact ih
      | begun visit => cases seen; exact ih
  | remembered _ _ _ ih => exact ih
  | recalled _ _ _ ih => exact ih
  | gaveUp _ ih => exact ih

/-- **The record of a run.** A run of the machine that comes to an end is an interleaving of the
steps of its tasks; its calls stand in the record, its visits and reports among what was told. -/
theorem Engine.execute_recorded {α : Type} (engine : Engine) (session : SessionId)
    (access : Access) (respond : Request → τ → Exchange × τ) (bound : Nat) (plan : Run → Plan α)
    (state : String → τ) {result : RunResult ((String → τ) × List Call) α} {outcome : Outcome α}
    (executed : engine.execute ⟨session, access, .recorded respond⟩ bound plan (state, []) = result)
    (ended : result.outcome = some outcome) : ∃ events,
      Stage.Steps (engine.run (⟨session, access, .recorded respond⟩ : Api _))
        (.active (plan (engine.run (⟨session, access, .recorded respond⟩ : Api _)))) events
        (.finished outcome) ∧
      Served (.ofRespond respond) state (calls events) result.server.1 ∧
      calls events = result.server.2.reverse ∧
      visits events = result.notices.filterMap Notice.visit? ∧
      reports events = result.notices.filterMap Notice.report? := by
  subst executed
  obtain ⟨events, world, steps, records, serves, tells⟩ :=
    engine.execute_interleaves ⟨session, access, .recorded respond⟩ bound plan (state, []) outcome
      ended
  obtain ⟨written, served⟩ := records.recorded
  refine ⟨events, steps, ?_, ?_, ?_, ?_⟩
  · rw [serves]
    exact served
  · rw [serves, written]
    simp
  · rw [tells, records.told_in_journal fun _ => rfl, visits, funext Event.visit?_eq]
    rfl
  · rw [tells, records.told_in_journal fun _ => rfl, reports, funext Event.report?_eq]
    rfl

end Recorded

/-! ## A store of things -/

namespace Sample

/-- The blueprint of things with parts, both of which are looked up where they are created. -/
def mirror : NameMap Json :=
  ⟨[("children", .object [("Part", .object [("createUri", .string "/parts/\x7bname\x7d"),
      ("updateUri", .string "/parts/\x7bname\x7d")])]),
    ("createUri", .string "/things/\x7bname\x7d"),
    ("updateUri", .string "/things/\x7bname\x7d")], by decide⟩

/-- A store that holds nothing but the blueprint. -/
def shelf : String → Held := fun path => if path = "/blueprints/Thing" then some mirror else none

/-- A thing with two parts. -/
def family : String :=
  "[\x7b\"name\":\"a\",\"children\":\x7b\"Part\":" ++
    "[\x7b\"name\":\"b\"\x7d,\x7b\"name\":\"c\"\x7d]\x7d\x7d]"

/-- The uuid for a path. -/
def uuidAt (path : String) : String := "id" ++ path

/-- A store answers. -/
def respond (request : Request) (held : Held) : Exchange × Held :=
  match request.method, request.body.bind Json.members?, held with
  | .get, _, some fields => (.answered ⟨200, some (Json.ofMap fields).print, none⟩, held)
  | .get, _, none => (.answered ⟨404, none, none⟩, held)
  | _, some sent, _ =>
      let stored := sent.completed (uuidAt request.path)
      (.answered ⟨200, some (Json.ofMap stored).print, none⟩, some stored)
  | _, none, _ => (.answered ⟨400, none, none⟩, held)

/-- A run of the document with the given limit on the children that are handled at once. -/
def result (respond : Request → Held → Exchange × Held) (concurrency : Nat) :
    RunResult ((String → Held) × List Call) (List Entity) :=
  (Engine.create ⟨"/blueprints", concurrency, 1000, "sample"⟩ none false).execute
    ⟨⟨0⟩, .direct, .recorded respond⟩ 60 (·.document "Thing" family) (shelf, [])

/-- What the tasks of such a run work with. -/
def run (concurrency : Nat) : Run where
  settings := ⟨"/blueprints", concurrency, 1000, "sample"⟩
  observer := none
  dry := false
  session := ⟨0⟩
  access := .direct

theorem plain_run (concurrency : Nat) : (run concurrency).Plain := ⟨rfl, rfl⟩

/-- Every blueprint on the shelf is mirrored. -/
theorem mirroredAt_shelf (uri : String) : Run.MirroredAt shelf uri := by
  intro config blueprint here reads
  unfold shelf at here
  split at here
  · obtain rfl := Option.some.inj here
    obtain rfl := Except.ok.inj reads
    exact .mk rfl (List.forall_mem_singleton.mpr (.mk rfl (List.forall_mem_nil _)))
  · nomatch here

theorem freeOfUpdates_family : Document.FreeOfUpdates family :=
  @Document.freeOfUpdates 3 family (by decide +kernel)

/-- Whether a run has succeeded, was served by the store and began entities with different
addresses. -/
def stands (result : RunResult ((String → Held) × List Call) (List Entity)) : Bool :=
  Outcome.isValue result.outcome
    && (replay? (Stored.next? uuidAt) result.server.2.reverse shelf).isSome
    && decide ((result.notices.filterMap Notice.visit?).map Visit.address?).Nodup

/-- What is known of a run that stands. -/
theorem succeeded {concurrency : Nat} (checked : stands (result respond concurrency) = true) :
    ∃ events, ∃ roots : List Entity, ∃ final last,
      Stage.Steps (run concurrency) (.active ((run concurrency).document "Thing" family)) events
        (.finished (.value roots)) ∧
      Served (Stored fun path uuid => uuid = uuidAt path) shelf (calls events) final ∧
      Served (.ofRespond respond) shelf (calls events) last ∧ Run.Spread events := by
  obtain ⟨known, different⟩ := Bool.and_eq_true_iff.mp checked
  obtain ⟨value, replayed⟩ := Bool.and_eq_true_iff.mp known
  obtain ⟨roots, ended⟩ := Outcome.value_of_isValue value
  obtain ⟨final, left⟩ := Option.isSome_iff_exists.mp replayed
  obtain ⟨events, steps, served, called, begun, _⟩ :=
    Engine.execute_recorded _ _ _ _ _ _ _ (rfl : _ = result respond concurrency) ended
  refine ⟨events, roots, final, _, steps, ?_, served, ?_⟩
  · rw [called]
    exact served_of_replay? (fun _ _ _ => stored_of_next?) left
  · rw [Run.Spread, begun]
    exact of_decide_eq_true different

/-- The store answers, but the connection is lost when the first part is to be written. -/
def flaky (request : Request) (held : Held) : Exchange × Held :=
  if request.method = .put ∧ request.path = "/parts/b" then (.lost "connection reset", held)
  else respond request held

/-- Whether a run has ended and was served by a store that loses requests. -/
def stumbles (result : RunResult ((String → Held) × List Call) (List Entity)) : Bool :=
  result.outcome.isSome
    && (replay? (Disturbed.next? uuidAt) result.server.2.reverse shelf).isSome

/-- What is known of a run that stumbles. -/
theorem interrupted {concurrency : Nat} (checked : stumbles (result flaky concurrency) = true) :
    ∃ events, ∃ outcome : Outcome (List Entity), ∃ left,
      Stage.Steps (run concurrency) (.active ((run concurrency).document "Thing" family)) events
        (.finished outcome) ∧
      Served (Disturbed fun path uuid => uuid = uuidAt path) shelf (calls events) left := by
  obtain ⟨through, replayed⟩ := Bool.and_eq_true_iff.mp checked
  obtain ⟨outcome, ended⟩ := Option.isSome_iff_exists.mp through
  obtain ⟨left, served⟩ := Option.isSome_iff_exists.mp replayed
  obtain ⟨events, steps, _, called, _⟩ :=
    Engine.execute_recorded _ _ _ _ _ _ _ (rfl : _ = result flaky concurrency) ended
  refine ⟨events, outcome, left, steps, ?_⟩
  rw [called]
  exact served_of_replay? (fun _ _ _ => disturbed_of_next?) served

theorem stands_one : stands (result respond 1) = true := by decide +kernel

end Sample

end DesiredState
