import DesiredState.Proofs.Schedule.Memory
import Mathlib.Data.Finset.Card
import Mathlib.Data.List.Dedup

/-!
# The registry and its history

Any number of tasks may use one registry. Each operation is done at once, so whatever the tasks do
is one list of operations, in some order. What is known then can be told from this list alone, by a
scan for what was stored last (`find?_performed`).

**What counts as stored.** A state that is inserted is stored in any case, one that is found or
inserted only if no state of its key was stored since everything was forgotten. So the scan keeps a
log of the states that were stored (`stored`), and whether an operation adds to the log depends on
what is in it by then. The log may have several states of one key; the registry has the latest one
of each.

**Sessions.** The session is a part of the key. So what a session reads is settled by its own
operations and by those that forget everything (`answer_filter_concerns`).
-/

set_option autoImplicit false

namespace DesiredState.Registry

/-! ## Operations -/

/-- What a task may do with a registry. -/
inductive Operation
  /-- A state is stored and replaces the earlier one of its key. -/
  | insert (state : KnownState)
  /-- A state is stored unless there is one of its key; what is there then is the answer. -/
  | findOrInsert (state : KnownState)
  /-- What is stored under a key is the answer. -/
  | find (key : StateKey)
  /-- Everything is forgotten. -/
  | clear

/-- What an operation answers, and the registry that it leaves. -/
def perform (registry : Registry) : Operation → Option Entity × Registry
  | .insert state => (none, registry.insert state.session state.entity)
  | .findOrInsert state =>
      let (known, next) := registry.findOrInsert state.session state.entity
      (some known, next)
  | .find key => (registry.find? key, registry)
  | .clear => (none, .empty)

/-- What an operation answers. -/
def answer (registry : Registry) (operation : Operation) : Option Entity :=
  (registry.perform operation).1

/-- The registry after the operations of a history, from one that knows nothing. -/
def performed (history : List Operation) : Registry :=
  history.foldl (fun registry operation => (registry.perform operation).2) .empty

@[simp] theorem performed_concat (history : List Operation) (operation : Operation) :
    performed (history ++ [operation]) = ((performed history).perform operation).2 := by
  rw [performed, performed, List.foldl_append]
  rfl

/-! ## The log of a history -/

/-- The latest entity of a key in a log, which begins with the latest state. -/
def latest (key : StateKey) (log : List KnownState) : Option Entity :=
  (log.find? (·.key == key)).map (·.entity)

/-- The state that an operation stores, given the log of what was stored by then. -/
def Operation.store? (log : List KnownState) : Operation → Option KnownState
  | .insert state => some state
  | .findOrInsert state => if log.any (·.key == state.key) then none else some state
  | .find _ => none
  | .clear => none

/-- The log after an operation. -/
def record (log : List KnownState) : Operation → List KnownState
  | .clear => []
  | operation => (operation.store? log).toList ++ log

/-- What the operations of a history have stored since everything was forgotten, the latest state
first. -/
def stored (history : List Operation) : List KnownState := history.foldl record []

@[simp] theorem stored_concat (history : List Operation) (operation : Operation) :
    stored (history ++ [operation]) = record (stored history) operation := List.foldl_append

/-- None of the operations that come after others forgets everything or stores a state of the
key. -/
def Keeps (key : StateKey) : List Operation → List Operation → Prop
  | _, [] => True
  | before, operation :: later =>
      operation ≠ .clear ∧
      (∀ state, operation.store? (stored before) = some state → state.key ≠ key) ∧
      Keeps key (before ++ [operation]) later

/-- An entity is the one that was stored last under a key: an operation of the history has stored
it, and the later ones have kept it. -/
def StoredLast (key : StateKey) (entity : Entity) (history : List Operation) : Prop :=
  ∃ before operation later state, history = before ++ operation :: later ∧
    operation.store? (stored before) = some state ∧ state.key = key ∧ state.entity = entity ∧
    Keeps key (before ++ [operation]) later

/-! ## The latest of a log -/

variable {key : StateKey} {log : List KnownState}

theorem latest_cons (state : KnownState) :
    latest key (state :: log) = if state.key = key then some state.entity else latest key log := by
  unfold latest
  by_cases here : state.key = key
  · rw [List.find?_cons_of_pos (by simpa using here), if_pos here]
    rfl
  · rw [List.find?_cons_of_neg (by simpa using here), if_neg here]

/-- There is a latest state of a key if there is any. -/
theorem isSome_latest : (latest key log).isSome = log.any (·.key == key) := by
  rw [latest, Option.isSome_map, Bool.eq_iff_iff, List.find?_isSome, List.any_eq_true]

/-- What is stored under a key has this type and this identity. -/
theorem key_of_latest {entity : Entity} (found : latest key log = some entity) :
    KnownState.key ⟨key.session, entity⟩ = key := by
  obtain ⟨state, here, rfl⟩ := Option.map_eq_some_iff.mp found
  have same : state.key = key := by simpa using List.find?_some here
  exact same ▸ rfl

theorem record_eq {operation : Operation} (remembers : operation ≠ .clear) :
    record log operation = (operation.store? log).toList ++ log := by
  cases operation with
  | clear => exact absurd rfl remembers
  | insert state => rfl
  | findOrInsert state => rfl
  | find key => rfl

theorem latest_record_of_stores {operation : Operation} {state : KnownState}
    (stores : operation.store? log = some state) :
    latest key (record log operation)
      = if state.key = key then some state.entity else latest key log := by
  have remembers : operation ≠ .clear := by
    rintro rfl
    cases stores
  rw [record_eq remembers, stores]
  exact latest_cons state

/-- An operation that stores nothing under a key leaves what is there, unless it forgets
everything. -/
theorem latest_record_of_apart {operation : Operation} (remembers : operation ≠ .clear)
    (apart : ∀ state, operation.store? log = some state → state.key ≠ key) :
    latest key (record log operation) = latest key log := by
  cases stores : operation.store? log with
  | none =>
      rw [record_eq remembers, stores]
      rfl
  | some state => rw [latest_record_of_stores stores, if_neg (apart state stores)]

/-! ## Scanning a history -/

theorem latest_of_keeps : ∀ {later before : List Operation}, Keeps key before later →
    latest key (stored (before ++ later)) = latest key (stored before)
  | [], before, _ => by rw [List.append_nil]
  | operation :: later, before, ⟨remembers, apart, rest⟩ => by
      rw [List.append_cons, latest_of_keeps rest, stored_concat,
        latest_record_of_apart remembers apart]

theorem keeps_concat {operation : Operation} (remembers : operation ≠ .clear) :
    ∀ {later before : List Operation}, Keeps key before later →
      (∀ state, operation.store? (stored (before ++ later)) = some state → state.key ≠ key) →
        Keeps key before (later ++ [operation])
  | [], before, _, apart => ⟨remembers, List.append_nil before ▸ apart, trivial⟩
  | next :: later, before, ⟨nextRemembers, nextApart, rest⟩, apart =>
      ⟨nextRemembers, nextApart,
        keeps_concat remembers rest (List.append_cons before next later ▸ apart)⟩

/-- **The latest state of a key in the log is the one that was stored last.** -/
theorem latest_stored_iff {entity : Entity} {history : List Operation} :
    latest key (stored history) = some entity ↔ StoredLast key entity history := by
  constructor
  · induction history using List.reverseRecOn with
    | nil => exact fun found => nomatch found
    | append_singleton history operation ih =>
        rw [stored_concat]
        intro found
        by_cases remembers : operation = .clear
        · subst remembers
          cases found
        by_cases here : ∃ state, operation.store? (stored history) = some state ∧ state.key = key
        · obtain ⟨state, stores, same⟩ := here
          rw [latest_record_of_stores stores, if_pos same] at found
          exact ⟨history, operation, [], state, rfl, stores, same, Option.some.inj found, trivial⟩
        · have apart : ∀ state, operation.store? (stored history) = some state → state.key ≠ key :=
            fun state stores same => here ⟨state, stores, same⟩
          rw [latest_record_of_apart remembers apart] at found
          obtain ⟨before, storing, later, state, rfl, stores, same, it, keeps⟩ := ih found
          refine ⟨before, storing, later ++ [operation], state, ?_, stores, same, it,
            keeps_concat remembers keeps ?_⟩
          · rw [List.append_assoc, List.cons_append]
          · rwa [← List.append_cons]
  · rintro ⟨before, operation, later, state, rfl, stores, same, rfl, keeps⟩
    rw [List.append_cons, latest_of_keeps keeps, stored_concat, latest_record_of_stores stores,
      if_pos same]

/-! ## What a registry knows -/

/-- An operation leaves a registry that knows the log what it knows of the log after it. -/
theorem find?_perform {registry : Registry} (knows : ∀ key, registry.find? key = latest key log)
    (operation : Operation) (key : StateKey) :
    (registry.perform operation).2.find? key = latest key (record log operation) := by
  cases operation with
  | insert state =>
      refine (find?_insert registry state.session state.entity key).trans ?_
      rw [latest_record_of_stores rfl, knows]
      exact if_congr eq_comm rfl rfl
  | findOrInsert state =>
      refine (find?_findOrInsert registry state.session state.entity key).trans ?_
      -- whether a state is stored depends on whether one of its key is in the log
      rw [findOrInsert_fst, knows, knows]
      cases there : latest state.key log with
      | none =>
          have stores : (Operation.findOrInsert state).store? log = some state :=
            if_neg (by rw [← isSome_latest, there]; exact Bool.false_ne_true)
          rw [latest_record_of_stores stores]
          rfl
      | some known =>
          have stores : (Operation.findOrInsert state).store? log = none :=
            if_pos (by rw [← isSome_latest, there]; rfl)
          have unchanged : record log (.findOrInsert state) = log :=
            congrArg (·.toList ++ log) stores
          rw [unchanged]
          by_cases here : KnownState.key state = key
          · subst here
            rw [there]
            exact if_pos rfl
          · exact if_neg here
  | find key => exact knows _
  | clear => rfl

/-- **Under each key a registry knows what was stored last.** -/
theorem find?_performed (history : List Operation) :
    ∀ key, (performed history).find? key = latest key (stored history) := by
  induction history using List.reverseRecOn with
  | nil => exact fun _ => rfl
  | append_singleton history operation ih =>
      rw [performed_concat, stored_concat]
      exact find?_perform ih operation

/-- The answer is what is known, or the entity itself. -/
theorem answer_findOrInsert (registry : Registry) (state : KnownState) :
    registry.answer (.findOrInsert state)
      = some ((registry.find? state.key).getD state.entity) :=
  congrArg some (findOrInsert_fst registry state.session state.entity)

/-- What is found or inserted is what is stored then. -/
theorem find?_perform_findOrInsert (registry : Registry) (state : KnownState) :
    (registry.perform (.findOrInsert state)).2.find? state.key
      = registry.answer (.findOrInsert state) :=
  (find?_findOrInsert registry state.session state.entity state.key).trans (if_pos rfl)

/-! ## The number of states -/

theorem any_iff_mem {key : StateKey} {log : List KnownState} :
    log.any (·.key == key) = true ↔ key ∈ log.map KnownState.key := by
  simp only [List.any_eq_true, List.mem_map, beq_iff_eq]

/-- **A registry has one state of each key that is in the log.** -/
theorem size_performed (history : List Operation) :
    (performed history).size = ((stored history).map KnownState.key).toFinset.card := by
  have distinct : ((performed history).states.map KnownState.key).Nodup :=
    List.pairwise_map.mpr (performed history).distinct
  have same : ((performed history).states.map KnownState.key).toFinset
      = ((stored history).map KnownState.key).toFinset := by
    ext key
    rw [List.mem_toFinset, List.mem_toFinset, ← any_iff_mem, ← any_iff_mem, ← isSome_latest,
      ← isSome_latest, ← find?_performed]
    rfl
  rw [← same, List.toFinset_card_of_nodup distinct, List.length_map]
  rfl

/-! ## Sessions -/

/-- Whether an operation concerns a session: it is one of this session, or everything is
forgotten. -/
def Operation.concerns (session : SessionId) : Operation → Bool
  | .insert state => state.session == session
  | .findOrInsert state => state.session == session
  | .find key => key.session == session
  | .clear => true

/-- The log of a session. -/
def ofSession (session : SessionId) (log : List KnownState) : List KnownState :=
  log.filter (·.session == session)

section Session

variable {session : SessionId}

/-- The latest state of a key is in the log of the key's session. -/
theorem latest_ofSession (own : key.session = session) :
    latest key (ofSession session log) = latest key log := by
  rw [latest, latest, ofSession, List.find?_filter]
  congr 2
  funext state
  by_cases here : state.key = key
  · have same : state.session = session := own ▸ congrArg StateKey.session here
    simp [here, same]
  · simp [here]

/-- What an operation of a session stores depends on the log of this session only. -/
theorem store?_ofSession {operation : Operation} (concerns : operation.concerns session = true) :
    operation.store? (ofSession session log) = operation.store? log := by
  cases operation with
  | insert state => rfl
  | findOrInsert state =>
      have own : state.key.session = session := beq_iff_eq.mp concerns
      rw [Operation.store?, Operation.store?, ← isSome_latest, ← isSome_latest,
        latest_ofSession own]
  | find key => rfl
  | clear => rfl

/-- An operation stores a state of a session that it concerns. -/
theorem concerns_of_stores {operation : Operation} {state : KnownState}
    (stores : operation.store? log = some state) :
    operation.concerns session = (state.session == session) := by
  cases operation with
  | insert own =>
      cases stores
      rfl
  | findOrInsert own =>
      obtain ⟨-, same⟩ := Option.ite_none_left_eq_some.mp stores
      cases same
      rfl
  | find key => cases stores
  | clear => cases stores

/-- The log of a session after an operation: what the operation does to this log, if it concerns the
session, and else the log from before. -/
theorem ofSession_record (operation : Operation) :
    ofSession session (record log operation)
      = if operation.concerns session then record (ofSession session log) operation
        else ofSession session log := by
  by_cases remembers : operation = .clear
  · rw [remembers]
    rfl
  rw [record_eq remembers, ofSession, List.filter_append]
  cases concerns : operation.concerns session with
  | true =>
      rw [if_pos rfl, record_eq remembers, store?_ofSession concerns]
      cases stores : operation.store? log with
      | none => rfl
      | some state =>
          exact congrArg (· ++ _)
            (List.filter_cons_of_pos (concerns_of_stores stores ▸ concerns))
  | false =>
      rw [if_neg Bool.false_ne_true]
      cases stores : operation.store? log with
      | none => rfl
      | some state =>
          have foreign := concerns_of_stores stores ▸ concerns
          exact congrArg (· ++ _) (List.filter_cons_of_neg (by simpa using foreign))

/-- **The log of a session is the log of the operations that concern it.** -/
theorem stored_filter_concerns (session : SessionId) (history : List Operation) :
    stored (history.filter (·.concerns session)) = ofSession session (stored history) := by
  induction history using List.reverseRecOn with
  | nil => rfl
  | append_singleton history operation ih =>
      rw [List.filter_append, stored_concat, ofSession_record, ← ih]
      cases concerns : operation.concerns session with
      | true => rw [List.filter_cons_of_pos concerns, List.filter_nil, stored_concat, if_pos rfl]
      | false =>
          rw [List.filter_cons_of_neg (by simpa using concerns), List.filter_nil, List.append_nil,
            if_neg Bool.false_ne_true]

end Session

/-- **What a session is answered depends only on the operations that concern it.** -/
theorem answer_filter_concerns {session : SessionId} {operation : Operation}
    (concerns : operation.concerns session = true) (history : List Operation) :
    (performed (history.filter (·.concerns session))).answer operation
      = (performed history).answer operation := by
  have same : ∀ key : StateKey, key.session = session →
      (performed (history.filter (·.concerns session))).find? key
        = (performed history).find? key := by
    intro key own
    rw [find?_performed, find?_performed, stored_filter_concerns, latest_ofSession own]
  cases operation with
  | insert state => rfl
  | findOrInsert state =>
      have own : state.key.session = session := beq_iff_eq.mp concerns
      rw [answer_findOrInsert, answer_findOrInsert, same state.key own]
  | find key => exact same key (beq_iff_eq.mp concerns)
  | clear => rfl

/-! ## The law of a history -/

/-- **A registry is a map in which the last write counts, session by session.** After any history, a
key is answered with the entity that was stored last under it, and what is found or inserted is what
is stored last after it; each entity is found under its own type and identity; there is one state of
each key in the log; and the operations that do not concern a session may be left out without
changing what this session is answered. -/
theorem follows_history (history : List Operation) :
    (∀ key entity, (performed history).answer (.find key) = some entity ↔
      StoredLast key entity history) ∧
    (∀ state, ∃ known, (performed history).answer (.findOrInsert state) = some known ∧
      StoredLast state.key known (history ++ [.findOrInsert state])) ∧
    (∀ key entity, (performed history).find? key = some entity →
      entity.type = key.type ∧ entity.identity = key.identity) ∧
    (performed history).size = ((stored history).map KnownState.key).toFinset.card ∧
    ∀ (session : SessionId) (operation : Operation), operation.concerns session = true →
      (performed (history.filter (·.concerns session))).answer operation
        = (performed history).answer operation := by
  refine ⟨fun key entity => ?_, fun state => ?_, fun key entity found => ?_,
    size_performed history,
    fun session operation concerns => answer_filter_concerns concerns history⟩
  · rw [← latest_stored_iff, ← find?_performed]
    rfl
  · refine ⟨_, rfl, latest_stored_iff.mp ?_⟩
    rw [← find?_performed, performed_concat, find?_perform_findOrInsert]
    rfl
  · have same := key_of_latest ((find?_performed history key).symm.trans found)
    exact ⟨congrArg StateKey.type same, congrArg StateKey.identity same⟩

end DesiredState.Registry

namespace DesiredState.Sample

open Registry

/-- An account of the given session with the given uuid and name. -/
def heldAccount (session : Nat) (uuid name : Json) : KnownState :=
  ⟨⟨BitVec.ofNat 128 session⟩, .ofRemote (.object [("uuid", uuid), ("name", name)]) "org.Account"⟩

/-- Two sessions take turns. The uuid of one account is the name of another one, which has a number
for a uuid; a third one has neither. -/
def turns : List Operation :=
  [.insert (heldAccount 1 (.string "old") .null), .clear,
    .insert (heldAccount 1 (.string "u") (.string "first")),
    .findOrInsert (heldAccount 2 (.string "u") .null),
    .findOrInsert (heldAccount 1 (.number (.integer 7)) (.string "u")),
    .insert (heldAccount 2 .null (.string "u")), .insert (heldAccount 1 .null .null)]

/-- The account with the number is found under its name, where the first one is; and the second
session is answered as if it were alone. -/
theorem turns_follow :
    StoredLast ⟨⟨1#128⟩, "Account", "u"⟩ (heldAccount 1 (.string "u") (.string "first")).entity
      turns ∧
    (performed turns).size = 3 ∧
    (performed (turns.filter (·.concerns ⟨2#128⟩))).answer (.find ⟨⟨2#128⟩, "Account", "u"⟩)
      = (performed turns).answer (.find ⟨⟨2#128⟩, "Account", "u"⟩) := by
  obtain ⟨found, -, -, size, sessions⟩ := follows_history turns
  refine ⟨(found _ _).mp ?_, size.trans ?_, sessions _ _ ?_⟩
  · rfl
  · decide +kernel
  · decide

end DesiredState.Sample
