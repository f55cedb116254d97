import DesiredState.Proofs.Run.Record

/-!
# What a run remembers

All that a run does to its registry shows in its events: a state is remembered, and one that is
recalled and unknown is put there. So the registry after some events can be computed from the one
before them (`Registry.after`), and what it holds under a key is what the last event about this key
has left (`find?_after`).

**Any answer, and the right one.** The steps of tasks leave open which state is recalled. The events
of a run of the engine are those in which each recalled state is the one that the registry gave
(`Registry.Gives`, `World.Records.gives`).
-/

set_option autoImplicit false

namespace DesiredState

/-- The state that an event leaves under a key, if it is about this key. -/
def Event.state? (key : StateKey) : Event → Option Entity
  | .remembered session entity =>
      if KnownState.key ⟨session, entity⟩ = key then some entity else none
  | .recalled session entity known =>
      if KnownState.key ⟨session, entity⟩ = key then some known else none
  | _ => none

/-- The state that the events leave under a key, if one of them is about this key. -/
def lastKnown (key : StateKey) (events : List Event) : Option Entity :=
  events.reverse.findSome? (Event.state? key)

namespace lastKnown

variable {key : StateKey}

theorem cons (event : Event) (events : List Event) :
    lastKnown key (event :: events) = (lastKnown key events).or (event.state? key) := by
  rw [lastKnown, List.reverse_cons, List.findSome?_append, List.findSome?_singleton]
  rfl

/-- A state that was left under a key was remembered or recalled. -/
theorem origin {events : List Event} {known : Entity} (left : lastKnown key events = some known) :
    ∃ session entity, KnownState.key ⟨session, entity⟩ = key ∧
      (.remembered session entity ∈ events ∧ known = entity ∨
        .recalled session entity known ∈ events) := by
  obtain ⟨event, member, here⟩ := List.exists_of_findSome?_eq_some left
  have inside := List.mem_reverse.mp member
  cases event with
  | remembered session entity =>
      obtain ⟨same, left⟩ := Option.ite_none_right_eq_some.mp here
      exact ⟨session, entity, same, .inl ⟨inside, (Option.some.inj left).symm⟩⟩
  | recalled session entity recalled =>
      obtain ⟨same, left⟩ := Option.ite_none_right_eq_some.mp here
      obtain rfl := Option.some.inj left
      exact ⟨session, entity, same, .inr inside⟩
  | called call => nomatch here
  | told notice => nomatch here
  | gaveUp => nomatch here

end lastKnown

namespace Registry

variable {registry : Registry}

/-- What is recalled is what is known, or the entity itself. -/
theorem findOrInsert_fst (registry : Registry) (session : SessionId) (entity : Entity) :
    (registry.findOrInsert session entity).1
      = (registry.find? (KnownState.key ⟨session, entity⟩)).getD entity := by
  unfold findOrInsert
  split
  · rename_i known found
    rw [found]
    rfl
  · rename_i unknown
    rw [unknown]
    rfl

/-- What was recalled is known from then on. -/
theorem find?_findOrInsert (registry : Registry) (session : SessionId) (entity : Entity)
    (key : StateKey) :
    (registry.findOrInsert session entity).2.find? key =
      if KnownState.key ⟨session, entity⟩ = key then
        some (registry.findOrInsert session entity).1
      else registry.find? key := by
  unfold findOrInsert
  split
  · rename_i known found
    by_cases here : KnownState.key ⟨session, entity⟩ = key
    · rw [if_pos here, ← here]
      exact found
    · rw [if_neg here]
  · rw [find?_insert]
    by_cases here : KnownState.key ⟨session, entity⟩ = key
    · rw [if_pos here, if_pos here.symm]
    · rw [if_neg here, if_neg (Ne.symm here)]

/-- The registry after an event. -/
def follow (registry : Registry) : Event → Registry
  | .remembered session entity => registry.insert session entity
  | .recalled session entity _ => (registry.findOrInsert session entity).2
  | _ => registry

/-- The registry after events. -/
def after (registry : Registry) (events : List Event) : Registry := events.foldl follow registry

@[simp] theorem after_nil (registry : Registry) : registry.after [] = registry := rfl

@[simp] theorem after_cons (registry : Registry) (event : Event) (events : List Event) :
    registry.after (event :: events) = (registry.follow event).after events := rfl

@[simp] theorem after_append (registry : Registry) (first second : List Event) :
    registry.after (first ++ second) = (registry.after first).after second := List.foldl_append

/-- If an event recalls a state, it is the one that the registry gives. -/
def Answers (registry : Registry) : Event → Prop
  | .recalled session entity known => known = (registry.findOrInsert session entity).1
  | _ => True

/-- Whatever the events recall is what the registry gives, starting from the given one. -/
def Gives : Registry → List Event → Prop
  | _, [] => True
  | registry, event :: events => registry.Answers event ∧ (registry.follow event).Gives events

theorem gives_append {second : List Event} : ∀ {first : List Event} {registry : Registry},
    registry.Gives (first ++ second) ↔ registry.Gives first ∧ (registry.after first).Gives second
  | [], _ => by simp [Gives]
  | event :: first, registry => by
      rw [List.cons_append, Gives, Gives, gives_append, after_cons, and_assoc]

/-- What an event leaves under a key. -/
theorem find?_follow {event : Event} (answers : registry.Answers event) (key : StateKey) :
    (registry.follow event).find? key = (event.state? key).or (registry.find? key) := by
  cases event with
  | remembered session entity =>
      rw [follow, find?_insert, Event.state?]
      by_cases here : KnownState.key ⟨session, entity⟩ = key
      · rw [if_pos here, if_pos here.symm, Option.some_or]
      · rw [if_neg here, if_neg (Ne.symm here), Option.none_or]
  | recalled session entity known =>
      have given : known = (registry.findOrInsert session entity).1 := answers
      rw [follow, find?_findOrInsert, Event.state?, given]
      by_cases here : KnownState.key ⟨session, entity⟩ = key
      · rw [if_pos here, if_pos here, Option.some_or]
      · rw [if_neg here, if_neg here, Option.none_or]
  | called call => rfl
  | told notice => rfl
  | gaveUp => rfl

/-- **Under each key the registry holds what the last event about it has left.** -/
theorem find?_after (key : StateKey) : ∀ {events : List Event} {registry : Registry},
    registry.Gives events →
      (registry.after events).find? key = (lastKnown key events).or (registry.find? key)
  | [], _, _ => rfl
  | event :: events, registry, gives => by
      rw [after_cons, find?_after key gives.2, find?_follow gives.1, lastKnown.cons,
        Option.or_assoc]

/-- What is recalled after some events is what they have left under its key. -/
theorem Gives.recalled {before later : List Event} {session : SessionId} {entity known : Entity}
    (gives : registry.Gives (before ++ .recalled session entity known :: later)) :
    known = ((registry.after before).find? (KnownState.key ⟨session, entity⟩)).getD entity := by
  obtain ⟨_, answers, _⟩ := gives_append.mp gives
  rw [← findOrInsert_fst]
  exact answers

/-- Where nothing is recalled, any registry gives it. -/
theorem gives_of_none : ∀ {events : List Event} {registry : Registry},
    (∀ session entity known, Event.recalled session entity known ∉ events) → registry.Gives events
  | [], _, _ => trivial
  | event :: events, registry, never => by
      refine ⟨?_, gives_of_none fun session entity known member =>
        never session entity known (List.mem_cons_of_mem _ member)⟩
      cases event with
      | recalled session entity known =>
          exact absurd List.mem_cons_self (never session entity known)
      | remembered session entity => exact trivial
      | called call => exact trivial
      | told notice => exact trivial
      | gaveUp => exact trivial

end Registry

/-! ## Runs of an engine -/

/-- **The events of the machine account for its registry.** -/
theorem World.Records.gives {σ : Type} {server : Server σ} {world last : World σ}
    {events : List Event} (records : World.Records server world events last) :
    world.registry.Gives events ∧ last.registry = world.registry.after events := by
  induction records with
  | nothing world => exact ⟨trivial, rfl⟩
  | logged _ _ ih => exact ih
  | called _ _ _ ih => exact ⟨⟨trivial, ih.1⟩, ih.2⟩
  | told notice seen _ ih =>
      cases notice with
      | event line => nomatch seen
      | moment moment => cases seen; exact ⟨⟨trivial, ih.1⟩, ih.2⟩
      | report report => cases seen; exact ⟨⟨trivial, ih.1⟩, ih.2⟩
      | begun visit => cases seen; exact ⟨⟨trivial, ih.1⟩, ih.2⟩
  | remembered _ _ _ ih => exact ⟨⟨trivial, ih.1⟩, ih.2⟩
  | recalled _ _ _ ih => exact ⟨⟨rfl, ih.1⟩, ih.2⟩
  | gaveUp _ ih => exact ⟨⟨trivial, ih.1⟩, ih.2⟩

/-- A run of an engine that comes to an end recalls what its registry gives, and leaves the registry
that its events account for. -/
theorem Engine.execute_remembers {τ α : Type} (engine : Engine) (session : SessionId)
    (access : Access) (respond : Request → τ → Exchange × τ) (bound : Nat) (plan : Run → Plan α)
    (state : String → τ) {result : RunResult ((String → τ) × List Call) α} {outcome : Outcome α}
    (executed : engine.execute ⟨session, access, .recorded respond⟩ bound plan (state, []) = result)
    (ended : result.outcome = some outcome) : ∃ events,
      Stage.Steps (engine.run (⟨session, access, .recorded respond⟩ : Api _))
        (.active (plan (engine.run (⟨session, access, .recorded respond⟩ : Api _)))) events
        (.finished outcome) ∧
      Served (.ofRespond respond) state (calls events) result.server.1 ∧
      calls events = result.server.2.reverse ∧
      visits events = result.notices.filterMap Notice.visit? ∧ engine.registry.Gives events ∧
      result.engine.registry = engine.registry.after events := by
  subst executed
  obtain ⟨events, world, steps, records, executed⟩ :=
    engine.execute_accounted ⟨session, access, .recorded respond⟩ bound plan (state, []) outcome
      ended
  obtain ⟨gives, left⟩ := records.gives
  obtain ⟨written, served⟩ := records.recorded
  rw [executed]
  refine ⟨events, steps, served, ?_, ?_, gives, left⟩
  · rw [written]
    simp
  · rw [records.told_in_journal fun _ => rfl, visits, funext Event.visit?_eq]
    rfl

end DesiredState
