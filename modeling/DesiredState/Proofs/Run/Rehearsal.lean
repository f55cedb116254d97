import DesiredState.Proofs.Run.Retelling

/-!
# What a rehearsal leaves behind

A dry run asks the API for nothing but what it reads, but what it supposes to be in place it puts
into the registry, and engines may share a registry. So a run may recall a state that is none but in
a rehearsal. This matters only where the run updates an entity that it has found under a key under
which the rehearsal has left something, and only if the entity comes out differently when it is laid
over that state (`Registry.Indifferent`). In all other runs nothing tells whether there has been a
rehearsal: the requests are the same.

**Why the condition is needed.** If a rehearsal supposes that a thing has another kind, then a later
update of the thing that says nothing on its kind is sent with the supposed kind. If the update is
the one that was rehearsed, then the registry holds another state too, but nothing comes out
differently, since what the model gives is laid over what it has given before. Both are shown at the
end.
-/

set_option autoImplicit false

namespace DesiredState

namespace Task

variable {run : Run} {task : Task} {events : List Event} {fate : Fate}

/-- The events are those of a run of the task, which has come as far as its fate says. -/
inductive Runs (run : Run) : Task → List Event → Fate → Prop
  | catalog {documents : List (String × String)} {events : List Event}
      {stage : Stage ChildTask (List (String × String))}
      (steps : Stage.Steps run (.active (run.models documents)) events stage) :
      Runs run (.catalog documents) events (Fate.of stage.outcome?)
  | document {type text : String} {events : List Event} {stage : Stage ChildTask (List Entity)}
      (steps : Stage.Steps run (.active (run.document type text)) events stage) :
      Runs run (.document type text) events (Fate.of stage.outcome?)
  | entity {visit : Visit} {events : List Event} {stage : Stage ChildTask (Option Entity)}
      (steps : Stage.Steps run
        (.active (run.reconcile visit.blueprint visit.lineage visit.desired)) events stage) :
      Runs run (.entity visit) events (Fate.of stage.outcome?)

theorem Runs.accounts (runs : task.Runs run events fate) :
    Run.Accounts run task events fate := by
  cases runs with
  | catalog steps =>
      obtain ⟨course, takes, orders⟩ := steps.takes
      exact Run.accounts_of_models takes orders
  | document steps =>
      obtain ⟨course, takes, orders⟩ := steps.takes
      exact Run.accounts_of_document takes orders
  | entity steps =>
      obtain ⟨course, takes, orders⟩ := steps.takes
      exact Run.accounts_of_reconcile takes orders

/-- A run of a task is told again with another registry, if both recall states over which the
entities that have been found lie the same. -/
theorem Runs.retell {registry other : Registry} (runs : task.Runs run events fate)
    (gives : registry.Gives events)
    (agree : ∀ before session entity known after,
      events = before ++ .recalled session entity known :: after →
      ∀ visit : Visit, visit.FoundIn before entity →
        visit.desired.laidOver ((registry.after before).findOrInsert session entity).1
          = visit.desired.laidOver ((other.after before).findOrInsert session entity).1) :
    task.Runs run (other.retell events) fate := by
  cases runs with
  | catalog steps => exact .catalog (steps.retell (.active (Run.overlays_models _ [])) gives agree)
  | document steps =>
      exact .document (steps.retell (.active (Run.overlays_document _ _ [])) gives agree)
  | entity steps => exact .entity (steps.retell (.active (Run.overlays_reconcile _ [])) gives agree)

end Task

/-- What the rehearsed events have left in the registry does not matter to the events. Wherever they
recall a state under a key that the rehearsal was about, each entity that is to be updated and has
been found in this state comes out the same when it is laid over what the registry holds then
without the rehearsal, and with it. -/
def Registry.Indifferent (registry : Registry) (rehearsed events : List Event) : Prop :=
  ∀ before session entity known after,
    events = before ++ .recalled session entity known :: after →
    lastKnown (KnownState.key ⟨session, entity⟩) rehearsed ≠ none →
    ∀ visit : Visit, visit.FoundIn before entity →
      visit.desired.laidOver ((registry.after before).findOrInsert session entity).1
        = visit.desired.laidOver
          (((registry.after rehearsed).after before).findOrInsert session entity).1

namespace Registry

/-- Under a key that the rehearsal was not about, both registries hold the same. -/
theorem Indifferent.agree {registry : Registry} {rehearsed events : List Event}
    (indifferent : registry.Indifferent rehearsed events) {before after : List Event}
    {session : SessionId} {entity known : Entity}
    (split : events = before ++ .recalled session entity known :: after) {visit : Visit}
    (found : visit.FoundIn before entity) :
    visit.desired.laidOver ((registry.after before).findOrInsert session entity).1
      = visit.desired.laidOver
        (((registry.after rehearsed).after before).findOrInsert session entity).1 := by
  by_cases untouched : lastKnown (KnownState.key ⟨session, entity⟩) rehearsed = none
  · have same : (registry.after rehearsed).find? (KnownState.key ⟨session, entity⟩)
        = registry.find? (KnownState.key ⟨session, entity⟩) := find?_after_of_none untouched
    rw [findOrInsert_fst, findOrInsert_fst, find?_after_congr same]
  · exact indifferent before session entity known after split untouched visit found

end Registry

namespace Run

/-- **A rehearsal leaves no trace in a later run.** A dry run asks for nothing but what it reads. A
run that comes after it, and to which it does not matter what the rehearsal has left in the
registry, has the same requests and answers as a run without the rehearsal: whatever is done after
it may be done without it, and whatever is done without it may be done after it. -/
theorem rehearsal_leaves_no_trace {rehearsal run : Run} (dry : rehearsal.dry = true) {task : Task}
    (ordered : task.Ordered) {rehearsed : List Event} {reached : Fate}
    (rehearses : task.Runs rehearsal rehearsed reached) (registry : Registry) :
    (∀ call ∈ calls rehearsed, call.request.method = .get ∧ call.request.body = none) ∧
    ∀ (work : Task) (events : List Event) (fate : Fate), work.Runs run events fate →
      registry.Indifferent rehearsed events →
      ((registry.after rehearsed).Gives events → ∃ others, work.Runs run others fate ∧
        registry.Gives others ∧ calls others = calls events) ∧
      (registry.Gives events → ∃ others, work.Runs run others fate ∧
        (registry.after rehearsed).Gives others ∧ calls others = calls events) := by
  refine ⟨(rehearses.accounts.onlyReads dry ordered).reads, ?_⟩
  intro work events fate runs indifferent
  constructor
  · intro gives
    refine ⟨_, runs.retell gives ?_, Registry.gives_retell, Registry.calls_retell _ events⟩
    intro before session entity known after split visit found
    exact (indifferent.agree split found).symm
  · intro gives
    refine ⟨_, runs.retell gives ?_, Registry.gives_retell, Registry.calls_retell _ events⟩
    intro before session entity known after split visit found
    exact indifferent.agree split found

end Run

/-! ## A thing that was rehearsed -/

namespace Sample

/-- The rehearsal of the thing that is to be updated. -/
def previewed : RunResult ((String → Unit) × List Call) (Option Entity) :=
  (Engine.create ⟨"/blueprints", 2, 1000, "sample"⟩ none true).execute
    ⟨⟨0⟩, .direct, .recorded holding⟩ 20
    (·.reconcile renewable.blueprint renewable.lineage renewable.desired) (fun _ => (), [])

/-- The handling of the thing after its rehearsal. -/
def renewalAfter : RunResult ((String → Unit) × List Call) (Option Entity) :=
  ((Engine.create ⟨"/blueprints", 2, 1000, "sample"⟩ none false).withRegistry
      previewed.engine.registry).execute
    ⟨⟨0⟩, .direct, .recorded holding⟩ 20
    (·.reconcile renewable.blueprint renewable.lineage renewable.desired) (fun _ => (), [])

/-- The rehearsal only looks the thing up and leaves a state of it in the registry. -/
theorem previewed_stands : (inPlace? previewed).isSome = true ∧
    (previewed.engine.registry.find? ⟨⟨0⟩, "Thing", "a"⟩).isSome = true := by decide +kernel

/-- Afterwards the thing is found and updated. -/
theorem renewalAfter_stands : (inPlace? renewalAfter).isSome = true ∧
    renewalAfter.server.2.reverse.map (·.exchange) = [.answered stale, .answered stale] ∧
    renewalAfter.server.2.reverse.map (·.request.method) = [.get, .post] := by decide +kernel

/-- The thing comes out the same when it is laid over what was found and over what the rehearsal has
left. -/
theorem previewed_lies_same : (stale.json?.any fun value =>
    (renewable.desired.laidOver (renewable.found value)).body.same
      (renewable.desired.laidOver
        (previewed.engine.registry.findOrInsert ⟨0⟩ (renewable.found value)).1).body) = true := by
  decide +kernel

/-- Until the state of the thing is recalled, it has only been looked up. -/
theorem before_recall {events : List Event} {fate : Fate}
    (runs : (Task.entity renewable).Runs (trial false) events fate)
    (exchanges : (calls events).map (·.exchange) = [.answered stale, .answered stale])
    {before after : List Event} {session : SessionId} {entity known : Entity}
    (split : events = before ++ .recalled session entity known :: after) :
    ∃ lookup value, stale.json? = some value ∧ session = ⟨0⟩ ∧ entity = renewable.found value ∧
      before = [.told (.begun renewable), .called ⟨lookup, .answered stale⟩] := by
  obtain ⟨account, same, _, sound, rfl⟩ := runs.accounts
  have unobserved : (trial false).observer = none := rfl
  have ordered : account.task.Ordered := by
    rw [same]
    exact ordered_renewable
  obtain ⟨⟨lookup, _⟩, others, all, rfl, exchanges⟩ := List.map_eq_cons_iff.mp exchanges
  obtain ⟨write, rest, rfl, _, _⟩ := List.map_eq_cons_iff.mp exchanges
  have alone := sound.alone same rfl
  obtain ⟨part, visit, value, state, closing, found, entityTask, spelled, _, own, closes⟩ :=
    sound.own_of_found unobserved ordered (alone.symm ▸ all) rfl
  cases found
  obtain rfl : visit = renewable := by
    rw [same] at entityTask
    exact (Task.entity.inj entityTask).symm
  have whole := split.symm.trans (alone.symm.trans own)
  rcases split_append whole with ⟨_, inside⟩ | ⟨behind, rfl, later⟩
  · have member : Event.recalled session entity known ∈
        [Event.told (.begun renewable), .called ⟨lookup, .answered stale⟩] := by
      rw [inside]
      simp
    simp at member
  · cases behind with
    | nil =>
        obtain ⟨here, _⟩ := List.cons.inj later
        cases here
        exact ⟨lookup, value, spelled, rfl, rfl, List.append_nil _⟩
    | cons first behind =>
        -- nothing is recalled once the thing is written
        obtain ⟨_, later⟩ := List.cons.inj later
        have member : Event.recalled session entity known ∈ Event.called write :: closing := by
          rw [later]
          simp
        rcases List.mem_cons.mp member with same | member
        · nomatch same
        · nomatch closes _ member

/-- The thing that was rehearsed is updated as it would have been without the rehearsal. -/
theorem renewable_untraced : ∃ rehearsed events reached fate others,
    (Task.entity renewable).Runs (trial true) rehearsed reached ∧
    lastKnown ⟨⟨0⟩, "Thing", "a"⟩ rehearsed ≠ none ∧
    (Task.entity renewable).Runs (trial false) events fate ∧
    (Registry.empty.after rehearsed).Gives events ∧
    Registry.empty.Indifferent rehearsed events ∧
    (calls events).map (·.request.method) = [.get, .post] ∧
    (Task.entity renewable).Runs (trial false) others fate ∧ Registry.empty.Gives others ∧
    calls others = calls events := by
  obtain ⟨dryPlace, left⟩ := previewed_stands
  obtain ⟨place, exchanges, methods⟩ := renewalAfter_stands
  obtain ⟨supposed, dryPlaced⟩ := Option.isSome_iff_exists.mp dryPlace
  obtain ⟨placed, inPlace⟩ := Option.isSome_iff_exists.mp place
  obtain ⟨rehearsed, drySteps, _, _, _, dryGives, leaves⟩ := Engine.execute_remembers _ _ _ _ _ _ _
    (rfl : _ = previewed) (outcome_of_inPlace dryPlaced)
  obtain ⟨events, steps, _, called, _, gives, _⟩ := Engine.execute_remembers _ _ _ _ _ _ _
    (rfl : _ = renewalAfter) (outcome_of_inPlace inPlace)
  have ordered : (Task.entity renewable).Ordered := ordered_renewable
  have dry : (trial true).dry = true := rfl
  have rehearses : (Task.entity renewable).Runs (trial true) rehearsed _ := .entity drySteps
  have runs : (Task.entity renewable).Runs (trial false) events _ := .entity steps
  have after : previewed.engine.registry = Registry.empty.after rehearsed := leaves
  have since : (Registry.empty.after rehearsed).Gives events := after ▸ gives
  have indifferent : Registry.empty.Indifferent rehearsed events := by
    intro before session entity known later split _ visit found
    rw [← called] at exchanges
    obtain ⟨lookup, value, spelled, rfl, rfl, rfl⟩ := before_recall runs exchanges split
    obtain rfl : visit = renewable := by
      have begun := found.begun
      simpa using begun
    have same := previewed_lies_same
    rw [spelled, Option.any_some, after] at same
    exact congrArg (fun fields => { renewable.desired with fields })
      (Json.ofMap_inj (Json.eq_of_same same))
  obtain ⟨others, alike, also, same⟩ := ((Run.rehearsal_leaves_no_trace dry ordered rehearses
    Registry.empty).2 _ _ _ runs indifferent).1 since
  refine ⟨rehearsed, events, _, _, others, rehearses, ?_, runs, since, indifferent, ?_, alike, also,
    same⟩
  · intro untouched
    rw [after, Registry.find?_after_of_none untouched] at left
    nomatch left
  · rw [called]
    exact methods

/-- A store with a thing of an old kind. -/
def kept : String → Held := fun path =>
  if path = "/things/a" then
    some (.ofList [("kind", .string "old"), ("name", .string "a")])
  else shelf path

/-- The thing as one of another kind. -/
def planned : String := "[\x7b\"name\":\"a\",\"kind\":\"planned\"\x7d]"

/-- The thing, to be updated with a color. -/
def painted : String := "[\x7b\"name\":\"a\",\"color\":\"red\",\"_update\":true\x7d]"

/-- A run of a document on this store with a registry. -/
def resumed (registry : Registry) (text : String) :
    RunResult ((String → Held) × List Call) (List Entity) :=
  ((Engine.create ⟨"/blueprints", 2, 1000, "sample"⟩ none false).withRegistry registry).execute
    ⟨⟨0⟩, .direct, .recorded respond⟩ 60 (·.document "Thing" text) (kept, [])

/-- What is known of a run that has succeeded. -/
theorem resumed_runs {registry : Registry} {text : String}
    (value : Outcome.isValue (resumed registry text).outcome = true) : ∃ events,
    (Task.document "Thing" text).Runs (trial false) events .succeeded ∧ registry.Gives events ∧
    Served (.ofRespond respond) kept (calls events) (resumed registry text).server.1 ∧
    calls events = (resumed registry text).server.2.reverse := by
  obtain ⟨_, ended⟩ := Outcome.value_of_isValue value
  obtain ⟨events, steps, served, called, _, gives, _⟩ :=
    Engine.execute_remembers _ _ _ _ _ _ _ (rfl : _ = resumed registry text) ended
  exact ⟨events, .document steps, gives, served, called⟩

/-- The kind that is sent with a call. -/
def sentKind? (call : Call) : Option String :=
  ((call.request.body.bind Json.members?).bind (·.find? "kind")).bind Json.text?

/-- The rehearsal supposes the planned kind, and the run sends it; without the rehearsal the run
sends the kind that it finds. -/
theorem planned_stands : Outcome.isValue (attempt true kept planned).outcome = true ∧
    Outcome.isValue (resumed (attempt true kept planned).engine.registry painted).outcome = true ∧
    Outcome.isValue (resumed .empty painted).outcome = true ∧
    ((resumed (attempt true kept planned).engine.registry painted).server.2.reverse.map fun call =>
        (call.request.method, call.request.path, sentKind? call))
      = [(.get, "/blueprints/Thing", none), (.get, "/things/a", none),
        (.post, "/things/a", some "planned")] ∧
    ((resumed .empty painted).server.2.reverse.map fun call =>
        (call.request.method, call.request.path, sentKind? call))
      = [(.get, "/blueprints/Thing", none), (.get, "/things/a", none),
        (.post, "/things/a", some "old")] := by decide +kernel

/-- A rehearsal of the planned kind shows in a later run of another model on the same store: the
update of the color carries the planned kind, where without the rehearsal it carries the kind that
is found. -/
theorem supposed_kind_is_sent : ∃ rehearsed events others first final last,
    (Task.document "Thing" planned).Runs (trial true) rehearsed .succeeded ∧
    Served (.ofRespond respond) kept (calls rehearsed) first ∧
    (Task.document "Thing" painted).Runs (trial false) events .succeeded ∧
    (Registry.empty.after rehearsed).Gives events ∧
    Served (.ofRespond respond) kept (calls events) final ∧
    (Task.document "Thing" painted).Runs (trial false) others .succeeded ∧
    Registry.empty.Gives others ∧ Served (.ofRespond respond) kept (calls others) last ∧
    ((calls events).map fun call => (call.request.method, call.request.path, sentKind? call))
      = [(.get, "/blueprints/Thing", none), (.get, "/things/a", none),
        (.post, "/things/a", some "planned")] ∧
    ((calls others).map fun call => (call.request.method, call.request.path, sentKind? call))
      = [(.get, "/blueprints/Thing", none), (.get, "/things/a", none),
        (.post, "/things/a", some "old")] := by
  obtain ⟨supposes, resumes, succeeds, requests, otherRequests⟩ := planned_stands
  obtain ⟨_, dryEnd⟩ := Outcome.value_of_isValue supposes
  obtain ⟨rehearsed, drySteps, dryServed, _, _, _, leaves⟩ := Engine.execute_remembers _ _ _ _ _ _ _
    (rfl : _ = attempt true kept planned) dryEnd
  obtain ⟨events, runs, gives, served, called⟩ := resumed_runs resumes
  obtain ⟨others, alsoRuns, alsoGives, alsoServed, alsoCalled⟩ := resumed_runs succeeds
  rw [leaves] at gives
  refine ⟨rehearsed, events, others, _, _, _, .document drySteps, dryServed, runs, gives, served,
    alsoRuns, alsoGives, alsoServed, ?_, ?_⟩
  · rw [called]
    exact requests
  · rw [alsoCalled]
    exact otherRequests

end Sample

end DesiredState
