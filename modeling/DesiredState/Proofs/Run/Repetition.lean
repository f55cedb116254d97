import DesiredState.Proofs.Run.Bounds
import DesiredState.Proofs.Run.Custody
import DesiredState.Proofs.Run.Record

/-!
# Running again

Let an API keep a store, and let each type be looked up where it is created. When a run of a
document has succeeded, a second run finds every entity and writes nothing. And when a first run
was disturbed, a second one finds what the first one left and creates the rest, so it ends with
the store that one undisturbed run ends with. Both are runs on a store between two others
(`completed_between`).

**Why.** A completed run foresees what becomes of each entity (`EstablishesDocument.foresees`).
Whatever a later run finds under an address, or is answered when it creates it, are the fields
that are foreseen, so its descendants have the addresses and bodies that they had before.
-/

set_option autoImplicit false

namespace DesiredState

namespace Run

variable {assigns : String → String → Prop} {start final : String → Held}

/-! ## The second run -/

variable {run : Run} {blueprint : Blueprint} {lineage : Lineage} {desired : Entity}

/-- **A completed run has something in place under each address that is reached.** -/
theorem held_of_reaches (plain : run.Plain) (sole : Sole assigns start final)
    {last : String → Held} {course : Course} {result : Option Entity}
    (handles : Handles run blueprint lineage desired course result) :
    blueprint.Mirrored → desired.Calm → Foreseen assigns start final blueprint lineage desired →
    (∀ call ∈ calls course.inTurn, call.Accepted) →
    (∀ call ∈ calls course.inTurn,
      (custody assigns start final False).hears call.request call.exchange) →
    (∀ call ∈ calls course.inTurn, call.Succeeded → last call.request.path ≠ none) →
    ∀ path, Reaches final path blueprint lineage desired → last path ≠ none := by
  induction handles with
  | skipped own alone _ settles =>
      intro mirrored calm foreseen accepted _ _
      have sent : ∀ call ∈ calls own, call.Accepted := fun call member =>
        accepted call (by simpa using member)
      obtain ⟨_, _, _, nothing, _⟩ := places_of_settle plain.wet plain.faithful mirrored
        calm.updates_eq_false sent settles
      nomatch nothing
  | @settled blueprint lineage desired own settled broods alone _ settles declared whole each ih =>
      intro mirrored calm foreseen accepted heard held path reaches
      have mine : ∀ call ∈ calls own, call ∈ calls (Course.act (.told (.begun
          ⟨blueprint, lineage, desired⟩)) (.ofEvents own (.act
            (.remembered run.session settled) (.forks broods)))).inTurn := by
        intro call member
        simp [member]
      obtain ⟨uri, fields, address, atEnd, origin, _, below⟩ := foreseen
      have keeps : (run.settle blueprint lineage desired).Keeps (custody assigns start final False)
          (· = some (.ofRemote (.ofMap fields) desired.className)) :=
        keeps_settle plain.wet plain.unobserved sole mirrored calm.updates_eq_false address atEnd
          origin
      have same := keeps.of_sends settles fun call member => heard call (mine call member)
      cases same
      cases reaches with
      | here known =>
          obtain ⟨other, placed, also, _, places⟩ := places_of_settle plain.wet plain.faithful
            mirrored calm.updates_eq_false (fun call member => accepted call (mine call member))
            settles
          obtain rfl := Option.some.inj (known.symm.trans also)
          obtain ⟨call, member, succeeded⟩ := places.succeeded
          rw [← places.path_eq call member]
          exact held call (mine call member) succeeded
      | descend known present child member reaches =>
          obtain rfl := Option.some.inj (address.symm.trans known)
          obtain rfl := Option.some.inj (atEnd.symm.trans present)
          obtain ⟨branch, inside, rfl⟩ := List.mem_map.mp (whole.symm ▸ member)
          exact ih branch inside (mirrored.of_offspring member) (calm_of_offspring calm member rfl)
            (below _ member) (fun call called => accepted call (calls_branch_subset inside called))
            (fun call called => heard call (calls_branch_subset inside called))
            (fun call called => held call (calls_branch_subset inside called)) path reaches

section Second

variable {type text : String} {nodes : List Json} {config : NameMap Json}

/-- A run on a store between the two, if it succeeds, has something in place under each path that
the first run changed. -/
theorem held_of_changed (plain : run.Plain) (sole : Sole assigns start final)
    (free : Document.FreeOfUpdates text) (mirrored : blueprint.Mirrored)
    (spelled : Document.nodes? text = some nodes)
    (foresees : ForeseesDocument assigns start final (run.settings.blueprintUri type) config
      blueprint (Document.entities (blueprint.rootClassName type) nodes))
    {events : List Event} {results : List Entity} {store last : String → Held}
    (steps : Stage.Steps run (.active (run.document type text)) events
      (.finished (.value results)))
    (fine : ∀ event ∈ events, (custody assigns start final False).Fine event)
    (between : Between start final store)
    (served : Served (Stored assigns) store (calls events) last) :
    ∀ path, start path ≠ final path → last path ≠ none := by
  intro path changed
  obtain ⟨root, member, reaches⟩ := foresees.changes path changed
  obtain ⟨course, takes, orders⟩ := steps.takes
  obtain ⟨own, others, fetched, branches, rfl, _, _, also, fetches, roots, _, each⟩ :=
    takes_document takes
  obtain ⟨found, here, reads⟩ := fetches.of_orders orders served
  have sameConfig : found = config := by
    rcases between (run.settings.blueprintUri type) with atStart | atEnd
    · exact Option.some.inj (here.symm.trans (atStart.trans foresees.found))
    · exact Option.some.inj (here.symm.trans (atEnd.trans foresees.kept))
  obtain rfl : fetched = blueprint := by
    rw [sameConfig, foresees.reads] at reads
    exact (Except.ok.inj reads).symm
  obtain rfl : nodes = others := Option.some.inj (spelled.symm.trans also)
  have calm : root.Calm := .of_entities (free nodes spelled) member
  have foreseen := foresees.each root member
  obtain ⟨branch, inside, rfl⟩ := List.mem_map.mp (roots.symm ▸ member)
  have among : ∀ call ∈ calls branch.course.inTurn, call ∈ calls events := by
    intro call called
    have same : (calls events).Perm (calls (Course.ofEvents own (.chain branches)).inTurn) :=
      orders.perm_inTurn.filterMap _
    refine same.mem_iff.mpr ?_
    rw [Course.inTurn_ofEvents, Course.inTurn_chain, calls_append]
    exact List.mem_append_right _ (calls_subset_flatMap inside called)
  refine held_of_reaches plain sole (each branch inside) mirrored calm foreseen ?_ ?_ ?_ path
    reaches
  · exact fun call called => accepted_of_served served call (among call called)
  · intro call called
    obtain ⟨event, inEvents, calling⟩ := List.mem_filterMap.mp (among call called)
    have relied := fine event inEvents
    cases event with
    | called other =>
        cases calling
        exact relied
    | _ => nomatch calling
  · exact fun call called => (held_of_served served).2 call (among call called)

/-- **A run on a store between the two succeeds and ends with the last one.** -/
theorem completed_between (plain : run.Plain) (sole : Sole assigns start final)
    (free : Document.FreeOfUpdates text) (mirrored : blueprint.Mirrored)
    (spelled : Document.nodes? text = some nodes)
    (foresees : ForeseesDocument assigns start final (run.settings.blueprintUri type) config
      blueprint (Document.entities (blueprint.rootClassName type) nodes))
    {store : String → Held} (between : Between start final store) :
    (Stage.active (run.document type text)).Ends run (Stored assigns)
      (fun outcome last => (∃ results, outcome = .value results) ∧ last = final) store := by
  refine (bounded_document type text).halts.ends ?_
  intro events outcome last steps patient served
  obtain ⟨fine, _, left, ends⟩ := document_under_custody plain.wet plain.unobserved sole free
    mirrored spelled foresees keeps_stored steps (fun _ => patient) between served
  have kept := ends outcome rfl
  cases outcome with
  | failed failure => exact absurd id kept
  | broken cause => exact absurd id kept
  | value results =>
      refine ⟨⟨results, rfl⟩, ?_⟩
      funext path
      by_cases unchanged : start path = final path
      · exact (left path).elim (·.trans unchanged) id
      · have present := held_of_changed plain sole free mirrored spelled foresees steps fine between
          served path unchanged
        obtain ⟨root, member, reaches⟩ := foresees.changes path unchanged
        rcases left path with atStart | atEnd
        · rcases reaches.start_eq (foresees.each root member) with absent | same
          · exact absurd (atStart.trans absent) present
          · exact absurd same unchanged
        · exact atEnd

end Second

/-! ## Running again -/

/-- **A repeated run writes nothing.** After a run that succeeded, a second one only reads, and
it is inevitable that it succeeds and leaves the store as it is. -/
theorem repeated_run_writes_nothing {first second : Run} (plain : first.Plain)
    (alsoPlain : second.Plain) {type text : String}
    (sameBlueprints : second.settings.blueprintUri type = first.settings.blueprintUri type)
    (free : Document.FreeOfUpdates text)
    (mirrored : MirroredAt start (first.settings.blueprintUri type))
    {events : List Event} {roots : List Entity}
    (steps : Stage.Steps first (.active (first.document type text)) events
      (.finished (.value roots)))
    (served : Served (Stored assigns) start (calls events) final)
    (spread : Spread events) :
    (Stage.active (second.document type text)).Ends second (Stored assigns)
      (fun outcome last => (∃ results, outcome = .value results) ∧ last = final) final ∧
    ∀ others stage last, Stage.Steps second (.active (second.document type text)) others stage →
      Served (Stored assigns) final (calls others) last →
        ∀ call ∈ calls others, call.request.method = .get := by
  obtain ⟨nodes, config, blueprint, spelled, mirrors, foresees⟩ :=
    foresees_of_steps plain free mirrored steps served spread
  have settled : ForeseesDocument assigns final final (second.settings.blueprintUri type) config
      blueprint (Document.entities (blueprint.rootClassName type) nodes) := by
    rw [sameBlueprints]
    exact ⟨foresees.kept, foresees.kept, foresees.reads, fun root member =>
      (foresees.each root member).settled, fun path changed => absurd rfl changed⟩
  have sole : Sole assigns final final := fun path uuid another absent present =>
    absurd absent present
  have between : Between final final final := fun path => .inl rfl
  refine ⟨completed_between alsoPlain sole free mirrors spelled settled between, ?_⟩
  intro others stage last alsoSteps alsoServed call member
  have lax : Answering.Keeps (Stored assigns) assigns True := fun _ _ _ _ => .inl
  obtain ⟨_, allowed, _⟩ := document_under_custody alsoPlain.wet alsoPlain.unobserved sole free
    mirrors spelled settled lax alsoSteps (fun strict => absurd trivial strict) between alsoServed
  obtain ⟨event, inside, calling⟩ := List.mem_filterMap.mp member
  have asks := allowed event inside
  cases event with
  | called other =>
      cases calling
      rcases asks with ⟨reads, _⟩ | ⟨absent, _, _, object, _, _, present⟩
      · exact reads
      · nomatch absent.symm.trans present
  | _ => nomatch calling

end Run

namespace Sample

/-- A thing with two parts that has been created is only read when it is asked for again, even
with another limit. -/
theorem family_only_read_again : ∃ events, ∃ roots : List Entity, ∃ final,
    Stage.Steps (run 1) (.active ((run 1).document "Thing" family)) events
      (.finished (.value roots)) ∧
    Served (Stored fun path uuid => uuid = uuidAt path) shelf (calls events) final ∧
    (Stage.active ((run 2).document "Thing" family)).Ends (run 2)
      (Stored fun path uuid => uuid = uuidAt path)
      (fun outcome last => (∃ results, outcome = .value results) ∧ last = final) final ∧
    ∀ others stage last, Stage.Steps (run 2) (.active ((run 2).document "Thing" family)) others
        stage → Served (Stored fun path uuid => uuid = uuidAt path) final (calls others) last →
      ∀ call ∈ calls others, call.request.method = .get := by
  obtain ⟨events, roots, final, _, steps, served, _, spread⟩ := succeeded stands_one
  exact ⟨events, roots, final, steps, served, Run.repeated_run_writes_nothing (plain_run 1)
    (plain_run 2) rfl freeOfUpdates_family (mirroredAt_shelf _) steps served spread⟩

end Sample

namespace Run

variable {assigns : String → String → Prop} {start final : String → Held}

/-- **An interrupted run is completed by running again.** Whatever a first run left, which was
disturbed or given up at any point, it is inevitable that an undisturbed run succeeds and ends
with the store that one undisturbed run from the start ends with. -/
theorem interrupted_run_is_completed
    (assignsOne : ∀ path uuid another, assigns path uuid → assigns path another → uuid = another)
    {whole first second : Run} (plain : whole.Plain) (firstPlain : first.Plain)
    (secondPlain : second.Plain) {type text : String}
    (firstBlueprints : first.settings.blueprintUri type = whole.settings.blueprintUri type)
    (secondBlueprints : second.settings.blueprintUri type = whole.settings.blueprintUri type)
    (free : Document.FreeOfUpdates text)
    (mirrored : MirroredAt start (whole.settings.blueprintUri type))
    {events : List Event} {roots : List Entity}
    (steps : Stage.Steps whole (.active (whole.document type text)) events
      (.finished (.value roots)))
    (served : Served (Stored assigns) start (calls events) final)
    (spread : Spread events)
    {others : List Event} {stage : Stage ChildTask (List Entity)} {left : String → Held}
    (interrupted : Stage.Steps first (.active (first.document type text)) others stage)
    (disturbed : Served (Disturbed assigns) start (calls others) left) :
    (Stage.active (second.document type text)).Ends second (Stored assigns)
      (fun outcome last => (∃ results, outcome = .value results) ∧ last = final) left := by
  obtain ⟨nodes, config, blueprint, spelled, mirrors, foresees⟩ :=
    foresees_of_steps plain free mirrored steps served spread
  have sole : Sole assigns start final := fun path uuid another _ _ => assignsOne path uuid another
  obtain ⟨_, _, between, _⟩ := document_under_custody firstPlain.wet firstPlain.unobserved sole free
    mirrors spelled (firstBlueprints ▸ foresees) keeps_disturbed interrupted
    (fun strict => absurd trivial strict) (fun path => .inl rfl) disturbed
  exact completed_between secondPlain sole free mirrors spelled (secondBlueprints ▸ foresees)
    between

end Run

namespace Sample

/-- A thing whose first part was not written, since the connection was lost, gets it when the
document is run again. -/
theorem lost_part_written_again : ∃ events, ∃ roots : List Entity, ∃ final others,
    ∃ outcome : Outcome (List Entity), ∃ left,
    Stage.Steps (run 1) (.active ((run 1).document "Thing" family)) events
      (.finished (.value roots)) ∧
    Served (Stored fun path uuid => uuid = uuidAt path) shelf (calls events) final ∧
    Stage.Steps (run 1) (.active ((run 1).document "Thing" family)) others
      (.finished outcome) ∧
    Served (Disturbed fun path uuid => uuid = uuidAt path) shelf (calls others) left ∧
    (Stage.active ((run 2).document "Thing" family)).Ends (run 2)
      (Stored fun path uuid => uuid = uuidAt path)
      (fun outcome last => (∃ results, outcome = .value results) ∧ last = final) left := by
  obtain ⟨events, roots, final, _, steps, served, _, spread⟩ := succeeded stands_one
  obtain ⟨others, outcome, left, broken, disturbed⟩ :=
    interrupted (show stumbles (result flaky 1) = true by decide +kernel)
  refine ⟨events, roots, final, others, outcome, left, steps, served, broken, disturbed, ?_⟩
  exact Run.interrupted_run_is_completed (fun _ _ _ one another => one.trans another.symm)
    (plain_run 1) (plain_run 1) (plain_run 2) rfl rfl freeOfUpdates_family (mirroredAt_shelf _)
    steps served spread broken disturbed

end Sample

end DesiredState
