import DesiredState.Proofs.Run.Bounds
import DesiredState.Proofs.Run.Shadowing

/-!
# A dry run predicts a run

Let a run of a document succeed on a store, and let it read no path that it has written before. A
dry run from the same store succeeds and leaves the store as it is. It asks for the same path as the
run for each entity whose ancestors were in place at the start, and it reports of these entities
that they would be created if and only if the run has created them.

**What has to agree.** A dry run takes the ancestors of an entity to be what the model asks for,
laid over what the store holds. So the prediction holds as long as each placeholder that refers to
an ancestor stands for the same there and in what the run has put in place. It does where the model
leaves the fields alone to which the lookup templates refer (`Completed.agrees`). Where the model
changes such a field of a parent, a dry run looks its children up elsewhere.
-/

set_option autoImplicit false

namespace DesiredState

variable {answering : Answering Held} {start final : String → Held}

/-! ## Documents that are opened -/

namespace Task

variable {run : Run} {type text : String} {own : List Event}

/-- A document that hands out its roots was opened with the blueprint that the store held. -/
theorem GoesOn.opened {groups : List (List (Waypoint × Task))}
    (goesOn : (Task.document type text).GoesOn run own groups)
    (answered : AnsweredFrom start (calls own)) :
    ∃ nodes config blueprint, Document.nodes? text = some nodes ∧
      start (run.settings.blueprintUri type) = some config ∧
      Blueprint.read (.ofMap config) = .ok blueprint ∧ blueprint.Ordered ∧
      groups = roots blueprint (Document.entities (blueprint.rootClassName type) nodes) := by
  cases goesOn with
  | @document _ _ _ blueprint _ opens =>
      obtain ⟨nodes, fetches, spelled, rfl⟩ := fetches_of_opening opens
      obtain ⟨config, held, reads⟩ := fetches.held answered
      exact ⟨nodes, config, blueprint, spelled, held, reads, fetches.ordered, rfl⟩

/-- A document that can be opened with the blueprint that the store held does not fail before its
roots. -/
theorem Stops.not_failed (unobserved : run.observer = none) {nodes : List Json}
    {config : NameMap Json} {blueprint : Blueprint} (spelled : Document.nodes? text = some nodes)
    (held : start (run.settings.blueprintUri type) = some config)
    (reads : Blueprint.read (.ofMap config) = .ok blueprint)
    (answered : AnsweredFrom start (calls own)) :
    ¬ (Task.document type text).Stops run own .failed := by
  intro stops
  generalize failed : Fate.failed = fate at stops
  cases stops with
  | unopened opens _ =>
      rcases Run.own_of_opening unobserved opens with ⟨_, rfl⟩ | ⟨exchange, same, cause⟩
      · nomatch failed
      · obtain rfl := Course.ofEvents_idle_inj same
        have told : exchange.Tells (start (run.settings.blueprintUri type)) :=
          answered.told _ List.mem_cons_self rfl
        rw [held] at told
        rcases cause failed.symm with unread | unreadable
        · nomatch unread.symm.trans spelled
        · cases told with
          | @found _ response status shown =>
              have success : response.isSuccess = true := by
                rw [Response.isSuccess, status]
                rfl
              exact unreadable response _ blueprint rfl success shown reads

end Task

namespace Account

variable {run rehearsing : Run} {type text : String} {account other : Account}

/-- A document that is through was opened with the blueprint that the store held, and has handed out
its roots. -/
theorem Sound.opened (sound : account.Sound run) (document : account.task = .document type text)
    (well : account.fate = .succeeded)
    (answered : AnsweredFrom start (calls account.history.events)) :
    ∃ nodes config blueprint history, Document.nodes? text = some nodes ∧
      start (run.settings.blueprintUri type) = some config ∧
      Blueprint.read (.ofMap config) = .ok blueprint ∧
      Sequel (Task.roots blueprint (Document.entities (blueprint.rootClassName type) nodes))
        account.gangs history .succeeded := by
  obtain ⟨groups, history, goesOn, sequel, _⟩ := sound.handing_of_document document well
  obtain ⟨nodes, config, blueprint, spelled, held, reads, _, rfl⟩ :=
    goesOn.opened (sound.answered_own answered)
  exact ⟨nodes, config, blueprint, history, spelled, held, reads, sequel⟩

/-- A root that was handed out is an entity without ancestors. -/
theorem root_of_mem {blueprint : Blueprint} {entities : List Entity} {history : History}
    {fate : Fate} (sequel : Sequel (Task.roots blueprint entities) account.gangs history fate)
    {member : Waypoint × Account} (inside : member ∈ account.members) :
    ∃ root, member.2.task = .entity ⟨blueprint, .empty, root⟩ := by
  obtain ⟨group, inGroups, inGroup⟩ := List.mem_flatten.mp (sequel.tag_mem inside)
  obtain ⟨root, _, rfl⟩ := List.mem_map.mp inGroups
  exact ⟨root.1, (Prod.mk.inj (List.mem_singleton.mp inGroup)).2⟩

/-- The account of a run that has completed the task with the events. -/
structure Completed (run : Run) (task : Task) (events : List Event) (account : Account) : Prop where
  task : account.task = task
  sound : account.Sound run
  well : account.fate = .succeeded
  events : account.history.events = events

/-- **The ancestors of a completed run agree** with those that a dry run supposes, if all entities
of the run keep the fields to which the lookup templates refer. -/
theorem Completed.agrees (plain : run.Plain) {events : List Event}
    (completed : account.Completed run (.document type text) events)
    (answered : AnsweredFrom start (calls events)) {names : List String}
    (kept : ∀ begun ∈ visits events,
      (∀ name ∈ begun.references, name ∈ names) ∧ ∀ name ∈ names, begun.Keeps name) :
    ∀ root ∈ account.members, root.2.Agrees start .empty := by
  obtain ⟨document, sound, well, rfl⟩ := completed
  have ordered : account.task.Ordered := by
    rw [document]
    exact trivial
  intro root inside
  obtain ⟨_, _, blueprint, _, _, _, _, sequel⟩ := sound.opened document well answered
  obtain ⟨entity, handed⟩ := root_of_mem sequel inside
  obtain ⟨sounds, orders⟩ := sound.of_member ordered root inside
  rw [handed] at orders
  refine sounds.agrees plain handed orders (sequel.succeeded root inside)
    (sound.answered_member ordered answered inside) ?_ Lineage.aligned_empty
    (Lineage.alikeIn_empty names)
  exact fun begun inRoot =>
    kept begun (List.filterMap_subset _ (sound.events_member ordered inside) inRoot)

/-- The account of a dry run foretells that of a run: for each entity whose ancestors were in place
at the start or cannot be looked up, the dry run has handled the same entity, has looked up the same
path, and has reported that it would be created if and only if the run has created it. -/
def Foretells (start : String → Held) (rehearsal account : Account) : Prop :=
  ∀ origin part visit, account.part? origin = some part → part.task = .entity visit →
    account.Reached start origin →
    ∃ other lineage, rehearsal.part? origin = some other ∧
      other.task = .entity (visit.under lineage) ∧
      Predicts (rehearsal.history.own origin) (calls (account.history.own origin))

/-- The account of a dry run of a document, beside that of a run that has succeeded and agrees with
what the dry run takes the ancestors for. -/
structure Rehearses (run rehearsing : Run) (start : String → Held) (type text : String)
    (account other : Account) : Prop where
  document : account.task = .document type text
  sound : account.Sound run
  well : account.fate = .succeeded
  answered : AnsweredFrom start (calls account.history.events)
  agrees : ∀ root ∈ account.members, root.2.Agrees start .empty
  sameBlueprints : rehearsing.settings.blueprintUri type = run.settings.blueprintUri type
  again : other.task = .document type text
  alsoSound : other.Sound rehearsing
  alsoAnswered : AnsweredFrom start (calls other.history.events)

namespace Rehearses

theorem task_ordered (rehearses : Rehearses run rehearsing start type text account other) :
    account.task.Ordered := by
  rw [rehearses.document]
  exact trivial

theorem again_ordered (rehearses : Rehearses run rehearsing start type text account other) :
    other.task.Ordered := by
  rw [rehearses.again]
  exact trivial

/-- A dry run that goes on hands out the roots that the run has handed out. -/
theorem groups_eq (rehearses : Rehearses run rehearsing start type text account other)
    {groups : List (List (Waypoint × Task))}
    (goesOn : (Task.document type text).GoesOn rehearsing other.own groups) :
    ∃ history, Sequel groups account.gangs history .succeeded := by
  obtain ⟨nodes, config, blueprint, history, spelled, held, reads, sequel⟩ :=
    rehearses.sound.opened rehearses.document rehearses.well rehearses.answered
  obtain ⟨_, _, _, also, alsoHeld, alsoReads, _, rfl⟩ :=
    goesOn.opened (rehearses.alsoSound.answered_own rehearses.alsoAnswered)
  rw [rehearses.sameBlueprints] at alsoHeld
  obtain rfl := Option.some.inj (spelled.symm.trans also)
  obtain rfl := Option.some.inj (held.symm.trans alsoHeld)
  obtain rfl := Except.ok.inj (reads.symm.trans alsoReads)
  exact ⟨history, sequel⟩

/-- The roots of the dry run shadow those of the run. -/
theorem root (rehearses : Rehearses run rehearsing start type text account other)
    {one two : Waypoint × Account} (inside : one ∈ account.members) (also : two ∈ other.members)
    (same : tag two = tag one) :
    ∃ visit, Shadows run rehearsing start one.2 two.2 visit .empty := by
  obtain ⟨_, _, blueprint, history, _, _, _, sequel⟩ :=
    rehearses.sound.opened rehearses.document rehearses.well rehearses.answered
  obtain ⟨root, entity⟩ := root_of_mem sequel inside
  obtain ⟨sounds, orders⟩ := rehearses.sound.of_member rehearses.task_ordered one inside
  obtain ⟨alsoSounds, _⟩ := rehearses.alsoSound.of_member rehearses.again_ordered two also
  have again : two.2.task = .entity ⟨blueprint, .empty, root⟩ :=
    (Prod.mk.inj same).2.trans entity
  rw [entity] at orders
  refine ⟨_, entity, orders, sounds, sequel.succeeded one inside, ?_, rehearses.agrees one inside,
    Lineage.aligned_empty, again, alsoSounds, ?_⟩
  · exact rehearses.sound.answered_member rehearses.task_ordered rehearses.answered inside
  · exact rehearses.alsoSound.answered_member rehearses.again_ordered rehearses.alsoAnswered also

/-- **The dry run does not fail**, unless a crew is given up. -/
theorem not_failed (plain : run.Plain) (dry : rehearsing.dry = true)
    (unobserved : rehearsing.observer = none)
    (rehearses : Rehearses run rehearsing start type text account other)
    (patient : .gaveUp ∉ other.history.events) : other.fate ≠ .failed := by
  intro failed
  rcases rehearses.alsoSound.form with ⟨_, _, stops⟩ | ⟨groups, history, goesOn, handing, same⟩
  · obtain ⟨nodes, config, blueprint, _, spelled, held, reads, _⟩ :=
      rehearses.sound.opened rehearses.document rehearses.well rehearses.answered
    rw [rehearses.again, failed] at stops
    rw [← rehearses.sameBlueprints] at held
    exact Task.Stops.not_failed unobserved spelled held reads
      (rehearses.alsoSound.answered_own rehearses.alsoAnswered) stops
  · rw [rehearses.again] at goesOn
    obtain ⟨_, sequel⟩ := rehearses.groups_eq goesOn
    have handed : ∀ two ∈ other.members, ∃ one ∈ account.members, tag one = tag two :=
      fun two also => sequel.member_of_mem (handing.tag_mem also)
    rw [failed] at handing
    rcases handing.failed with gaveUp | ⟨two, also, ill⟩
    · refine patient ?_
      rw [same, History.events_append]
      exact List.mem_append_right _ gaveUp
    · obtain ⟨one, inside, tagged⟩ := handed two also
      obtain ⟨visit, shadows⟩ := rehearses.root inside also tagged.symm
      refine shadows.not_failed plain dry unobserved shadows.alsoSound ?_ ill
      exact fun gaveUp =>
        patient (rehearses.alsoSound.events_member rehearses.again_ordered also gaveUp)

/-- **A dry run that is through foretells the run.** -/
theorem foretells (plain : run.Plain) (dry : rehearsing.dry = true)
    (unobserved : rehearsing.observer = none)
    (rehearses : Rehearses run rehearsing start type text account other)
    (well : other.fate = .succeeded) : other.Foretells start account := by
  intro origin part visit found entity reached
  cases origin with
  | nil =>
      cases found
      nomatch rehearses.document.symm.trans entity
  | cons place rest =>
      obtain ⟨one, inside, rfl, below⟩ := Sound.member_of_part? found
      obtain ⟨groups, history, goesOn, handing, _⟩ :=
        rehearses.alsoSound.handing_of_document rehearses.again well
      obtain ⟨_, sequel⟩ := rehearses.groups_eq goesOn
      obtain ⟨two, also, tagged⟩ := handing.member_of_mem (sequel.tag_mem inside)
      obtain ⟨root, shadows⟩ := rehearses.root inside also tagged
      have onward := reached.of_member rehearses.sound rehearses.task_ordered inside
      obtain ⟨deeper, inner, lineage, there, through, closer⟩ :=
        shadows.part plain dry unobserved (handing.succeeded two also) below onward
      have place : two.1 = one.1 := (Prod.mk.inj tagged).1
      have alsoFound : other.part? (one.1 :: rest) = some deeper := by
        rw [← place, rehearses.alsoSound.part?_cons rehearses.again_ordered also]
        exact there
      cases entity.symm.trans closer.entity
      refine ⟨deeper, lineage, alsoFound, closer.again, ?_⟩
      rw [Predicts, rehearses.alsoSound.calls_own rehearses.again_ordered alsoFound,
        rehearses.alsoSound.reports_own rehearses.again_ordered alsoFound,
        rehearses.sound.calls_own rehearses.task_ordered found]
      exact closer.predicts plain dry unobserved through

end Rehearses

end Account

/-! ## Dry runs of documents -/

namespace Run

open Account

variable {run rehearsing : Run} {type text : String}

/-- A run that has succeeded has an account. -/
theorem completed_of_steps {events : List Event} {roots : List Entity}
    (steps : Stage.Steps run (.active (run.document type text)) events (.finished (.value roots))) :
    ∃ account, Completed run (.document type text) events account := by
  obtain ⟨course, takes, orders⟩ := steps.takes
  obtain ⟨account, task, fate, sound, events⟩ := accounts_of_document takes orders
  exact ⟨account, task, sound, fate, events⟩

/-- What a dry run has read is what the store held, and it leaves the store as it is. -/
theorem answeredFrom_of_dry (store : answering.IsStore) (dry : rehearsing.dry = true)
    {events : List Event} {stage : Stage ChildTask (List Entity)} {last : String → Held}
    (steps : Stage.Steps rehearsing (.active (rehearsing.document type text)) events stage)
    (served : Served answering start (calls events) last) :
    AnsweredFrom start (calls events) ∧ last = start := by
  obtain ⟨course, takes, orders⟩ := steps.takes
  have ordered : (Task.document type text).Ordered := trivial
  have reads : ∀ call ∈ calls events, call.request.method.isWrite = false := by
    intro call member
    rw [(((accounts_of_document takes orders).onlyReads dry ordered).reads call member).1]
    rfl
  exact ⟨served.answeredFrom store (readsFirst_of_reads reads), served.unchanged store reads⟩

/-- **A dry run predicts a run.** Let a run of a document succeed on a store and read no path that
it has written before, and let every placeholder of a lookup template stand for the same in what the
run has put in place of the ancestors and in what a dry run supposes there. Then it is inevitable
that a dry run from the same store succeeds and leaves the store as it is, and it foretells the
run. -/
theorem dry_run_predicts (store : answering.IsStore) (plain : run.Plain)
    (dry : rehearsing.dry = true) (unobserved : rehearsing.observer = none)
    (sameBlueprints : rehearsing.settings.blueprintUri type = run.settings.blueprintUri type)
    {events : List Event} {roots : List Entity}
    (steps : Stage.Steps run (.active (run.document type text)) events (.finished (.value roots)))
    (served : Served answering start (calls events) final)
    (readsFirst : ReadsFirst (calls events)) :
    (∃ account, Completed run (.document type text) events account) ∧
    ∀ account, Completed run (.document type text) events account →
      (∀ root ∈ account.members, root.2.Agrees start .empty) →
        (Stage.active (rehearsing.document type text)).Ends rehearsing answering
          (fun outcome last => (∃ results, outcome = .value results) ∧ last = start) start ∧
        ∀ others (results : List Entity) last,
          Stage.Steps rehearsing (.active (rehearsing.document type text)) others
            (.finished (.value results)) → Served answering start (calls others) last →
          (∃ rehearsal, Completed rehearsing (.document type text) others rehearsal) ∧
          ∀ rehearsal, Completed rehearsing (.document type text) others rehearsal →
            rehearsal.Foretells start account := by
  refine ⟨completed_of_steps steps, ?_⟩
  rintro account ⟨document, sound, well, rfl⟩ agrees
  have answered := served.answeredFrom store readsFirst
  have rehearses : ∀ other : Account, other.task = .document type text → other.Sound rehearsing →
      AnsweredFrom start (calls other.history.events) →
      Rehearses run rehearsing start type text account other := fun other again sounds told =>
    ⟨document, sound, well, answered, agrees, sameBlueprints, again, sounds, told⟩
  refine ⟨?_, ?_⟩
  · refine (bounded_document type text).halts.ends ?_
    intro others outcome last alsoSteps patient alsoServed
    obtain ⟨told, unchanged⟩ := answeredFrom_of_dry store dry alsoSteps alsoServed
    obtain ⟨course, takes, orders⟩ := alsoSteps.takes
    obtain ⟨other, again, fate, sounds, rfl⟩ := accounts_of_document takes orders
    have calm := (rehearses other again sounds told).not_failed plain dry unobserved patient
    rw [fate] at calm
    cases outcome with
    | value results => exact ⟨⟨results, rfl⟩, unchanged⟩
    | failed failure => exact absurd rfl calm
    | broken cause => exact absurd rfl calm
  · intro others results last alsoSteps alsoServed
    refine ⟨completed_of_steps alsoSteps, ?_⟩
    rintro rehearsal ⟨again, sounds, through, rfl⟩
    obtain ⟨told, _⟩ := answeredFrom_of_dry store dry alsoSteps alsoServed
    exact (rehearses rehearsal again sounds told).foretells plain dry unobserved through

end Run

/-! ## A family in the store -/

namespace Sample

/-- Whether an attempt has succeeded and was served by the store. -/
def endures (start : String → Held)
    (result : RunResult ((String → Held) × List Call) (List Entity)) : Bool :=
  Outcome.isValue result.outcome
    && (replay? (Stored.next? uuidAt) result.server.2.reverse start).isSome

/-- What is known of an attempt that endures. -/
theorem endured {dry : Bool} {start : String → Held} {text : String}
    (checked : endures start (attempt dry start text) = true) :
    ∃ events, ∃ roots : List Entity, ∃ final,
      Stage.Steps (trial dry) (.active ((trial dry).document "Thing" text)) events
        (.finished (.value roots)) ∧
      Served (Stored fun path uuid => uuid = uuidAt path) start (calls events) final ∧
      calls events = (attempt dry start text).server.2.reverse ∧
      visits events = (attempt dry start text).notices.filterMap Notice.visit? ∧
      reports events = (attempt dry start text).notices.filterMap Notice.report? := by
  obtain ⟨value, replayed⟩ := Bool.and_eq_true_iff.mp checked
  obtain ⟨final, left⟩ := Option.isSome_iff_exists.mp replayed
  obtain ⟨events, roots, steps, called, told⟩ := attempted value
  refine ⟨events, roots, final, steps, ?_, called, told⟩
  rw [called]
  exact served_of_replay? (fun _ _ _ => stored_of_next?) left

/-- The blueprint of things whose parts are kept under the kind of the thing. -/
def sorted : NameMap Json :=
  ⟨[("children", .object [("Part", .object
      [("createUri", .string "/parts/\x7bThing.kind\x7d/\x7bname\x7d"),
        ("updateUri", .string "/parts/\x7bThing.kind\x7d/\x7bname\x7d")])]),
    ("createUri", .string "/things/\x7bname\x7d"),
    ("updateUri", .string "/things/\x7bname\x7d")], by decide⟩

/-- A store that holds an old thing and its part. -/
def aged : String → Held := fun path =>
  if path = "/blueprints/Thing" then some sorted
  else if path = "/things/a" then
    some ⟨[("kind", .string "old"), ("name", .string "a")], by decide⟩
  else if path = "/parts/old/b" then some ⟨[("name", .string "b")], by decide⟩
  else none

/-- The family on the store of the old thing: no entity is given a kind, and the parts are looked up
under the kind that the thing has. -/
theorem family_endures : endures aged (attempt false aged family) = true ∧
    ReadsFirst (attempt false aged family).server.2.reverse ∧
    (∀ visit ∈ (attempt false aged family).notices.filterMap Notice.visit?,
      (∀ name ∈ visit.references, name ∈ ["kind"]) ∧ ∀ name ∈ ["kind"], visit.Keeps name) ∧
    ((attempt false aged family).notices.filterMap Notice.visit?).map Visit.references
      = [[], ["kind"], ["kind"]] ∧
    ((attempt false aged family).server.2.reverse.map fun call =>
        (call.request.method, call.request.path))
      = [(.get, "/blueprints/Thing"), (.get, "/things/a"), (.get, "/parts/old/b"),
        (.get, "/parts/old/c"), (.put, "/parts/old/c")] := by decide +kernel

/-- What becomes of the old thing that is in the store, of its part that is there too and of the one
that is not, is foretold by a dry run. The templates of the parts refer to the kind of the thing,
which the model leaves as it is. -/
theorem family_foretold : ∃ events, ∃ roots : List Entity, ∃ final, ∃ account : Account,
    Stage.Steps (trial false) (.active ((trial false).document "Thing" family)) events
      (.finished (.value roots)) ∧
    Served (Stored fun path uuid => uuid = uuidAt path) aged (calls events) final ∧
    (visits events).map Visit.references = [[], ["kind"], ["kind"]] ∧
    ((calls events).map fun call => (call.request.method, call.request.path))
      = [(.get, "/blueprints/Thing"), (.get, "/things/a"), (.get, "/parts/old/b"),
        (.get, "/parts/old/c"), (.put, "/parts/old/c")] ∧
    account.Completed (trial false) (.document "Thing" family) events ∧
    (∀ root ∈ account.members, root.2.Agrees aged .empty) ∧
    (Stage.active ((trial true).document "Thing" family)).Ends (trial true)
      (Stored fun path uuid => uuid = uuidAt path)
      (fun outcome last => (∃ results, outcome = .value results) ∧ last = aged) aged ∧
    ∀ others (results : List Entity) last,
      Stage.Steps (trial true) (.active ((trial true).document "Thing" family)) others
        (.finished (.value results)) →
      Served (Stored fun path uuid => uuid = uuidAt path) aged (calls others) last →
      (∃ rehearsal, Account.Completed (trial true) (.document "Thing" family) others rehearsal) ∧
      ∀ rehearsal, Account.Completed (trial true) (.document "Thing" family) others rehearsal →
        rehearsal.Foretells aged account := by
  obtain ⟨checked, first, keeps, referring, requests⟩ := family_endures
  obtain ⟨events, roots, final, steps, served, called, begun, _⟩ := endured checked
  rw [← called] at first requests
  rw [← begun] at keeps referring
  have store := isStore_stored fun path uuid => uuid = uuidAt path
  have plain : (trial false).Plain := ⟨rfl, rfl⟩
  have dry : (trial true).dry = true := rfl
  have unobserved : (trial true).observer = none := rfl
  have sameBlueprints : (trial true).settings.blueprintUri "Thing"
      = (trial false).settings.blueprintUri "Thing" := rfl
  obtain ⟨⟨account, completed⟩, predicts⟩ := Run.dry_run_predicts store plain dry unobserved
    sameBlueprints steps served first
  have agrees := completed.agrees plain (served.answeredFrom store first) keeps
  obtain ⟨ends, foretells⟩ := predicts account completed agrees
  exact ⟨events, roots, final, account, steps, served, referring, requests, completed, agrees, ends,
    foretells⟩

/-! ## A family that is renamed -/

/-- The thing as a new one with its part, and another thing twice. -/
def renewed : String :=
  "[\x7b\"name\":\"a\",\"kind\":\"new\",\"children\":\x7b\"Part\":[\x7b\"name\":\"b\"\x7d]\x7d\x7d,"
    ++ "\x7b\"name\":\"c\"\x7d,\x7b\"name\":\"c\"\x7d]"

/-- The entity of a visit by its label, and where it is looked up. -/
def sought (visit : Visit) : String × Option String :=
  (visit.desired.label, Run.lookupAddress? visit.blueprint visit.lineage visit.desired)

/-- The run finds the part under the old kind, and the other thing after it has been created. -/
theorem renewed_endures : endures aged (attempt false aged renewed) = true ∧
    ((attempt false aged renewed).notices.filterMap Notice.visit?).map sought
      = [("a", some "/things/a"), ("b", some "/parts/old/b"), ("c", some "/things/c"),
        ("c", some "/things/c")] ∧
    ((attempt false aged renewed).server.2.reverse.map fun call =>
        (call.request.method, call.request.path))
      = [(.get, "/blueprints/Thing"), (.get, "/things/a"), (.get, "/parts/old/b"),
        (.get, "/things/c"), (.put, "/things/c"), (.get, "/things/c")] := by decide +kernel

/-- The dry run seeks the part under the new kind, and the other thing is never there. -/
theorem renewed_rehearsed : endures aged (attempt true aged renewed) = true ∧
    ((attempt true aged renewed).notices.filterMap Notice.visit?).map sought
      = [("a", some "/things/a"), ("b", some "/parts/new/b"), ("c", some "/things/c"),
        ("c", some "/things/c")] ∧
    ((attempt true aged renewed).notices.filterMap Notice.report?).map
        (fun report => (report.label, report.isCreation))
      = [("a", false), ("b", true), ("c", true), ("c", true)] := by decide +kernel

/-- A part whose thing was in the store is sought by the dry run where the run does not seek it,
since the model changes the field of the thing to which the template refers. It is reported to be
created, but it is found. And a thing that stands twice in the model is reported twice to be
created, but it is created once, since the run finds it then. -/
theorem renewed_not_foretold : ∃ events others, ∃ roots results : List Entity, ∃ final last,
    Stage.Steps (trial false) (.active ((trial false).document "Thing" renewed)) events
      (.finished (.value roots)) ∧
    Served (Stored fun path uuid => uuid = uuidAt path) aged (calls events) final ∧
    Stage.Steps (trial true) (.active ((trial true).document "Thing" renewed)) others
      (.finished (.value results)) ∧
    Served (Stored fun path uuid => uuid = uuidAt path) aged (calls others) last ∧
    aged "/things/a" ≠ none ∧
    (visits events).map sought = [("a", some "/things/a"), ("b", some "/parts/old/b"),
      ("c", some "/things/c"), ("c", some "/things/c")] ∧
    (visits others).map sought = [("a", some "/things/a"), ("b", some "/parts/new/b"),
      ("c", some "/things/c"), ("c", some "/things/c")] ∧
    ((calls events).map fun call => (call.request.method, call.request.path))
      = [(.get, "/blueprints/Thing"), (.get, "/things/a"), (.get, "/parts/old/b"),
        (.get, "/things/c"), (.put, "/things/c"), (.get, "/things/c")] ∧
    (reports others).map (fun report => (report.label, report.isCreation))
      = [("a", false), ("b", true), ("c", true), ("c", true)] := by
  obtain ⟨endures, places, requests⟩ := renewed_endures
  obtain ⟨alsoEndures, otherPlaces, told⟩ := renewed_rehearsed
  obtain ⟨events, roots, final, steps, served, called, begun, _⟩ := endured endures
  obtain ⟨others, results, last, alsoSteps, alsoServed, _, alsoBegun, reported⟩ :=
    endured alsoEndures
  refine ⟨events, others, roots, results, final, last, steps, served, alsoSteps, alsoServed,
    by decide, ?_, ?_, ?_, ?_⟩
  · rw [begun]
    exact places
  · rw [alsoBegun]
    exact otherPlaces
  · rw [called]
    exact requests
  · rw [reported]
    exact told

end Sample

end DesiredState
