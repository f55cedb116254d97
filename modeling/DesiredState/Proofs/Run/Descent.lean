import DesiredState.Proofs.Run.Sequence
import DesiredState.Proofs.Schedule.Succession
import DesiredState.Proofs.Template
import Mathlib.Data.List.TakeWhile

/-!
# Undeclared children stop their parent

The children that a model gives an entity are those of its child lists, and a blueprint declares
types. The two need not agree. If there is a node of a type that is not declared, the entity fails
for the first such type before anything is done for any child. Otherwise there is one batch for each
declared type of which there are nodes, in name order, up to the first batch that fails
(`Run.descends_if_declared`).

**At any depth.** A parent is any entity with any blueprint and any ancestors. For a whole run the
same is said of the tasks that it consists of: nothing is ever done below an entity that has
undeclared children, wherever in the run it stands.

**Lists without nodes.** An empty list counts as none, whether or not its type is declared. A list
without objects is handled as a batch without children, of which nothing is seen.
-/

set_option autoImplicit false

namespace DesiredState

/-! ## Class names -/

/-- The class name of a type that lies in the package of another class. -/
inductive ClassName.Beside : String → String → String → Prop
  | packaged {path simple type : String} (last : '.' ∉ simple.toList) :
      Beside (path ++ "." ++ simple) type (path ++ "." ++ type)
  | alone {name type : String} (whole : '.' ∉ name.toList) : Beside name type type

theorem ClassName.beside_sibling (className type : String) :
    ClassName.Beside className type (ClassName.sibling className type) := by
  unfold sibling packagePath?
  cases cut : className.toList.reverse.dropWhile (· != '.') with
  | nil =>
      refine .alone fun inside => ?_
      have none := List.dropWhile_eq_nil_iff.mp cut '.' (List.mem_reverse.mpr inside)
      exact absurd none (by decide)
  | cons dot path =>
      obtain ⟨rfl, free, split⟩ := Template.dropWhile_eq_cons cut
      have whole : className = String.ofList path.reverse ++ "." ++
          String.ofList (className.toList.reverse.takeWhile (· != '.')).reverse := by
        apply String.toList_injective
        have parts := congrArg List.reverse split
        simpa using parts
      rw [whole]
      exact .packaged (by simpa using free)

/-! ## Types without a declaration -/

/-- There are nodes of children of the type. -/
def NameMap.Populated (children : NameMap (List Json)) (childType : String) : Prop :=
  ∃ nodes, children.find? childType = some nodes ∧ nodes ≠ []

namespace Blueprint

variable {blueprint : Blueprint} {children : NameMap (List Json)}

/-- There are nodes of children of the type, and the type is not declared. -/
structure Misses (blueprint : Blueprint) (children : NameMap (List Json)) (childType : String) :
    Prop where
  populated : children.Populated childType
  undeclared : ∀ declared ∈ blueprint.childTypes, declared.1 ≠ childType

/-- The type is the first one, in name order, that is not declared and has nodes. -/
structure MissesFirst (blueprint : Blueprint) (children : NameMap (List Json))
    (childType : String) : Prop where
  misses : blueprint.Misses children childType
  first : ∀ other, blueprint.Misses children other → childType ≤ other

end Blueprint

theorem lookupEntry_eq_none_iff {β : Type} {name : String} {entries : List (String × β)} :
    lookupEntry name entries = none ↔ ∀ entry ∈ entries, entry.1 ≠ name := by
  induction entries with
  | nil => simp [lookupEntry]
  | cons entry rest ih =>
      by_cases here : name = entry.1
      · simp [lookupEntry, here]
      · simp [lookupEntry, here, ih, Ne.symm (Ne.intro here)]

namespace Run

variable {run : Run}

/-- An entry of the child lists gives a missed type. -/
theorem misses_iff {blueprint : Blueprint} {children : NameMap (List Json)}
    {entry : String × List Json} (inside : entry ∈ children.entries) :
    blueprint.Misses children entry.1 ↔
      (!entry.2.isEmpty && (blueprint.child? entry.1).isNone) = true := by
  have found : children.find? entry.1 = some entry.2 :=
    lookupEntry_of_mem children.ordered entry inside
  simp only [Bool.and_eq_true, Bool.not_eq_true', Option.isNone_iff_eq_none, Blueprint.child?,
    lookupEntry_eq_none_iff, List.isEmpty_eq_false_iff]
  constructor
  · rintro ⟨⟨nodes, same, some⟩, undeclared⟩
    obtain rfl := Option.some.inj (found.symm.trans same)
    exact ⟨some, undeclared⟩
  · rintro ⟨some, undeclared⟩
    exact ⟨⟨_, found, some⟩, undeclared⟩

/-- A missed type has an entry among the child lists. -/
theorem entry_of_misses {blueprint : Blueprint} {children : NameMap (List Json)}
    {childType : String} (misses : blueprint.Misses children childType) :
    ∃ entry ∈ children.entries, entry.1 = childType := by
  obtain ⟨nodes, found, _⟩ := misses.populated
  exact ⟨_, mem_of_lookupEntry found, rfl⟩

theorem missesFirst_of_undeclared? {blueprint : Blueprint} {parent : Entity} {childType : String}
    (undeclared : undeclared? blueprint parent = some childType) :
    blueprint.MissesFirst parent.children childType := by
  obtain ⟨entry, found, rfl⟩ := Option.map_eq_some_iff.mp undeclared
  obtain ⟨missed, before, after, split, earlier⟩ := List.find?_eq_some_iff_append.mp found
  have inside : entry ∈ parent.children.entries := List.mem_of_find?_eq_some found
  refine ⟨(misses_iff inside).mpr missed, fun other misses => ?_⟩
  obtain ⟨otherEntry, member, rfl⟩ := entry_of_misses misses
  have ordered := parent.children.ordered
  rw [split] at member ordered
  rcases List.mem_append.mp member with ahead | behind
  · have passed := earlier otherEntry ahead
    rw [(misses_iff (split ▸ member)).mp misses] at passed
    cases passed
  · rcases List.mem_cons.mp behind with rfl | later
    · exact String.le_refl _
    · have follows := (List.pairwise_cons.mp (List.pairwise_append.mp ordered).2.1).1
      exact String.not_lt.mp (String.lt_asymm (follows otherEntry later))

theorem not_misses_of_undeclared? {blueprint : Blueprint} {parent : Entity}
    (declared : undeclared? blueprint parent = none) (childType : String) :
    ¬ blueprint.Misses parent.children childType := by
  intro misses
  obtain ⟨entry, member, rfl⟩ := entry_of_misses misses
  have passed := List.find?_eq_none.mp (Option.map_eq_none_iff.mp declared) entry member
  exact passed ((misses_iff member).mp misses)

/-- Whether there are nodes of children of a declared type. -/
def populated (parent : Entity) (declared : String × Blueprint) : Bool :=
  !((parent.children.find? declared.1).getD []).isEmpty

/-- The nodes of a declared type have been handled as one batch as far as the events show, and if
this has ended, with the outcome. -/
def HandlesBatch (run : Run) (parent : Entity) (lineage : Lineage) (declared : String × Blueprint)
    (events : List Event) (outcome : Option (Outcome Unit)) : Prop :=
  ∃ nodes className, ∃ reached : Stage ChildTask Unit,
    parent.children.find? declared.1 = some nodes ∧ nodes ≠ [] ∧
    (declared.2.className = some className ∨
      declared.2.className = none ∧ ClassName.Beside parent.className declared.1 className) ∧
    Stage.Steps run (.active (run.children
      { type := ClassName.simple className
        blueprint := declared.2
        children := Document.entities className nodes
        lineage })) events reached ∧
    reached.outcome? = outcome

/-- Skipped nodes are only logged. -/
theorem silent_logSkipped {className : String} {nodes : List Json} {events : List Event}
    {stage : Stage ChildTask Unit}
    (steps : Stage.Steps run (.active (logSkipped className nodes)) events stage) :
    events = [] ∧ ∀ ended, stage.outcome? = some ended → ended = .value () := by
  have logged := steps.inTurn.filter (fun _ => false) ?_
  · rw [List.filter_false] at logged
    generalize stage.outcome? = outcome at logged
    cases logged with
    | resting => exact ⟨rfl, fun ended closed => by cases closed⟩
    | ended => exact ⟨rfl, fun ended closed => (Option.some.inj closed).symm⟩
  · rintro node _ _ events _ ⟨reached, steps, rfl⟩
    cases steps with
    | refl => exact ⟨rfl, fun ended closed => by cases closed⟩
    | head step rest =>
        cases step
        obtain ⟨rfl, rfl | rfl⟩ := rest.of_done
        · exact ⟨rfl, fun ended closed => by cases closed⟩
        · exact ⟨rfl, fun ended closed => (Option.some.inj closed).symm⟩

theorem idle_of_not_populated {parent : Entity} {lineage : Lineage}
    {declared : String × Blueprint} (nobody : populated parent declared = false)
    {events : List Event} {stage : Stage ChildTask Unit}
    (steps : Stage.Steps run (.active (run.childrenOfType parent lineage declared)) events stage) :
    events = [] ∧ ∀ ended, stage.outcome? = some ended → ended = .value () := by
  have nothing : run.childrenOfType parent lineage declared = .done (.value ()) := by
    unfold childrenOfType
    cases found : parent.children.find? declared.1 with
    | none => rfl
    | some nodes =>
        cases nodes with
        | nil => rfl
        | cons node nodes => simp [populated, found] at nobody
  rw [nothing] at steps
  obtain ⟨rfl, rfl | rfl⟩ := steps.of_done
  · exact ⟨rfl, fun ended closed => by cases closed⟩
  · exact ⟨rfl, fun ended closed => (Option.some.inj closed).symm⟩

theorem handlesBatch_of_populated {parent : Entity} {lineage : Lineage}
    {declared : String × Blueprint} (somebody : populated parent declared = true)
    {events : List Event} {stage : Stage ChildTask Unit}
    (steps : Stage.Steps run (.active (run.childrenOfType parent lineage declared)) events stage) :
    run.HandlesBatch parent lineage declared events stage.outcome? := by
  obtain ⟨nodes, found, some⟩ : parent.children.Populated declared.1 := by
    cases found : parent.children.find? declared.1 with
    | none => simp [populated, found] at somebody
    | some nodes => exact ⟨nodes, found, by simpa [populated, found] using somebody⟩
  have named : declared.2.className = Option.some (childClassName parent declared.1 declared.2) ∨
      declared.2.className = none ∧
        ClassName.Beside parent.className declared.1
          (childClassName parent declared.1 declared.2) := by
    unfold childClassName
    cases declared.2.className with
    | none => exact .inr ⟨rfl, ClassName.beside_sibling _ _⟩
    | some className => exact .inl rfl
  refine ⟨nodes, childClassName parent declared.1 declared.2, ?_⟩
  have whole : run.childrenOfType parent lineage declared =
      (logSkipped (childClassName parent declared.1 declared.2) nodes).bind fun _ =>
        run.children
          { type := ClassName.simple (childClassName parent declared.1 declared.2)
            blueprint := declared.2
            children := Document.entities (childClassName parent declared.1 declared.2) nodes
            lineage } := by
    cases nodes with
    | nil => exact absurd rfl some
    | cons node nodes => simp only [childrenOfType, found]; rfl
  rw [whole] at steps
  rcases steps.of_active_bind with
    ⟨reached, own, rfl⟩ | ⟨⟨⟩, first, second, rfl, own, follows⟩
  · obtain ⟨rfl, ends⟩ := silent_logSkipped own
    refine ⟨_, found, some, named, .refl _, ?_⟩
    cases reached with
    | finished outcome =>
        obtain rfl := ends outcome rfl
        rfl
    | _ => rfl
  · obtain ⟨rfl, _⟩ := silent_logSkipped own
    exact ⟨stage, found, some, named, follows, rfl⟩

/-- What becomes of the children of a parent that has the given blueprint and, with itself, the
given lineage. -/
structure Descends (run : Run) (blueprint : Blueprint) (parent : Entity) (lineage : Lineage) :
    Prop where
  /-- Where a type is missed, there is a first one. -/
  first : ∀ {childType : String}, blueprint.Misses parent.children childType →
    ∃ first, blueprint.MissesFirst parent.children first
  /-- The parent fails for the first type that is missed, and nothing else is done. -/
  missed : ∀ {childType : String}, blueprint.MissesFirst parent.children childType →
    Stage.Steps run (.active (run.descend blueprint parent lineage)) []
        (.finished (.failed (.childrenUndeclared parent.type childType))) ∧
      ∀ {events : List Event} {stage : Stage ChildTask Unit},
        Stage.Steps run (.active (run.descend blueprint parent lineage)) events stage →
        events = [] ∧ ∀ outcome, stage.outcome? = some outcome →
          outcome = .failed (.childrenUndeclared parent.type childType)
  /-- If no type is missed, there is one batch after another, in name order, for the types that are
  declared and have nodes. -/
  batches : (∀ childType, ¬ blueprint.Misses parent.children childType) →
    ∃ types : List (String × Blueprint), NamesIncrease types ∧
      (∀ declared, declared ∈ types ↔
        declared ∈ blueprint.childTypes ∧ parent.children.Populated declared.1) ∧
      ∀ {events : List Event} {stage : Stage ChildTask Unit},
        Stage.Steps run (.active (run.descend blueprint parent lineage)) events stage →
        Stage.InTurn (run.HandlesBatch parent lineage) types events stage.outcome?

theorem populated_iff {parent : Entity} {declared : String × Blueprint} :
    populated parent declared = true ↔ parent.children.Populated declared.1 := by
  unfold populated NameMap.Populated
  cases parent.children.find? declared.1 <;> simp

theorem descends {blueprint : Blueprint} (increase : NamesIncrease blueprint.childTypes)
    (parent : Entity) (lineage : Lineage) : run.Descends blueprint parent lineage where
  first misses := by
    cases found : undeclared? blueprint parent with
    | none => exact absurd misses (not_misses_of_undeclared? found _)
    | some first => exact ⟨first, missesFirst_of_undeclared? found⟩
  missed {childType} first := by
    have fails : run.descend blueprint parent lineage =
        .done (.failed (.childrenUndeclared parent.type childType)) := by
      cases found : undeclared? blueprint parent with
      | none => exact absurd first.misses (not_misses_of_undeclared? found childType)
      | some other =>
          have otherFirst := missesFirst_of_undeclared? found
          obtain rfl := String.le_antisymm (first.first other otherFirst.misses)
            (otherFirst.first childType first.misses)
          simp only [descend, found, Plan.fail]
    rw [fails]
    refine ⟨.single (.finish _), fun {events stage} steps => ?_⟩
    obtain ⟨rfl, rfl | rfl⟩ := steps.of_done
    · exact ⟨rfl, fun outcome closed => by cases closed⟩
    · exact ⟨rfl, fun outcome closed => (Option.some.inj closed).symm⟩
  batches declared := by
    refine ⟨blueprint.childTypes.filter (populated parent), increase.filter _, fun declared => ?_,
      fun {events stage} steps => ?_⟩
    · rw [List.mem_filter, populated_iff]
    · have whole : run.descend blueprint parent lineage =
          Plan.forEach (run.childrenOfType parent lineage) blueprint.childTypes := by
        cases found : undeclared? blueprint parent with
        | none => simp only [descend, found]
        | some childType =>
            exact absurd (missesFirst_of_undeclared? found).misses (declared childType)
      rw [whole] at steps
      refine (steps.inTurn.filter (populated parent) ?_).imp ?_
      · rintro declared _ nobody events _ ⟨reached, own, rfl⟩
        exact idle_of_not_populated nobody own
      · rintro declared member events _ ⟨reached, own, rfl⟩
        exact handlesBatch_of_populated (List.mem_filter.mp member).2 own

/-- Nothing is done below an entity that has undeclared children. -/
theorem nothing_below {account : Account} (sound : account.Sound run)
    (ordered : account.task.Ordered) {origin : Origin} {part : Account} {visit : Visit}
    (found : account.part? origin = some part) (entity : part.task = .entity visit)
    {childType : String} (misses : visit.blueprint.Misses visit.desired.children childType)
    (place : Waypoint) (rest : Origin) (event : Event) :
    (origin ++ place :: rest, event) ∉ account.history := by
  intro member
  obtain ⟨before, after, split⟩ := List.append_of_mem member
  obtain ⟨parent, groups, again, goesOn, _⟩ := sound.parent_first ordered split
  obtain rfl := Option.some.inj (found.symm.trans again)
  rw [entity] at goesOn
  generalize part.own = own at goesOn
  cases goesOn with
  | entity settles declared => exact not_misses_of_undeclared? declared childType misses

/-- **Undeclared children stop their parent.** Whatever parent, blueprint and ancestors: if there
are nodes of children of a type that is not declared, nothing is done for any child, and the parent
fails for the first such type. Otherwise there is one batch for each declared type with nodes, in
name order, and a batch that fails is the last. In a whole run nothing is done below an entity that
has undeclared children. -/
theorem descends_if_declared :
    (∀ {blueprint : Blueprint} (parent : Entity) (lineage : Lineage), blueprint.Ordered →
      run.Descends blueprint parent lineage) ∧
    ∀ {documents : List (String × String)} {events : List Event}
      {stage : Stage ChildTask (List (String × String))},
      Stage.Steps run (.active (run.models documents)) events stage →
      ∃ account : Account, account.task = .catalog documents ∧ account.Sound run ∧
        account.history.events = events ∧
        ∀ {origin part visit childType}, account.part? origin = some part →
          part.task = .entity visit → visit.blueprint.Misses visit.desired.children childType →
          ∀ place rest event, (origin ++ place :: rest, event) ∉ account.history := by
  refine ⟨fun parent lineage ordered => descends ordered.increase parent lineage,
    fun {documents events stage} steps => ?_⟩
  obtain ⟨course, takes, orders⟩ := steps.takes
  obtain ⟨account, task, _, sound, same⟩ := accounts_of_models takes orders
  have ordered : account.task.Ordered := by
    rw [task]
    exact trivial
  exact ⟨account, task, sound, same, fun {origin part visit childType} found entity misses =>
    nothing_below sound ordered found entity misses⟩

end Run

/-! ## A wheel that nobody declared -/

namespace Sample

/-- A type with two child types, one of which has a class of its own. -/
def machine : Blueprint :=
  { Blueprint.blank with
    children := some
      [("Alpha", .blank), ("Part", { Blueprint.blank with className := "org.Gear" })] }

/-- A machine with the given child lists. -/
def machineWith (children : NameMap (List Json)) : Entity :=
  ⟨"org.example.Machine", .empty, children, false, false⟩

/-- The second and the third type are not declared. -/
def overfull : NameMap (List Json) :=
  ⟨[("Alpha", [.object []]), ("Gear", [.null]), ("Wheel", [.object []])], by decide⟩

/-- An empty list needs no declaration. -/
def tidy : NameMap (List Json) :=
  ⟨[("Gear", []), ("Part", [.object []])], by decide⟩

theorem ordered_machine : machine.Ordered :=
  .mk (by decide) (List.forall_mem_cons.mpr
    ⟨.blank, List.forall_mem_singleton.mpr (.mk .nil (List.forall_mem_nil _))⟩)

/-- A run of the children of a machine with a part, whose type has a class of its own. -/
def furnished : RunResult ((String → Unit) × List Call) Unit :=
  engine.execute ⟨⟨0⟩, .direct, .recorded refusing⟩ 100
    (·.descend machine (machineWith tidy) .empty) (fun _ => (), [])

/-- The part is handled under its class, and the run succeeds. -/
theorem furnished_stands : Outcome.isValue furnished.outcome = true ∧
    (furnished.notices.filterMap Notice.visit?).map (·.desired.className) = ["org.Gear"] ∧
    furnished.server.2.reverse.map (·.request.method) = [.put] := by
  decide +kernel

/-- A thing with a part and with a wheel. -/
def wheeled : String :=
  "[\x7b\"name\":\"a\",\"children\":\x7b\"Part\":[\x7b\"name\":\"b\"\x7d],"
    ++ "\"Wheel\":[\x7b\"name\":\"w\"\x7d]\x7d\x7d]"

/-- The run of a catalog that refers to this thing. -/
def halted : RunResult ((String → Unit) × List Call) (List (String × String)) :=
  engine.execute ⟨⟨0⟩, .direct, .recorded refusing⟩ 100 (·.models [("Thing", wheeled)])
    (fun _ => (), [])

/-- The thing is created, and the run fails. -/
theorem halted_stands : Fate.of halted.outcome = .failed ∧
    halted.server.2.reverse.map (·.request.path) = ["/blueprints/Thing", "/things/a"] := by
  decide +kernel

/-- The machine fails for its gear and nothing is done for its children; without a gear there is one
batch for each type that has nodes, and its part is created under the class of its type. The thing
with a wheel has been created, but not its part. -/
theorem wheel_stops_thing :
    (∀ {events : List Event} {stage : Stage ChildTask Unit},
      Stage.Steps (engine.run api)
        (.active ((engine.run api).descend machine (machineWith overfull) .empty)) events stage →
      events = [] ∧ ∀ outcome, stage.outcome? = some outcome →
        outcome = .failed (.childrenUndeclared "Machine" "Gear")) ∧
    (∃ events, ∃ types : List (String × Blueprint),
      Stage.Steps (engine.run api)
        (.active ((engine.run api).descend machine (machineWith tidy) .empty)) events
        (.finished (.value ())) ∧
      (visits events).map (·.desired.className) = ["org.Gear"] ∧
      (calls events).map (·.request.method) = [.put] ∧
      (∀ declared, declared ∈ types ↔
        declared ∈ machine.childTypes ∧ tidy.Populated declared.1) ∧
      Stage.InTurn ((engine.run api).HandlesBatch (machineWith tidy) .empty) types events
        (some (.value ()))) ∧
    ∃ events, ∃ outcome, ∃ account : Account,
      Stage.Steps (engine.run api) (.active ((engine.run api).models [("Thing", wheeled)])) events
        (.finished outcome) ∧
      (calls events).map (·.request.path) = ["/blueprints/Thing", "/things/a"] ∧
      account.Sound (engine.run api) ∧ account.history.events = events ∧
      ∀ {origin part visit childType}, account.part? origin = some part →
        part.task = .entity visit → visit.blueprint.Misses visit.desired.children childType →
        ∀ place rest event, (origin ++ place :: rest, event) ∉ account.history := by
  obtain ⟨parents, runs⟩ := @Run.descends_if_declared (engine.run api)
  refine ⟨?_, ?_, ?_⟩
  · have missing : Run.undeclared? machine (machineWith overfull) = some "Gear" := by decide
    have typed : (machineWith overfull).type = "Machine" := by decide
    intro events stage steps
    rw [← typed]
    exact ((parents (machineWith overfull) .empty ordered_machine).missed
      (Run.missesFirst_of_undeclared? missing)).2 steps
  · have declared : Run.undeclared? machine (machineWith tidy) = none := by decide
    obtain ⟨types, _, same, inTurn⟩ := (parents (machineWith tidy) .empty ordered_machine).batches
      (Run.not_misses_of_undeclared? declared)
    obtain ⟨succeeds, classes, methods⟩ := furnished_stands
    obtain ⟨⟨⟩, ended⟩ := Outcome.value_of_isValue succeeds
    obtain ⟨events, steps, _, called, begun, _⟩ :=
      Engine.execute_recorded _ _ _ _ _ _ _ (rfl : _ = furnished) ended
    exact ⟨events, types, steps, by rw [begun, classes], by rw [called, methods], same,
      inTurn steps⟩
  · obtain ⟨fate, paths⟩ := halted_stands
    cases ended : halted.outcome with
    | none =>
        rw [ended] at fate
        cases fate
    | some outcome =>
        obtain ⟨events, steps, _, called, _⟩ :=
          Engine.execute_recorded _ _ _ _ _ _ _ (rfl : _ = halted) ended
        obtain ⟨account, _, sound, same, nothing⟩ := runs steps
        exact ⟨events, outcome, account, steps, by rw [called, paths], sound, same, nothing⟩

end Sample

end DesiredState
