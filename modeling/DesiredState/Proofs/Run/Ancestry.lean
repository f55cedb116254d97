import DesiredState.Proofs.Lineage
import DesiredState.Proofs.Run.Inspection

/-!
# What an entity sees

The handling of an entity begins with a lineage. It is built from nothing but the entities in place
on the way from the root to this entity, root first: what a sibling or a cousin has put in place is
never in it. A type stands where its outermost ancestor stands and holds the deepest one.

**Why accounts.** Tasks side by side hand their lineages on while others are at work, so nothing can
be read off the order of events. In the account of a run the entities on the way to a task are those
of its own tasks above it (`Account.ancestors`), and each task that hands out children adds exactly
one entity to what they see (`GoesOn.lineage`).
-/

set_option autoImplicit false

namespace DesiredState

/-! ## Lineages from ancestors -/

namespace Lineage

/-- The lineage with entities put under their types one by one. -/
def extend (lineage : Lineage) (entities : List Entity) : Lineage :=
  entities.foldl (fun lineage entity => lineage.insert entity.type entity) lineage

@[simp] theorem extend_nil (lineage : Lineage) : lineage.extend [] = lineage := rfl

@[simp] theorem extend_singleton (lineage : Lineage) (entity : Entity) :
    lineage.extend [entity] = lineage.insert entity.type entity := rfl

theorem extend_append (lineage : Lineage) (first second : List Entity) :
    lineage.extend (first ++ second) = (lineage.extend first).extend second :=
  List.foldl_append

/-- The lineage of an entity with the given ancestors, root first. -/
def ofAncestors (ancestors : List Entity) : Lineage := Lineage.empty.extend ancestors

theorem ofAncestors_eq (ancestors : List Entity) :
    ofAncestors ancestors = ofChain (ancestors.map fun entity => (entity.type, entity)) := by
  rw [ofChain, List.foldl_map]
  rfl

theorem names_ofAncestors (ancestors : List Entity) :
    (ofAncestors ancestors).entries.map (·.1) = (ancestors.map Entity.type).eraseDups := by
  rw [ofAncestors_eq, names_ofChain, List.map_map]
  rfl

/-- What stands in a lineage from ancestors is the deepest ancestor of its type. -/
theorem entry_ofAncestors {ancestors : List Entity} :
    ∀ entry ∈ (ofAncestors ancestors).entries,
      ancestors.reverse.find? (·.type = entry.1) = some entry.2 := by
  intro entry member
  rw [ofAncestors_eq] at member
  have deepest := entry_ofChain entry member
  rw [← List.map_reverse, List.find?_map] at deepest
  obtain ⟨entity, found, rfl⟩ := Option.map_eq_some_iff.mp deepest
  exact found

end Lineage

/-! ## What is in place on a way -/

namespace Account

/-- The entity that the task has put in place, if it is the task of an entity and has got so far:
the state that it has remembered, with the children of the desired entity. -/
def placed? (account : Account) : Option Entity :=
  match account.task, account.own.getLast? with
  | .entity visit, some (.remembered _ settled) => some (visit.placed settled)
  | _, _ => none

/-- What is remembered last is in place. -/
theorem placed?_entity (visit : Visit) (event : Event) (own : List Event) (session : SessionId)
    (settled : Entity) (gangs : List (List (Waypoint × Account))) (history : History)
    (fate : Fate) :
    placed? ⟨.entity visit, event :: (own ++ [.remembered session settled]), gangs, history, fate⟩
      = some (visit.placed settled) := by
  rw [placed?, ← List.cons_append, List.getLast?_concat]

/-- What the tasks above a task have of something, root first. -/
def along {α : Type} (what : Account → Option α) (account : Account) (origin : Origin) : List α :=
  (List.range origin.length).filterMap fun depth =>
    (account.part? (origin.take depth)).bind what

/-- The entities in place on the way to a task, root first: those of the tasks above it. -/
def ancestors (account : Account) (origin : Origin) : List Entity := account.along placed? origin

@[simp] theorem ancestors_nil (account : Account) : account.ancestors [] = [] := rfl

/-- What is in place on the way is in place at a task above. -/
theorem of_mem_ancestors {account : Account} {origin : Origin} {entity : Entity}
    (member : entity ∈ account.ancestors origin) : ∃ above place rest part,
      origin = above ++ place :: rest ∧ account.part? above = some part ∧
        part.placed? = some entity := by
  obtain ⟨depth, inside, found⟩ := List.mem_filterMap.mp member
  obtain ⟨part, here, placed⟩ := Option.bind_eq_some_iff.mp found
  have short : depth < origin.length := List.mem_range.mp inside
  exact ⟨origin.take depth, origin[depth], origin.drop (depth + 1), part,
    by rw [← List.drop_eq_getElem_cons short, List.take_append_drop], here, placed⟩

variable {run : Run}

namespace Sound

variable {account : Account}

/-- On the way to a task below, the account itself comes first. -/
theorem along_cons {α : Type} (what : Account → Option α) (sound : account.Sound run)
    (ordered : account.task.Ordered) {member : Waypoint × Account}
    (inside : member ∈ account.members) (rest : Origin) :
    account.along what (member.1 :: rest)
      = (what account).toList ++ member.2.along what rest := by
  have below : ∀ depth, account.part? ((member.1 :: rest).take (depth + 1))
      = member.2.part? (rest.take depth) := fun depth =>
    sound.part?_cons ordered inside (rest.take depth)
  rw [along, List.length_cons, List.range_succ_eq_map, List.filterMap_cons, List.filterMap_map]
  simp only [Function.comp_def, Nat.succ_eq_add_one, below]
  cases here : what account with
  | none => simp [part?, here, along]
  | some value => simp [part?, here, along]

theorem ancestors_cons (sound : account.Sound run) (ordered : account.task.Ordered)
    {member : Waypoint × Account} (inside : member ∈ account.members) (rest : Origin) :
    account.ancestors (member.1 :: rest)
      = account.placed?.toList ++ member.2.ancestors rest :=
  sound.along_cons placed? ordered inside rest

end Sound

end Account

namespace Run

variable {run : Run} {visit : Visit}

/-- What a dry run goes on with has the class of what is desired. -/
theorem className_of_dry (dry : run.dry = true) {sent : List Call} {settled : Entity}
    (sends : (visit.settle run).Sends sent (some settled)) :
    settled.className = visit.desired.className := by
  obtain ⟨path, _, _, rfl, _, goesOn⟩ := Plan.sends_bind.mp sends
  cases path with
  | none =>
      simp only [dry, if_true] at goesOn
      obtain ⟨_, _, _, rfl, _, _, same⟩ := Plan.sends_bind.mp goesOn
      rw [Option.some.inj same]
  | some uri =>
      obtain ⟨response, rest, _, ⟨_, value, found, _, existing, same⟩ | ⟨_, missing⟩⟩ :=
        answered_of_lookup goesOn
      · rw [settleExisting, if_pos dry] at existing
        obtain ⟨shown, _, _, rfl, _, reports⟩ := Plan.sends_bind.mp existing
        obtain ⟨_, _, _, rfl, _, _, laid⟩ := Plan.sends_bind.mp reports
        rw [Option.some.inj same, laid]
        rfl
      · rcases missing with ⟨_, _, nothing⟩ | ⟨wet, _⟩
        · cases nothing
        · rw [dry] at wet
          cases wet

/-- **What is in place is of the type of what is desired**, in a dry run as in any other. -/
theorem type_of_settle (faithful : run.Faithful) {sent : List Call} {settled : Entity}
    (sends : (visit.settle run).Sends sent (some settled)) :
    (visit.placed settled).type = visit.desired.type := by
  have kept : settled.className = visit.desired.className := by
    cases dry : run.dry with
    | true => exact className_of_dry dry sends
    | false => exact className_of_settle dry faithful sends
  exact congrArg ClassName.simple kept

end Run

namespace Task

variable {run : Run}

/-- What a task works with as ancestors; only entities have any. -/
def lineage : Task → Lineage
  | .catalog _ => .empty
  | .document _ _ => .empty
  | .entity visit => visit.lineage

/-- **A task that hands out others adds what it has in place to what they see**, and nothing
else. -/
theorem GoesOn.lineage (faithful : run.Faithful) {account : Account}
    {groups : List (List (Waypoint × Task))} (goesOn : account.task.GoesOn run account.own groups) :
    ∀ group ∈ groups, ∀ handed ∈ group,
      handed.2.lineage = account.task.lineage.extend account.placed?.toList := by
  obtain ⟨task, own, gangs, history, fate⟩ := account
  have goesOn : task.GoesOn run own groups := goesOn
  cases goesOn with
  | catalog documents =>
      intro group member handed inside
      obtain ⟨named, _, rfl⟩ := List.mem_map.mp member
      rw [List.mem_singleton.mp inside]
      rfl
  | document _ =>
      intro group member handed inside
      obtain ⟨root, _, rfl⟩ := List.mem_map.mp member
      rw [List.mem_singleton.mp inside]
      rfl
  | @entity visit own settled settles _ =>
      intro group member handed inside
      obtain ⟨declared, _, rfl⟩ := List.mem_map.mp member
      obtain ⟨child, _, rfl⟩ := List.mem_map.mp inside
      have sends := settles.sends_own (Run.solitary_settle visit.desired)
      rw [Account.placed?_entity, Option.toList_some, Lineage.extend_singleton,
        Run.type_of_settle faithful sends]
      rfl

end Task

/-! ## Whose begin an event is -/

/-- A task that keeps to one entity begins no other one. -/
theorem Plan.Takes.visits_own {run : Run} {α : Type} {recalls : Prop} {plan : Plan α}
    (solitary : plan.Solitary recalls) {own : List Event} {ended : Option (Outcome α)}
    (takes : plan.Takes run (.ofEvents own .idle) ended) : visits own = [] := by
  obtain ⟨events, same, alone, _⟩ := takes.of_solitary solitary
  rw [Course.ofEvents_idle_inj same, alone]

namespace Account

variable {run : Run}

namespace Sound

variable {account : Account}

/-- What a task does itself begins no entity but its own. -/
theorem begins (sound : account.Sound run) {visit : Visit} (begun : visit ∈ visits account.own) :
    account.task = .entity visit := by
  have alone : ∀ {other : Visit} {own : List Event} {ended : Option (Outcome (Option Entity))},
      (other.settle run).Takes run (.ofEvents own .idle) ended → visits own = [] :=
    fun {other} _ _ settles => settles.visits_own (Run.solitary_settle other.desired)
  rcases sound.form with ⟨_, _, stops⟩ | ⟨groups, _, goesOn, _, _⟩
  · generalize account.task = task at stops ⊢
    generalize account.own = own at stops begun
    generalize account.fate = fate at stops
    cases stops with
    | @unopened type text _ _ opens _ =>
        rw [opens.visits_own (Run.solitary_opening type text)] at begun
        nomatch begun
    | unbegun other => nomatch begun
    | unsettled settles _ =>
        rw [visits_cons, alone settles] at begun
        rw [List.mem_singleton.mp begun]
    | undeclared settles _ _ =>
        rw [visits_cons, visits_append, alone settles] at begun
        rw [List.mem_singleton.mp begun]
  · generalize account.task = task at goesOn ⊢
    generalize account.own = own at goesOn begun
    cases goesOn with
    | catalog documents => nomatch begun
    | @document type text _ _ _ opens =>
        rw [opens.visits_own (Run.solitary_opening type text)] at begun
        nomatch begun
    | entity settles _ =>
        rw [visits_cons, visits_append, alone settles] at begun
        rw [List.mem_singleton.mp begun]

/-- The begin of an entity in a history is that of the task at its origin. -/
theorem task_of_begun (sound : account.Sound run) (ordered : account.task.Ordered)
    {origin : Origin} {visit : Visit} (begun : (origin, .told (.begun visit)) ∈ account.history) :
    ∃ part, account.part? origin = some part ∧ part.task = .entity visit := by
  obtain ⟨part, found⟩ := Option.isSome_iff_exists.mp (sound.known ordered _ begun)
  refine ⟨part, found, (sound.of_part? ordered found).1.begins ?_⟩
  have inOwn : Event.told (.begun visit) ∈ account.history.own origin :=
    List.mem_filterMap.mpr ⟨_, begun, if_pos rfl⟩
  obtain ⟨closing, same, quiet⟩ := sound.own ordered found
  rw [same] at inOwn
  rcases List.mem_append.mp inOwn with here | closed
  · exact List.mem_filterMap.mpr ⟨_, here, rfl⟩
  · rcases quiet with rfl | rfl
    · nomatch closed
    · nomatch List.mem_singleton.mp closed

/-! ## The lineage of each task -/

/-- A member was handed out by a task that goes on. -/
theorem goesOn_of_member (sound : account.Sound run) {member : Waypoint × Account}
    (inside : member ∈ account.members) : ∃ groups, account.task.GoesOn run account.own groups ∧
      ∃ group ∈ groups, tag member ∈ group := by
  rcases sound.form with ⟨none, _, _⟩ | ⟨groups, _, goesOn, sequel, _⟩
  · rw [members, none] at inside
    cases inside
  · obtain ⟨gang, inGangs, inGang⟩ := List.mem_flatten.mp inside
    have handed := sequel.handed.subset (List.mem_map_of_mem inGangs)
    exact ⟨groups, goesOn, _, handed, List.mem_map_of_mem inGang⟩

/-- **What a task sees is what the account sees, and what is in place on the way.** -/
theorem lineage (faithful : run.Faithful) :
    ∀ {origin : Origin} {account part : Account}, account.Sound run → account.task.Ordered →
      account.part? origin = some part →
      part.task.lineage = account.task.lineage.extend (account.ancestors origin)
  | [], _, _, _, _, found => by
      cases found
      rfl
  | place :: rest, account, part, sound, ordered, found => by
      obtain ⟨member, inMembers, rfl, below⟩ := member_of_part? found
      obtain ⟨sounds, orders⟩ := sound.of_member ordered member inMembers
      obtain ⟨groups, goesOn, group, inGroups, handed⟩ := sound.goesOn_of_member inMembers
      have hands : member.2.task.lineage
          = account.task.lineage.extend account.placed?.toList :=
        goesOn.lineage faithful group inGroups (tag member) handed
      rw [lineage faithful sounds orders below, sound.ancestors_cons ordered inMembers,
        Lineage.extend_append, hands]

/-- What is in place at a task with others below it. -/
theorem placed_of_member (sound : account.Sound run) {member : Waypoint × Account}
    (inside : member ∈ account.members) {visit : Visit} (entity : account.task = .entity visit) :
    ∃ settled, account.placed? = some (visit.placed settled) ∧
      (visit.settle run).Sends (calls account.own) (some settled) := by
  obtain ⟨groups, goesOn, _⟩ := sound.goesOn_of_member inside
  obtain ⟨task, own, gangs, history, fate⟩ := account
  obtain rfl : task = .entity visit := entity
  have goesOn : (Task.entity visit).GoesOn run own groups := goesOn
  cases goesOn with
  | @entity _ own settled settles _ =>
      refine ⟨settled, placed?_entity .., ?_⟩
      have sent : calls (.told (.begun visit) :: (own ++ [.remembered run.session settled]))
          = calls own := by simp
      rw [sent]
      exact settles.sends_own (Run.solitary_settle visit.desired)

/-- The task above another one has put an entity in place. -/
theorem placed_above : ∀ {above : Origin} {account part below : Account} {place : Waypoint}
    {rest : Origin}, account.Sound run → account.task.Ordered → account.part? above = some part →
    account.part? (above ++ place :: rest) = some below → ∀ {visit : Visit},
    part.task = .entity visit → ∃ settled, part.placed? = some (visit.placed settled) ∧
      (visit.settle run).Sends (calls part.own) (some settled)
  | [], _, _, _, _, _, sound, _, found, deeper, _, entity => by
      cases found
      obtain ⟨member, inMembers, _⟩ := member_of_part? deeper
      exact sound.placed_of_member inMembers entity
  | turn :: above, _, _, _, _, _, sound, ordered, found, deeper, _, entity => by
      obtain ⟨member, inMembers, rfl, below⟩ := member_of_part? found
      obtain ⟨sounds, orders⟩ := sound.of_member ordered member inMembers
      rw [List.cons_append, sound.part?_cons ordered inMembers] at deeper
      exact placed_above sounds orders below deeper entity

end Sound

end Account

namespace Run

/-! ## Lineages in a run -/

/-- The entity of a visit sees the entities in place above its own task, and nothing else. -/
structure SeesAncestors (run : Run) (account : Account) (origin : Origin) (visit : Visit) :
    Prop where
  /-- The visit is that of the task at the end of the way. -/
  task : ∃ part, account.part? origin = some part ∧ part.task = .entity visit
  lineage : visit.lineage = .ofAncestors (account.ancestors origin)
  /-- Each type stands once, at the place of the outermost ancestor of this type. -/
  types : visit.lineage.entries.map (·.1) = ((account.ancestors origin).map Entity.type).eraseDups
  /-- Each type holds the deepest ancestor of this type. -/
  deepest : ∀ entry ∈ visit.lineage.entries, entry.2.type = entry.1 ∧
    (account.ancestors origin).reverse.find? (·.type = entry.1) = some entry.2
  /-- Whatever is seen is in place at a task on the way. -/
  onTheWay : ∀ entry ∈ visit.lineage.entries, ∃ above place rest part,
    origin = above ++ place :: rest ∧ account.part? above = some part ∧
      part.placed? = some entry.2
  /-- Each entity on the way has been settled. -/
  whole : ∀ above place rest part ancestor, origin = above ++ place :: rest →
    account.part? above = some part → part.task = .entity ancestor →
    ∃ settled, part.placed? = some (ancestor.placed settled) ∧
      (ancestor.settle run).Sends (calls part.own) (some settled)

/-- The events are those of an account of the task in which every entity whose handling has begun
sees its own ancestors and nothing else. -/
def Insulates (run : Run) (task : Task) (events : List Event) : Prop :=
  ∃ account : Account, account.task = task ∧ account.Sound run ∧ account.history.events = events ∧
    ∀ origin visit, (origin, Event.told (.begun visit)) ∈ account.history →
      SeesAncestors run account origin visit

variable {run : Run}

/-- What an entity sees is read off the account. -/
theorem seesAncestors_of_begun (faithful : run.Faithful) {account : Account}
    (sound : account.Sound run) (ordered : account.task.Ordered)
    (rootless : account.task.lineage = .empty) {origin : Origin} {visit : Visit}
    (begun : (origin, Event.told (.begun visit)) ∈ account.history) :
    SeesAncestors run account origin visit := by
  obtain ⟨part, found, entity⟩ := sound.task_of_begun ordered begun
  have lineage : visit.lineage = .ofAncestors (account.ancestors origin) := by
    have extended := sound.lineage faithful ordered found
    rwa [entity, rootless] at extended
  have deepest : ∀ entry ∈ visit.lineage.entries,
      (account.ancestors origin).reverse.find? (·.type = entry.1) = some entry.2 := by
    rw [lineage]
    exact Lineage.entry_ofAncestors
  refine ⟨⟨part, found, entity⟩, lineage, ?_, ?_, ?_, ?_⟩
  · rw [lineage]
    exact Lineage.names_ofAncestors _
  · intro entry member
    exact ⟨by simpa using List.find?_some (deepest entry member), deepest entry member⟩
  · intro entry member
    have inside := List.mem_of_find?_eq_some (deepest entry member)
    exact Account.of_mem_ancestors (List.mem_reverse.mp inside)
  · rintro above place rest upper ancestor rfl here task
    exact Account.Sound.placed_above sound ordered here found task

theorem Accounts.insulates (faithful : run.Faithful) {task : Task} (ordered : task.Ordered)
    (rootless : task.lineage = .empty) {events : List Event} {fate : Fate}
    (accounts : Accounts run task events fate) : Insulates run task events := by
  obtain ⟨account, rfl, _, sound, rfl⟩ := accounts
  exact ⟨account, rfl, sound, rfl, fun _ _ begun =>
    seesAncestors_of_begun faithful sound ordered rootless begun⟩

/-- **An entity sees its own ancestors and nothing else.** Wherever a run has got to, dry or not,
whatever it was answered and in whatever order its tasks acted, the lineage with which the handling
of an entity has begun is that of the entities in place on the way to it, root first, if the
observer puts no other entity in the place of one. -/
theorem each_sees_own_ancestors (faithful : run.Faithful) :
    (∀ documents events (stage : Stage ChildTask (List (String × String))),
      Stage.Steps run (.active (run.models documents)) events stage →
        Insulates run (.catalog documents) events) ∧
    (∀ type text events (stage : Stage ChildTask (List Entity)),
      Stage.Steps run (.active (run.document type text)) events stage →
        Insulates run (.document type text) events) ∧
    ∀ visit events (stage : Stage ChildTask (Option Entity)), visit.blueprint.Ordered →
      visit.lineage = .empty →
      Stage.Steps run (.active (run.reconcile visit.blueprint visit.lineage visit.desired)) events
          stage →
        Insulates run (.entity visit) events := by
  refine ⟨?_, ?_, ?_⟩
  · intro documents events stage steps
    obtain ⟨course, takes, orders⟩ := steps.takes
    have ordered : (Task.catalog documents).Ordered := trivial
    exact (accounts_of_models takes orders).insulates faithful ordered rfl
  · intro type text events stage steps
    obtain ⟨course, takes, orders⟩ := steps.takes
    have ordered : (Task.document type text).Ordered := trivial
    exact (accounts_of_document takes orders).insulates faithful ordered rfl
  · intro visit events stage ordered rootless steps
    obtain ⟨course, takes, orders⟩ := steps.takes
    have sorted : (Task.entity visit).Ordered := ordered
    exact (accounts_of_reconcile takes orders).insulates faithful sorted rootless

end Run

/-! ## Things within parts of things -/

namespace Sample

/-- The blueprint of things whose parts have things with parts again. -/
def nest : NameMap Json :=
  ⟨[("children", .object [("Part", .object
      [("children", .object [("Thing", .object
        [("children", .object [("Part", .object [("createUri", .string "/parts/\x7bname\x7d")])]),
          ("createUri", .string "/things/\x7bname\x7d")])]),
        ("createUri", .string "/parts/\x7bname\x7d")])]),
    ("createUri", .string "/things/\x7bname\x7d")], by decide⟩

/-- A store that holds nothing but this blueprint. -/
def nesting : String → Held := fun path => if path = "/blueprints/Thing" then some nest else none

/-- A thing with a part that has a thing with a part, and another thing. -/
def nested : String :=
  "[\x7b\"name\":\"a\",\"children\":\x7b\"Part\":[\x7b\"name\":\"b\",\"children\":"
    ++ "\x7b\"Thing\":[\x7b\"name\":\"c\",\"children\":\x7b\"Part\":["
    ++ "\x7b\"name\":\"d\"\x7d]\x7d\x7d]\x7d\x7d]\x7d\x7d,\x7b\"name\":\"e\"\x7d]"

/-- The entity of a visit and its ancestors by their labels. -/
def outlook (visit : Visit) : String × List (String × String) :=
  (visit.desired.label, visit.lineage.entries.map fun entry => (entry.1, entry.2.label))

/-- The inner thing takes the place of the outer one, and the other thing sees neither. -/
theorem nested_outlooks : Outcome.isValue (attempt false nesting nested).outcome = true ∧
    ((attempt false nesting nested).notices.filterMap Notice.visit?).map outlook
      = [("a", []), ("b", [("Thing", "a")]), ("c", [("Thing", "a"), ("Part", "b")]),
        ("d", [("Thing", "c"), ("Part", "b")]), ("e", [])] := by decide +kernel

/-- In the run of the nested things each of them sees its own ancestors. -/
theorem nested_see_own_ancestors : ∃ events, ∃ roots : List Entity,
    Stage.Steps (trial false) (.active ((trial false).document "Thing" nested)) events
      (.finished (.value roots)) ∧
    (visits events).map outlook
      = [("a", []), ("b", [("Thing", "a")]), ("c", [("Thing", "a"), ("Part", "b")]),
        ("d", [("Thing", "c"), ("Part", "b")]), ("e", [])] ∧
    Run.Insulates (trial false) (.document "Thing" nested) events := by
  obtain ⟨value, outlooks⟩ := nested_outlooks
  obtain ⟨events, roots, steps, _, begun, _⟩ := attempted value
  have faithful : (trial false).Faithful := by
    intro observer here
    nomatch here
  refine ⟨events, roots, steps, ?_, (Run.each_sees_own_ancestors faithful).2.1 _ _ _ _ steps⟩
  rw [begun]
  exact outlooks

end Sample

end DesiredState
