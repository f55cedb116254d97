import DesiredState.Proofs.Run.Keeping
import DesiredState.Proofs.Run.Placing
import DesiredState.Proofs.Schedule.Retrace

/-!
# Entities whose fate is known

A completed run tells what a store holds in the end, and so what becomes of each entity of the
model: it is found with the fields that are held at its address, or it is created and then has
these fields (`Foreseen`). Any other run of the model that works on a store between the first
and the last one can do nothing else, since it asks for the same addresses and sends the same
bodies.

**What changes.** An entity is foreseen at its address, and whatever differs between the first
store and the last one differs at the address of an entity that is reached from the roots
(`EstablishesDocument.foresees`). The blueprint was found, so it stays, even if an entity has its
path as an address.
-/

set_option autoImplicit false

namespace DesiredState

/-- An entity in place: the fields that a store holds, and the children of the model. -/
def Entity.placed (fields : NameMap Json) (desired : Entity) : Entity :=
  { Entity.ofRemote (.ofMap fields) desired.className with children := desired.children }

namespace Run

variable {assigns : String → String → Prop} {start final : String → Held}

/-- The entity and all below it are in place at the end, and were found or are created so. -/
inductive Foreseen (assigns : String → String → Prop) (start final : String → Held) :
    Blueprint → Lineage → Entity → Prop
  | mk {blueprint : Blueprint} {lineage : Lineage} {desired : Entity} (uri : String)
      (fields : NameMap Json) (address : Visit.address? ⟨blueprint, lineage, desired⟩ = some uri)
      (held : final uri = some fields)
      (origin : start uri = some fields ∨ start uri = none ∧
        ∃ entity, linked blueprint lineage desired = .ok entity ∧
          blueprint.createMethod.isWrite = true ∧ Completes assigns uri entity.fields fields)
      (declared : undeclared? blueprint (.placed fields desired) = none)
      (each : ∀ child ∈ blueprint.offspring (.placed fields desired),
        Foreseen assigns start final child.1 (lineage.insert desired.type (.placed fields desired))
          child.2) :
      Foreseen assigns start final blueprint lineage desired

/-- What is foreseen is in place at the end, and stays so. -/
theorem Foreseen.settled {blueprint : Blueprint} {lineage : Lineage} {desired : Entity}
    (foreseen : Foreseen assigns start final blueprint lineage desired) :
    Foreseen assigns final final blueprint lineage desired := by
  induction foreseen with
  | mk uri fields address held _ declared _ ih =>
      exact .mk uri fields address held (.inl held) declared ih

/-- The path is the address of the entity or of one below it. -/
inductive Reaches (final : String → Held) (path : String) : Blueprint → Lineage → Entity → Prop
  | here {blueprint : Blueprint} {lineage : Lineage} {desired : Entity}
      (address : Visit.address? ⟨blueprint, lineage, desired⟩ = some path) :
      Reaches final path blueprint lineage desired
  | descend {blueprint : Blueprint} {lineage : Lineage} {desired : Entity} {uri : String}
      {fields : NameMap Json} (address : Visit.address? ⟨blueprint, lineage, desired⟩ = some uri)
      (held : final uri = some fields) (child : Blueprint × Entity)
      (member : child ∈ blueprint.offspring (.placed fields desired)) :
      Reaches final path child.1 (lineage.insert desired.type (.placed fields desired)) child.2 →
      Reaches final path blueprint lineage desired

/-- A path that is reached holds nothing at the start, or what it holds in the end. -/
theorem Reaches.start_eq {path : String} {blueprint : Blueprint} {lineage : Lineage}
    {desired : Entity} (reaches : Reaches final path blueprint lineage desired) :
    Foreseen assigns start final blueprint lineage desired →
      start path = none ∨ start path = final path := by
  induction reaches with
  | here address =>
      rintro ⟨uri, fields, known, held, origin, _, _⟩
      obtain rfl := Option.some.inj (address.symm.trans known)
      rcases origin with before | ⟨absent, _⟩
      · exact .inr (before.trans held.symm)
      · exact .inl absent
  | descend address held child member _ ih =>
      rintro ⟨uri, fields, known, also, _, _, each⟩
      obtain rfl := Option.some.inj (address.symm.trans known)
      obtain rfl := Option.some.inj (held.symm.trans also)
      exact ih (each child member)

/-! ## What a completed run foresees -/

variable {run : Run} {blueprint : Blueprint} {lineage : Lineage} {desired : Entity}

/-- The calls that place an entity say what its path holds at the end. -/
theorem Places.outcome {uri : String} {sent : List Call} {placed : Entity} {first last : Held}
    (places : Places run blueprint lineage desired uri sent placed)
    (served : ServedAt (Stored assigns) first sent last) :
    ∃ fields, last = some fields ∧
      { placed with children := desired.children } = Entity.placed fields desired ∧
      (first = some fields ∨ first = none ∧
        ∃ entity, linked blueprint lineage desired = .ok entity ∧
          blueprint.createMethod.isWrite = true ∧ Completes assigns uri entity.fields fields) := by
  cases places with
  | found status spelled =>
      cases served with
      | cons _ stored rest =>
          obtain ⟨rfl, response, same, answer⟩ := stored.of_get
          cases same
          rcases answer with ⟨fields, rfl, _, shows_⟩ | ⟨_, missing⟩
          · obtain rfl := servedAt_nil.mp rest
            obtain rfl := Option.some.inj (spelled.symm.trans shows_)
            exact ⟨fields, rfl, rfl, .inl rfl⟩
          · exact absurd (status.symm.trans missing) (by decide)
  | created status links writes told =>
      cases served with
      | cons _ stored rest =>
          obtain ⟨rfl, response, same, answer⟩ := stored.of_get
          cases same
          rcases answer with ⟨_, _, found, _⟩ | ⟨rfl, _⟩
          · exact absurd (status.symm.trans found) (by decide)
          · cases rest with
            | cons _ stored rest =>
                obtain ⟨object, fields, response, body, completes, rfl, answered, success,
                  shows_⟩ := stored.of_write
                obtain rfl := servedAt_nil.mp rest
                obtain rfl := Json.ofMap_inj body
                simp only at answered
                rw [answered, Access.written_of_shows success shows_] at told
                cases told
                refine ⟨fields, rfl, ?_, .inr ⟨rfl, _, links, writes, completes⟩⟩
                rw [Entity.placed, ← (linked_parts links).1]
                rfl

/-- No call of a branch goes to a path that is no address in it. -/
theorem callsAt_branch_eq_nil {branch : Branch} {path : String}
    (confined : ∀ call ∈ calls branch.course.inTurn,
      some call.request.path ∈ branch.course.addresses)
    (elsewhere : some path ∉ branch.course.addresses) :
    callsAt path (calls branch.course.inTurn) = [] := by
  refine callsAt_eq_nil.mpr fun call called same => elsewhere ?_
  rw [← same]
  exact confined call called

theorem callsAt_branches_eq_nil {path : String} : ∀ {branches : List Branch},
    (∀ branch ∈ branches, ∀ call ∈ calls branch.course.inTurn,
      some call.request.path ∈ branch.course.addresses) →
    (∀ branch ∈ branches, some path ∉ branch.course.addresses) →
      callsAt path (calls (branches.flatMap fun branch => branch.course.inTurn)) = []
  | [], _, _ => rfl
  | branch :: branches, confined, elsewhere => by
      obtain ⟨here, there⟩ := List.forall_mem_cons.mp confined
      obtain ⟨first, rest⟩ := List.forall_mem_cons.mp elsewhere
      rw [List.flatMap_cons, calls_append, callsAt_append, callsAt_branch_eq_nil here first,
        callsAt_branches_eq_nil there rest, List.nil_append]

/-- The calls of an address are those of its branch. -/
theorem callsAt_branches {path : String} {branch : Branch} :
    ∀ {branches : List Branch},
      (∀ branch ∈ branches, ∀ call ∈ calls branch.course.inTurn,
        some call.request.path ∈ branch.course.addresses) →
      (branches.Pairwise fun left right => ∀ one ∈ left.course.addresses,
        ∀ other ∈ right.course.addresses, one ≠ other) →
      branch ∈ branches → some path ∈ branch.course.addresses →
      callsAt path (calls (branches.flatMap fun branch => branch.course.inTurn))
        = callsAt path (calls branch.course.inTurn)
  | [], _, _, member, _ => nomatch member
  | first :: branches, confined, between, member, inside => by
      obtain ⟨here, there⟩ := List.forall_mem_cons.mp confined
      obtain ⟨different, rest⟩ := List.pairwise_cons.mp between
      rw [List.flatMap_cons, calls_append, callsAt_append]
      rcases List.mem_cons.mp member with rfl | later
      · have others : ∀ other ∈ branches, some path ∉ other.course.addresses :=
          fun other among also => different other among _ inside _ also rfl
        rw [callsAt_branches_eq_nil there others, List.append_nil]
      · have elsewhere : some path ∉ first.course.addresses :=
          fun also => different branch later _ also _ inside rfl
        rw [callsAt_branch_eq_nil here elsewhere, callsAt_branches there rest later inside,
          List.nil_append]

/-- **What has been established is foreseen, and each of its addresses is reached.** -/
theorem foreseen_of_establishes {course : Course}
    (establishes : Establishes run blueprint lineage desired course) :
    course.addresses.Nodup →
    (∀ path, some path ∈ course.addresses →
      ServedAt (Stored assigns) (start path) (callsAt path (calls course.inTurn)) (final path)) →
    Foreseen assigns start final blueprint lineage desired ∧
      ∀ path, some path ∈ course.addresses → Reaches final path blueprint lineage desired := by
  induction establishes with
  | @mk blueprint lineage desired own uri placed broods alone address places declared whole each
      ih =>
      intro nodup served
      rw [Establishes.addresses_mk alone, address] at nodup served ⊢
      obtain ⟨fresh, below⟩ := List.nodup_cons.mp nodup
      obtain ⟨inside, between⟩ := List.pairwise_flatMap.mp below
      have confined : ∀ branch ∈ broods.flatten, ∀ call ∈ calls branch.course.inTurn,
          some call.request.path ∈ branch.course.addresses :=
        fun branch member => (each branch member).confined
      have parts : ∀ path, callsAt path (calls (Course.act (.told (.begun
            ⟨blueprint, lineage, desired⟩)) (.ofEvents own (.act
              (.remembered run.session placed) (.forks broods)))).inTurn)
          = callsAt path (calls own) ++ callsAt path (calls (broods.flatten.flatMap fun branch =>
            branch.course.inTurn)) := by
        intro path
        simp only [Course.inTurn_act, Course.inTurn_ofEvents, Course.inTurn_forks, calls_cons,
          calls_append, callsAt_append, Event.call?, Option.toList, List.nil_append]
      have mine : callsAt uri (calls own) = calls own :=
        List.filter_eq_self.mpr fun call member => by simp [places.path_eq call member]
      have atHome := served uri List.mem_cons_self
      rw [parts, mine, callsAt_branches_eq_nil confined fun branch member also =>
        fresh (List.mem_flatMap.mpr ⟨branch, member, also⟩), List.append_nil] at atHome
      obtain ⟨fields, held, same, origin⟩ := places.outcome atHome
      rw [same] at declared whole ih
      have deeper : ∀ branch (member : branch ∈ broods.flatten), _ := fun branch member =>
        ih branch member (inside branch member) fun path here => by
          have there := served path
            (List.mem_cons_of_mem _ (List.mem_flatMap.mpr ⟨branch, member, here⟩))
          have elsewhere : callsAt path (calls own) = [] := by
            rw [callsAt_eq_nil]
            intro call called same
            apply fresh
            rw [← places.path_eq call called, same]
            exact List.mem_flatMap.mpr ⟨branch, member, here⟩
          rwa [parts, elsewhere, List.nil_append,
            callsAt_branches confined between member here] at there
      refine ⟨.mk uri fields address held origin declared ?_, ?_⟩
      · intro child member
        rw [← whole] at member
        obtain ⟨branch, inBroods, rfl⟩ := List.mem_map.mp member
        exact (deeper branch inBroods).1
      · intro path here
        rcases List.mem_cons.mp here with same | later
        · cases same
          exact .here address
        · obtain ⟨branch, inBroods, within⟩ := List.mem_flatMap.mp later
          exact .descend address held _ (mem_of_branch whole inBroods)
            ((deeper branch inBroods).2 path within)

/-- What a completed run of a document says of the store it began with and the one it left. -/
structure ForeseesDocument (assigns : String → String → Prop) (start final : String → Held)
    (uri : String) (config : NameMap Json) (blueprint : Blueprint) (roots : List Entity) :
    Prop where
  found : start uri = some config
  kept : final uri = some config
  reads : Blueprint.read (.ofMap config) = .ok blueprint
  each : ∀ root ∈ roots, Foreseen assigns start final blueprint .empty root
  changes : ∀ path, start path ≠ final path →
    ∃ root ∈ roots, Reaches final path blueprint .empty root

/-- A fetch leaves the store as it is and shows the blueprint that it holds. -/
theorem Fetches.served {type : String} {sent : List Call}
    (fetches : Fetches run type sent blueprint) {last : String → Held}
    (served : Served (Stored assigns) start sent last) :
    last = start ∧ ∃ config, start (run.settings.blueprintUri type) = some config ∧
      Blueprint.read (.ofMap config) = .ok blueprint := by
  obtain ⟨response, value, rfl, success, spelled, reads⟩ := fetches
  cases served with
  | cons _ next stored rest =>
      obtain ⟨rfl, other, same, answer⟩ := stored.of_get
      cases same
      cases rest
      refine ⟨Function.update_eq_self _ _, ?_⟩
      rcases answer with ⟨config, held, _, shows_⟩ | ⟨_, missing⟩
      · obtain rfl := Option.some.inj (spelled.symm.trans shows_)
        exact ⟨config, held, reads⟩
      · rw [Response.isSuccess, missing] at success
        cases success

/-- **A completed document foresees what becomes of its entities.** -/
theorem EstablishesDocument.foresees {type text : String} {course : Course} {own : List Event}
    {nodes : List Json} {branches : List Branch}
    (established : EstablishesDocument run type text course own nodes blueprint branches)
    (nodup : course.addresses.Nodup)
    (served : Served (Stored assigns) start (calls course.inTurn) final) :
    ∃ config, ForeseesDocument assigns start final (run.settings.blueprintUri type) config blueprint
      (Document.entities (blueprint.rootClassName type) nodes) := by
  rw [established.addresses_eq] at nodup
  obtain ⟨inside, between⟩ := List.pairwise_flatMap.mp nodup
  have confined : ∀ branch ∈ branches, ∀ call ∈ calls branch.course.inTurn,
      some call.request.path ∈ branch.course.addresses :=
    fun branch member => (established.each branch member).confined
  rw [established.whole, Course.inTurn_ofEvents, Course.inTurn_chain, calls_append] at served
  obtain ⟨middle, before, after⟩ := served_append.mp served
  obtain ⟨rfl, config, here, reads⟩ := established.fetches.served before
  have each := served_iff.mp after
  have deeper : ∀ branch (member : branch ∈ branches), _ := fun branch member =>
    foreseen_of_establishes (established.each branch member) (inside branch member)
      fun path within => by
        have there := each path
        rwa [callsAt_branches confined between member within] at there
  have changes : ∀ path, middle path ≠ final path →
      ∃ branch ∈ branches, some path ∈ branch.course.addresses := by
    intro path changed
    by_contra nowhere
    have there := each path
    rw [callsAt_branches_eq_nil confined fun branch member also =>
      nowhere ⟨branch, member, also⟩] at there
    exact changed (servedAt_nil.mp there).symm
  refine ⟨config, here, ?_, reads, fun root member => ?_, fun path changed => ?_⟩
  · by_contra lost
    have changed : middle (run.settings.blueprintUri type)
        ≠ final (run.settings.blueprintUri type) := fun same => lost (same.symm.trans here)
    obtain ⟨branch, member, within⟩ := changes _ changed
    obtain ⟨foreseen, reaches⟩ := deeper branch member
    rcases (reaches _ within).start_eq foreseen with absent | same
    · nomatch absent.symm.trans here
    · exact changed same
  · rw [← established.roots] at member
    obtain ⟨branch, inBranches, rfl⟩ := List.mem_map.mp member
    exact (deeper branch inBranches).1
  · obtain ⟨branch, member, within⟩ := changes path changed
    exact ⟨branch.child, established.roots ▸ List.mem_map_of_mem member,
      (deeper branch member).2 path within⟩

/-! ## Completed runs -/

/-- The run writes, and nobody listens. -/
structure Plain (run : Run) : Prop where
  wet : run.dry = false
  unobserved : run.observer = none

theorem Plain.faithful {run : Run} (plain : run.Plain) : run.Faithful := by
  intro observer here
  rw [plain.unobserved] at here
  nomatch here

/-- The types of the document are looked up where they are created, by the blueprint that the
store holds at a path. -/
def MirroredAt (store : String → Held) (uri : String) : Prop :=
  ∀ config blueprint, store uri = some config → Blueprint.read (.ofMap config) = .ok blueprint →
    blueprint.Mirrored

/-- The entities that a run begins have different addresses. -/
def Spread (events : List Event) : Prop := ((visits events).map Visit.address?).Nodup

/-- The addresses of a course are those of its events. -/
theorem nodup_addresses {course : Course} {events : List Event} (orders : course.Orders events)
    (spread : Spread events) : course.addresses.Nodup := by
  have same : ((visits events).map Visit.address?).Perm course.addresses :=
    (orders.perm_inTurn.filterMap _).map _
  exact same.nodup_iff.mp spread

/-- The blueprint that a run fetches is the one that the store holds at the start. -/
theorem Fetches.of_orders {run : Run} {type : String} {own : List Event} {blueprint : Blueprint}
    (fetches : Fetches run type (calls own) blueprint) {rest : Course} {events : List Event}
    (orders : (Course.ofEvents own rest).Orders events) {last : String → Held}
    (served : Served (Stored assigns) start (calls events) last) :
    ∃ config, start (run.settings.blueprintUri type) = some config ∧
      Blueprint.read (.ofMap config) = .ok blueprint := by
  obtain ⟨others, rfl, _⟩ := Course.orders_ofEvents orders
  rw [calls_append] at served
  obtain ⟨middle, before, _⟩ := served_append.mp served
  exact (fetches.served before).2

section Completed

variable {run : Run} {type text : String} {events : List Event} {roots : List Entity}

/-- A completed run establishes its document, by the blueprint that the store holds. -/
theorem establishes_of_orders (plain : run.Plain) (free : Document.FreeOfUpdates text)
    (mirrored : MirroredAt start (run.settings.blueprintUri type)) {course : Course}
    (takes : (run.document type text).Takes run course (some (.value roots)))
    (orders : course.Orders events) (served : Served (Stored assigns) start (calls events) final) :
    ∃ own nodes blueprint branches, blueprint.Mirrored ∧
      EstablishesDocument run type text course own nodes blueprint branches := by
  have mirrors : ∀ own rest blueprint, course = .ofEvents own rest →
      Fetches run type (calls own) blueprint → blueprint.Mirrored := by
    rintro own rest blueprint rfl fetches
    obtain ⟨config, here, reads⟩ := fetches.of_orders orders served
    exact mirrored config blueprint here reads
  have called : (calls events).Perm (calls course.inTurn) := orders.perm_inTurn.filterMap _
  obtain ⟨own, nodes, blueprint, branches, established⟩ := establishes_of_takes plain.wet
    plain.faithful free takes (fun call member =>
      accepted_of_served served call (called.mem_iff.mpr member)) mirrors
  exact ⟨own, nodes, blueprint, branches, mirrors own _ blueprint established.whole
    established.fetches, established⟩

/-- **What a completed run foresees.** -/
theorem foresees_of_steps (plain : run.Plain) (free : Document.FreeOfUpdates text)
    (mirrored : MirroredAt start (run.settings.blueprintUri type))
    (steps : Stage.Steps run (.active (run.document type text)) events (.finished (.value roots)))
    (served : Served (Stored assigns) start (calls events) final) (spread : Spread events) :
    ∃ nodes config blueprint, Document.nodes? text = some nodes ∧ blueprint.Mirrored ∧
      ForeseesDocument assigns start final (run.settings.blueprintUri type) config blueprint
        (Document.entities (blueprint.rootClassName type) nodes) := by
  obtain ⟨course, takes, orders⟩ := steps.takes
  obtain ⟨own, nodes, blueprint, branches, mirrors, established⟩ :=
    establishes_of_orders plain free mirrored takes orders served
  have nodup := nodup_addresses orders spread
  obtain ⟨config, foresees⟩ := established.foresees nodup
    ((established.apart nodup).served_inTurn orders served)
  exact ⟨nodes, config, blueprint, established.spelled, mirrors, foresees⟩

end Completed

end Run

end DesiredState
