import DesiredState.Proofs.Api.Store
import DesiredState.Proofs.Run.Coverage

/-!
# Entities at their addresses

When the lookup template of each type is its create template, an entity is looked up where it
is created, at its address. If it is not flagged for an update and nothing is rejected as
invalid, its task sends one lookup to this address and, if nothing is found there, one write
(`Places`). So when the entities of a run have different addresses, their requests go to
different paths (`EstablishesDocument.apart`).
-/

set_option autoImplicit false

namespace DesiredState

/-! ## Models without updates -/

/-- No object that is reached from the node is flagged for an update. -/
inductive Document.Unflagged : Json → Prop
  | skipped {node : Json} (noObject : node.members? = none) : Unflagged node
  | object {node : Json} (members : NameMap Json) (isObject : node.members? = some members)
      (calm : Entity.flag members Entity.updateMember = false)
      (below : ∀ child ∈ childNodes node, Unflagged child.2) : Unflagged node

/-- No entity of the document is flagged for an update. -/
def Document.FreeOfUpdates (text : String) : Prop :=
  ∀ nodes, nodes? text = some nodes → ∀ node ∈ nodes, Unflagged node

/-- Whether the node is no deeper than the bound and reaches no flagged object. -/
def Document.unflagged? : Nat → Json → Bool
  | 0, _ => false
  | depth + 1, node =>
      match node.members? with
      | none => true
      | some members =>
          !Entity.flag members Entity.updateMember
            && (childNodes node).all fun child => unflagged? depth child.2

theorem Document.unflagged_of_unflagged? : ∀ {depth : Nat} {node : Json},
    unflagged? depth node = true → Unflagged node
  | 0, _, shallow => nomatch shallow
  | depth + 1, node, shallow => by
      rw [unflagged?] at shallow
      cases isObject : node.members? with
      | none => exact .skipped isObject
      | some members =>
          rw [isObject] at shallow
          obtain ⟨calm, below⟩ := Bool.and_eq_true_iff.mp shallow
          exact .object members isObject (by simpa using calm) fun child member =>
            unflagged_of_unflagged? (List.all_eq_true.mp below child member)

/-- A document whose nodes are seen to be free of updates is so. -/
theorem Document.freeOfUpdates {depth : Nat} {text : String}
    (checked : (nodes? text).all (·.all (unflagged? depth)) = true) : FreeOfUpdates text := by
  intro nodes spelled node member
  rw [spelled] at checked
  exact unflagged_of_unflagged? (List.all_eq_true.mp checked node member)

/-- The entity was read from a node from which no flagged object is reached. -/
def Entity.Calm (entity : Entity) : Prop :=
  ∃ node members className, Document.Unflagged node ∧ node.members? = some members ∧
    entity = .ofNode members className

namespace Entity.Calm

theorem updates_eq_false {entity : Entity} (calm : entity.Calm) : entity.updates = false := by
  obtain ⟨node, members, className, unflagged, isObject, rfl⟩ := calm
  cases unflagged with
  | skipped noObject =>
      rw [noObject] at isObject
      nomatch isObject
  | object others same calm below =>
      rw [isObject] at same
      cases same
      exact calm

/-- The entities of nodes without flagged objects are calm. -/
theorem of_entities {nodes : List Json} (unflagged : ∀ node ∈ nodes, Document.Unflagged node)
    {className : String} {entity : Entity} (member : entity ∈ Document.entities className nodes) :
    entity.Calm := by
  obtain ⟨node, inNodes, read⟩ := List.mem_filterMap.mp member
  obtain ⟨members, isObject, rfl⟩ := Option.map_eq_some_iff.mp read
  exact ⟨node, members, className, unflagged node inNodes, isObject, rfl⟩

end Entity.Calm

/-! ## Addresses -/

/-- Each type is looked up where it is created, at every depth. -/
inductive Blueprint.Mirrored : Blueprint → Prop
  | mk {blueprint : Blueprint} (same : blueprint.lookupUri? = some blueprint.createUri)
      (each : ∀ declared ∈ blueprint.childTypes, Mirrored declared.2) : Mirrored blueprint

/-- The blueprints of the offspring are mirrored too. -/
theorem Blueprint.Mirrored.of_offspring {blueprint : Blueprint} (mirrored : blueprint.Mirrored)
    {parent : Entity} {child : Blueprint × Entity} (member : child ∈ blueprint.offspring parent) :
    child.1.Mirrored := by
  cases mirrored with
  | mk _ each =>
      obtain ⟨declared, inTypes, inside⟩ := List.mem_flatMap.mp member
      obtain ⟨entity, _, rfl⟩ := List.mem_map.mp inside
      exact each declared inTypes

/-- The path at which an entity is created, if its template can be filled. -/
def Visit.address? (visit : Visit) : Option String :=
  (Template.resolve visit.lineage visit.desired visit.blueprint.createUri).path?

namespace Run

variable {run : Run} {blueprint : Blueprint} {lineage : Lineage} {desired : Entity}

theorem lookupAddress?_of_mirrored (mirrored : blueprint.Mirrored) (entity : Entity) :
    lookupAddress? blueprint lineage entity = Visit.address? ⟨blueprint, lineage, entity⟩ := by
  cases mirrored with
  | mk same _ =>
      rw [lookupAddress?, same]
      rfl

/-! ## Placing an entity -/

/-- The calls put an entity in place at a path: it was found there, or it was created. -/
inductive Places (run : Run) (blueprint : Blueprint) (lineage : Lineage) (desired : Entity)
    (uri : String) : List Call → Entity → Prop
  | found {response : Response} {value : Json} :
      response.status = foundStatus → response.json? = some value →
      Places run blueprint lineage desired uri [⟨⟨.get, uri, none⟩, .answered response⟩]
        (.ofRemote value desired.className)
  | created {response : Response} {entity : Entity} {exchange : Exchange} {value : Json} :
      response.status = CallFailure.missingStatus → linked blueprint lineage desired = .ok entity →
      blueprint.createMethod.isWrite = true →
      run.access.written blueprint.createMethod uri entity.body exchange = .ok value →
      Places run blueprint lineage desired uri
        [⟨⟨.get, uri, none⟩, .answered response⟩,
          ⟨⟨blueprint.createMethod, uri, some entity.body⟩, exchange⟩]
        (entity.answeredWith value)

/-- All calls that place an entity go to its path. -/
theorem Places.path_eq {uri : String} {sent : List Call} {placed : Entity}
    (places : Places run blueprint lineage desired uri sent placed) :
    ∀ call ∈ sent, call.request.path = uri := by
  cases places with
  | found _ _ => exact List.forall_mem_singleton.mpr rfl
  | created _ _ _ _ => exact List.forall_mem_cons.mpr ⟨rfl, List.forall_mem_singleton.mpr rfl⟩

/-- One of the calls that place an entity succeeds. -/
theorem Places.succeeded {uri : String} {sent : List Call} {placed : Entity}
    (places : Places run blueprint lineage desired uri sent placed) :
    ∃ call ∈ sent, call.Succeeded := by
  cases places with
  | found status _ =>
      refine ⟨_, List.mem_cons_self, _, rfl, ?_⟩
      rw [Response.isSuccess, status]
      rfl
  | created _ _ _ told =>
      exact ⟨_, List.mem_cons_of_mem _ List.mem_cons_self, Access.succeeded_of_written told⟩

/-- **An entity is placed at its address.** -/
theorem places_of_settle (wet : run.dry = false) (faithful : run.Faithful)
    (mirrored : blueprint.Mirrored) (still : desired.updates = false) {sent : List Call}
    {settled : Option Entity} (accepted : ∀ call ∈ sent, call.Accepted)
    (sends : (run.settle blueprint lineage desired).Sends sent settled) :
    ∃ uri placed, Visit.address? ⟨blueprint, lineage, desired⟩ = some uri ∧
      settled = some placed ∧ Places run blueprint lineage desired uri sent placed := by
  rcases sends_settle wet faithful sends with ⟨uri, address, finds⟩ | ⟨address, creates⟩
  · rw [lookupAddress?_of_mirrored mirrored] at address
    obtain ⟨response, rest, rfl, answered⟩ := finds
    rcases answered with ⟨status, value, found, spelled, existing, rfl⟩ | ⟨status, creates⟩
    · have sameClass :
          (Entity.ofRemote value desired.className).className = desired.className := rfl
      obtain ⟨_, kept⟩ := sends_settleExisting wet faithful sameClass existing
      obtain ⟨rfl, rfl⟩ := kept still
      exact ⟨uri, _, address, rfl, .found status spelled⟩
    · obtain ⟨other, entity, exchange, more, filled, links, writes, rfl, answered⟩ := creates
      obtain rfl : uri = other := Option.some.inj (address.symm.trans filled)
      rcases answered with ⟨value, told, rfl, rfl⟩ | ⟨failure, told, invalid, _⟩
      · exact ⟨uri, _, address, rfl, .created status links writes told⟩
      · obtain ⟨rejection, rejected, code⟩ := Access.answered_of_isValidation told invalid
        exact absurd code
          (accepted _ (List.mem_cons_of_mem _ List.mem_cons_self) rejection rejected)
  · rw [lookupAddress?_of_mirrored mirrored] at address
    obtain ⟨other, _, _, _, filled, _⟩ := creates
    have impossible : (none : Option String) = some other := address.symm.trans filled
    nomatch impossible

end Run

/-! ## The addresses of a run -/

/-- The addresses of the entities that are begun. -/
def Course.addresses (course : Course) : List (Option String) :=
  (visits course.inTurn).map Visit.address?

theorem Course.own_ofEvents (rest : Course) : ∀ {events : List Event}, visits events = [] →
    (Course.ofEvents events rest).own
      = (calls events).map (·.request.path) ++ rest.own
  | [], _ => rfl
  | event :: events, alone => by
      rw [visits_cons, List.append_eq_nil_iff, Option.toList_eq_nil_iff] at alone
      rw [ofEvents_cons, own_act, alone.1, calls_cons, List.map_append, own_ofEvents rest alone.2,
        List.append_assoc]
      cases event.call? <;> rfl

theorem Course.footprints_ofEvents (rest : Course) : ∀ {events : List Event}, visits events = [] →
    (Course.ofEvents events rest).footprints = rest.footprints
  | [], _ => rfl
  | event :: events, alone => by
      rw [visits_cons, List.append_eq_nil_iff, Option.toList_eq_nil_iff] at alone
      rw [ofEvents_cons, footprints_act, alone.1]
      exact footprints_ofEvents rest alone.2

theorem Course.own_append {second : Course} (none : second.own = []) (first : Course) :
    (first.append second).own = first.own := by
  cases first with
  | idle => exact none
  | act event rest => rw [act_append, own_act, own_act, own_append none rest]
  | fork _ rest => exact own_append none rest

theorem Course.footprints_append {second : Course} (none : second.own = []) (first : Course) :
    (first.append second).footprints = first.footprints ++ second.footprints := by
  cases first with
  | idle => rfl
  | act event rest =>
      rw [act_append, footprints_act, footprints_act, own_append none rest,
        footprints_append none rest]
      split <;> rfl
  | fork members rest =>
      rw [fork_append, footprints, footprints, footprints_append none rest, List.append_assoc]

theorem Course.own_forks (broods : List (List Branch)) : (Course.forks broods).own = [] := by
  induction broods with
  | nil => rfl
  | cons brood broods ih => exact ih

theorem Course.allFootprints_eq_flatMap (courses : List Course) :
    Course.allFootprints courses
      = courses.flatMap fun course => course.own :: course.footprints := by
  induction courses with
  | nil => rfl
  | cons course courses ih => rw [allFootprints, ih, List.flatMap_cons]

theorem Course.footprints_forks (broods : List (List Branch)) :
    (Course.forks broods).footprints
      = broods.flatten.flatMap fun branch => branch.course.own :: branch.course.footprints := by
  induction broods with
  | nil => rfl
  | cons brood broods ih =>
      change Course.allFootprints _ ++ (Course.forks broods).footprints = _
      rw [ih, Course.allFootprints_eq_flatMap, List.flatten_cons, List.flatMap_append,
        List.flatMap_map]

/-! ## Runs that put every entity in place -/

namespace Run

/-- The entity and all below it have been put in place, each at its address. -/
inductive Establishes (run : Run) : Blueprint → Lineage → Entity → Course → Prop
  | mk {blueprint : Blueprint} {lineage : Lineage} {desired : Entity} (own : List Event)
      (uri : String) (placed : Entity) (broods : List (List Branch)) (alone : visits own = [])
      (address : Visit.address? ⟨blueprint, lineage, desired⟩ = some uri)
      (places : Places run blueprint lineage desired uri (calls own) placed)
      (declared : undeclared? blueprint { placed with children := desired.children } = none)
      (whole : broods.flatten.map (fun branch => (branch.blueprint, branch.child))
        = blueprint.offspring { placed with children := desired.children })
      (each : ∀ branch ∈ broods.flatten, Establishes run branch.blueprint
        (lineage.insert desired.type { placed with children := desired.children })
        branch.child branch.course) :
      Establishes run blueprint lineage desired
        (.act (.told (.begun ⟨blueprint, lineage, desired⟩))
          (.ofEvents own (.act (.remembered run.session placed) (.forks broods))))

variable {run : Run}

/-- The children of a calm entity are calm. -/
theorem calm_of_offspring {blueprint : Blueprint} {parent desired : Entity} (calm : desired.Calm)
    {child : Blueprint × Entity} (member : child ∈ blueprint.offspring parent)
    (same : parent.children = desired.children) : child.2.Calm := by
  obtain ⟨node, members, className, unflagged, isObject, rfl⟩ := calm
  obtain ⟨origin, inNode, fields, simple, innerObject, read⟩ :=
    origin_of_offspring isObject same member
  cases unflagged with
  | skipped noObject =>
      rw [noObject] at isObject
      nomatch isObject
  | object _ _ _ below => exact ⟨origin.2, fields, simple, below origin inNode, innerObject, read⟩

/-- A branch is one of the children. -/
theorem mem_of_branch {broods : List (List Branch)} {children : List (Blueprint × Entity)}
    (whole : broods.flatten.map (fun branch => (branch.blueprint, branch.child)) = children)
    {branch : Branch} (member : branch ∈ broods.flatten) :
    (branch.blueprint, branch.child) ∈ children := by
  rw [← whole]
  exact List.mem_map.mpr ⟨branch, member, rfl⟩

theorem calls_branch_subset {broods : List (List Branch)} {branch : Branch}
    (member : branch ∈ broods.flatten) {own : List Event} {visit : Visit} {session : SessionId}
    {entity : Entity} {call : Call} (called : call ∈ calls branch.course.inTurn) :
    call ∈ calls (Course.act (.told (.begun visit))
      (.ofEvents own (.act (.remembered session entity) (.forks broods)))).inTurn := by
  simp only [Course.inTurn_act, Course.inTurn_ofEvents, Course.inTurn_forks, calls_cons,
    calls_append, List.mem_append]
  exact .inr (.inr (.inr (calls_subset_flatMap member called)))

/-- **A completed handling has put everything in place.** -/
theorem establishes_of_handles (wet : run.dry = false) (faithful : run.Faithful)
    {blueprint : Blueprint} {lineage : Lineage} {desired : Entity} {course : Course}
    {result : Option Entity} (handles : Handles run blueprint lineage desired course result) :
    blueprint.Mirrored → desired.Calm → (∀ call ∈ calls course.inTurn, call.Accepted) →
      Establishes run blueprint lineage desired course := by
  induction handles with
  | skipped own alone _ settles =>
      intro mirrored calm accepted
      have sent : ∀ call ∈ calls own, call.Accepted := fun call member =>
        accepted call (by simpa using member)
      obtain ⟨_, _, _, nothing, _⟩ :=
        places_of_settle wet faithful mirrored calm.updates_eq_false sent settles
      nomatch nothing
  | settled own settled broods alone _ settles declared whole each ih =>
      intro mirrored calm accepted
      have sent : ∀ call ∈ calls own, call.Accepted := fun call member =>
        accepted call (by simp [member])
      obtain ⟨uri, placed, address, same, places⟩ :=
        places_of_settle wet faithful mirrored calm.updates_eq_false sent settles
      cases same
      refine .mk own uri settled broods alone address places declared whole ?_
      intro branch member
      have inside := mem_of_branch whole member
      have mirror : branch.blueprint.Mirrored := mirrored.of_offspring inside
      have still : branch.child.Calm := calm_of_offspring calm inside rfl
      exact ih branch member mirror still fun call called =>
        accepted call (calls_branch_subset member called)

namespace Establishes

variable {blueprint : Blueprint} {lineage : Lineage} {desired : Entity} {course : Course}

/-- What is begun when an entity is established: the entity, and all below it. -/
theorem addresses_mk {own : List Event} (alone : visits own = []) (session : SessionId)
    (placed : Entity) (broods : List (List Branch)) (visit : Visit) :
    (Course.act (.told (.begun visit))
      (.ofEvents own (.act (.remembered session placed) (.forks broods)))).addresses
      = visit.address? :: broods.flatten.flatMap fun branch => branch.course.addresses := by
  have begun : visits (broods.flatten.flatMap fun branch => branch.course.inTurn)
      = broods.flatten.flatMap fun branch => visits branch.course.inTurn := List.filterMap_flatMap
  rw [Course.addresses, Course.inTurn_act, Course.inTurn_ofEvents, Course.inTurn_act,
    Course.inTurn_forks, visits_cons, visits_append, visits_cons, alone, begun, List.map_append,
    List.nil_append, List.map_append, List.map_flatMap]
  rfl

/-- Every request goes to the address of an entity that is begun. -/
theorem confined (establishes : Establishes run blueprint lineage desired course) :
    ∀ call ∈ calls course.inTurn, some call.request.path ∈ course.addresses := by
  induction establishes with
  | mk own uri placed broods alone address places declared whole each ih =>
      intro call member
      rw [addresses_mk alone, address]
      simp only [Course.inTurn_act, Course.inTurn_ofEvents, Course.inTurn_forks, calls_cons,
        calls_append, Event.call?, Option.toList, List.nil_append, List.mem_append] at member
      rcases member with mine | theirs
      · rw [places.path_eq call mine]
        exact List.mem_cons_self
      · obtain ⟨event, inFlat, calling⟩ := List.mem_filterMap.mp theirs
        obtain ⟨branch, inBroods, inCourse⟩ := List.mem_flatMap.mp inFlat
        refine List.mem_cons_of_mem _ (List.mem_flatMap.mpr ⟨branch, inBroods, ?_⟩)
        exact ih branch inBroods call (List.mem_filterMap.mpr ⟨event, inCourse, calling⟩)

/-- Nothing is requested before the entity is begun. -/
theorem own_eq_nil (establishes : Establishes run blueprint lineage desired course) :
    course.own = [] := by
  cases establishes with
  | mk => exact Course.own_act _ _

/-- The footprints of a branch lead to addresses in it. -/
theorem address_of_footprint (establishes : Establishes run blueprint lineage desired course)
    {footprint : List String} (member : footprint ∈ course.own :: course.footprints)
    {path : String} (here : path ∈ footprint) : some path ∈ course.addresses := by
  rcases List.mem_cons.mp member with rfl | below
  · rw [establishes.own_eq_nil] at here
    nomatch here
  · obtain ⟨call, called, rfl⟩ := Course.call_of_leaves ⟨footprint, below, here⟩
    exact establishes.confined call called

/-- **Entities with different addresses keep apart.** -/
theorem apart (establishes : Establishes run blueprint lineage desired course) :
    course.addresses.Nodup → course.Apart := by
  induction establishes with
  | mk own uri placed broods alone address places declared whole each ih =>
      intro nodup
      rw [addresses_mk alone, address] at nodup
      obtain ⟨fresh, below⟩ := List.nodup_cons.mp nodup
      obtain ⟨inside, between⟩ := List.pairwise_flatMap.mp below
      have mine : ∀ path ∈ (calls own).map (·.request.path), path = uri := by
        intro path member
        obtain ⟨call, called, rfl⟩ := List.mem_map.mp member
        exact places.path_eq call called
      rw [Course.Apart, Course.footprints_act, Event.visit?, Option.isSome_some, if_pos rfl,
        Course.own_ofEvents _ alone, Course.footprints_ofEvents _ alone, Course.own_act,
        Course.footprints_act]
      simp only [Event.visit?, Option.isSome_none, Bool.false_eq_true, if_false, Event.call?,
        Option.map_none, Option.toList, Course.own_forks, List.append_nil, Course.footprints_forks]
      refine List.pairwise_cons.mpr ⟨fun footprint member path left right => ?_,
        List.pairwise_flatMap.mpr ⟨fun branch inBroods => ?_, ?_⟩⟩
      · obtain ⟨branch, inBroods, theirs⟩ := List.mem_flatMap.mp member
        refine fresh (List.mem_flatMap.mpr ⟨branch, inBroods, ?_⟩)
        rw [← mine path left]
        exact (each branch inBroods).address_of_footprint theirs right
      · rw [(each branch inBroods).own_eq_nil]
        exact List.pairwise_cons.mpr ⟨fun _ _ => List.disjoint_nil_left _,
          ih branch inBroods (inside branch inBroods)⟩
      · refine between.imp_of_mem fun {branch other} inBroods alsoInBroods different => ?_
        intro footprint member another alsoMember path left right
        exact different _ ((each branch inBroods).address_of_footprint member left) _
          ((each other alsoInBroods).address_of_footprint alsoMember right) rfl

end Establishes

/-! ## Documents -/

/-- All roots of a document, under its blueprint, have been put in place. -/
structure EstablishesDocument (run : Run) (type text : String) (course : Course)
    (own : List Event) (nodes : List Json) (blueprint : Blueprint) (branches : List Branch) :
    Prop where
  whole : course = .ofEvents own (.chain branches)
  alone : visits own = []
  spelled : Document.nodes? text = some nodes
  fetches : Fetches run type (calls own) blueprint
  roots : branches.map (·.child) = Document.entities (blueprint.rootClassName type) nodes
  each : ∀ branch ∈ branches, Establishes run blueprint .empty branch.child branch.course

/-- **A completed document has been put in place.** -/
theorem establishes_of_takes (wet : run.dry = false) (faithful : run.Faithful)
    {type text : String} (free : Document.FreeOfUpdates text) {course : Course}
    {results : List Entity}
    (takes : (run.document type text).Takes run course (some (.value results)))
    (accepted : ∀ call ∈ calls course.inTurn, call.Accepted)
    (mirrored : ∀ own rest blueprint, course = .ofEvents own rest →
      Fetches run type (calls own) blueprint → blueprint.Mirrored) :
    ∃ own nodes blueprint branches,
      EstablishesDocument run type text course own nodes blueprint branches := by
  obtain ⟨own, nodes, blueprint, branches, rfl, alone, _, spelled, fetches, whole, _, each⟩ :=
    takes_document takes
  rw [Course.inTurn_ofEvents, Course.inTurn_chain, calls_append] at accepted
  refine ⟨own, nodes, blueprint, branches, rfl, alone, spelled, fetches, whole, ?_⟩
  intro branch member
  refine establishes_of_handles wet faithful (each branch member)
    (mirrored own _ blueprint rfl fetches) ?_ fun call called =>
      accepted call (List.mem_append_right _ (calls_subset_flatMap member called))
  have inside : branch.child ∈ Document.entities (blueprint.rootClassName type) nodes :=
    whole ▸ List.mem_map_of_mem member
  exact .of_entities (free nodes spelled) inside

namespace EstablishesDocument

variable {type text : String} {course : Course} {own : List Event} {nodes : List Json}
  {blueprint : Blueprint} {branches : List Branch}

theorem own_chain : ∀ {branches : List Branch},
    (∀ branch ∈ branches, branch.course.own = []) → (Course.chain branches).own = []
  | [], _ => rfl
  | branch :: branches, each => by
      obtain ⟨first, rest⟩ := List.forall_mem_cons.mp each
      exact (Course.own_append (own_chain rest) branch.course).trans first

theorem footprints_chain : ∀ {branches : List Branch},
    (∀ branch ∈ branches, branch.course.own = []) →
      (Course.chain branches).footprints = branches.flatMap fun branch => branch.course.footprints
  | [], _ => rfl
  | branch :: branches, each => by
      obtain ⟨_, rest⟩ := List.forall_mem_cons.mp each
      rw [List.flatMap_cons, ← footprints_chain rest]
      exact Course.footprints_append (own_chain rest) branch.course

theorem addresses_eq (established :
      EstablishesDocument run type text course own nodes blueprint branches) :
    course.addresses = branches.flatMap fun branch => branch.course.addresses := by
  have begun : visits (branches.flatMap fun branch => branch.course.inTurn)
      = branches.flatMap fun branch => visits branch.course.inTurn := List.filterMap_flatMap
  rw [established.whole, Course.addresses, Course.inTurn_ofEvents, Course.inTurn_chain,
    visits_append, established.alone, begun, List.nil_append, List.map_flatMap]
  rfl

/-- Roots and descendants with different addresses keep apart. -/
theorem apart (established :
      EstablishesDocument run type text course own nodes blueprint branches)
    (nodup : course.addresses.Nodup) : course.Apart := by
  rw [established.addresses_eq] at nodup
  obtain ⟨inside, between⟩ := List.pairwise_flatMap.mp nodup
  rw [Course.Apart, established.whole, Course.footprints_ofEvents _ established.alone,
    footprints_chain fun branch member => (established.each branch member).own_eq_nil]
  refine List.pairwise_flatMap.mpr ⟨fun branch member =>
    (established.each branch member).apart (inside branch member), ?_⟩
  refine between.imp_of_mem fun {branch other} member alsoMember different => ?_
  intro footprint inFirst another inSecond path left right
  exact different _
    ((established.each branch member).address_of_footprint (List.mem_cons_of_mem _ inFirst) left) _
    ((established.each other alsoMember).address_of_footprint (List.mem_cons_of_mem _ inSecond)
      right) rfl

end EstablishesDocument

end Run

end DesiredState
