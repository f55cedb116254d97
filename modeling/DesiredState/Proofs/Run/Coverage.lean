import DesiredState.Proofs.NameMap
import DesiredState.Proofs.Run.Handling
import DesiredState.Proofs.Schedule.Retrace
import DesiredState.Proofs.Schedule.Turns

/-!
# Every entity of a document is handled exactly once

When a run of a document succeeds, the entities that were handled are the object nodes that
are reached from the document through child lists, each of them once, under its own parent. The
order of the run does not matter: in every interleaving the same entities are begun.

**What is reached.** The children of a node are the objects in its child lists, which count only
if the member that holds them is an object of arrays (`Document.childNodes`). A node whose
create was rejected and that cannot be looked up is skipped; it has no children then.
-/

set_option autoImplicit false

namespace DesiredState

/-! ## The nodes of a document -/

/-- The objects in the child lists of a node, with their types. -/
def Document.childNodes (node : Json) : List (String × Json) :=
  match (node.members?.bind (·.find? Entity.childrenMember)).bind Entity.childLists? with
  | none => []
  | some lists => lists.entries.flatMap fun entry =>
      (entry.2.filter (·.members?.isSome)).map (entry.1, ·)

/-- A node that was reached, with the visits of it and all nodes below. -/
structure Family where
  /-- The type under which the node stands. -/
  type : String
  blueprint : Blueprint
  node : Json
  visits : List Visit
  result : Option Entity

/-- A node and all that is reached from it were handled with the visits, given the calls of the
run. -/
inductive Reconciled (run : Run) (sent : List Call) :
    Blueprint → String → Lineage → Json → List Visit → Option Entity → Prop
  /-- The create of a node without children was rejected, and no lookup was possible. -/
  | skipped {blueprint : Blueprint} {className : String} {lineage : Lineage} {node : Json}
      (members : NameMap Json) (isObject : node.members? = some members)
      (childless : Document.childNodes node = [])
      (rejected : Run.Rejected sent blueprint lineage (.ofNode members className)) :
      Reconciled run sent blueprint className lineage node
        [⟨blueprint, lineage, .ofNode members className⟩] none
  /-- The node was settled by some of the calls, and then each of its children was handled under
  the settled entity. -/
  | settled {blueprint : Blueprint} {className : String} {lineage : Lineage} {node : Json}
      (members : NameMap Json) (own : List Call) (entity : Entity) (families : List Family)
      (isObject : node.members? = some members)
      (inRun : ∀ call ∈ own, call ∈ sent)
      (settles : (run.settle blueprint lineage (.ofNode members className)).Sends own (some entity))
      (sameClass : entity.className = className)
      (whole : (families.map fun family => (family.type, family.node)).Perm
        (Document.childNodes node))
      (declared : ∀ family ∈ families, blueprint.child? family.type = some family.blueprint)
      (each : ∀ family ∈ families, Reconciled run sent family.blueprint
        (Run.childClassName entity family.type family.blueprint)
        (lineage.insert (ClassName.simple className)
          { entity with children := (Entity.ofNode members className).children })
        family.node family.visits family.result) :
      Reconciled run sent blueprint className lineage node
        (⟨blueprint, lineage, .ofNode members className⟩ ::
          families.flatMap (·.visits))
        (some { entity with children := (Entity.ofNode members className).children })

/-! ## Child lists -/

namespace Document

/-- The nodes of a document are the items of its array. -/
theorem nodes?_eq_some_iff {text : String} {nodes : List Json} :
    nodes? text = some nodes ↔ Json.read? (Text.Comments.strip text) = some (.array nodes) := by
  unfold nodes?
  cases Json.read? (Text.Comments.strip text) with
  | none => simp
  | some value => cases value <;> simp [Json.items?]

/-- The member `children` is lifted if it is an object whose values are all arrays; the children
are the objects in these. -/
theorem childNodes_of_lifted {node : Json} {members : NameMap Json}
    {listed : List (String × Json)} (isObject : node.members? = some members)
    (found : members.find? Entity.childrenMember = some (.object listed))
    (arrays : ∀ entry ∈ listed, entry.2.isArray = true) :
    childNodes node = (NameMap.ofList listed).entries.flatMap fun entry =>
      ((entry.2.items?.getD []).filter (·.members?.isSome)).map (entry.1, ·) := by
  have lists : Entity.childLists? (.object listed)
      = some ((NameMap.ofList listed).map fun value => value.items?.getD []) :=
    if_pos (List.all_eq_true.mpr arrays)
  simp only [childNodes, isObject, Option.bind_some, found, lists, NameMap.map, List.flatMap_map]

/-- Any other member `children` is a field like all others, and there are no children. -/
theorem childNodes_of_not_lifted {node : Json} {members : NameMap Json}
    (isObject : node.members? = some members)
    (other : ∀ listed, members.find? Entity.childrenMember = some (.object listed) →
      ∃ entry ∈ listed, entry.2.isArray = false) : childNodes node = [] := by
  have none : (members.find? Entity.childrenMember).bind Entity.childLists? = none := by
    cases found : members.find? Entity.childrenMember with
    | none => rfl
    | some value =>
        cases value with
        | object listed =>
            obtain ⟨entry, member, noArray⟩ := other listed found
            refine if_neg fun arrays => ?_
            rw [List.all_eq_true.mp arrays entry member] at noArray
            cases noArray
        | _ => rfl
  simp only [childNodes, isObject, Option.bind_some, none]

/-- The child lists of an entity are those of its node. -/
theorem children_ofNode (className : String) {node : Json} {members : NameMap Json}
    (isObject : node.members? = some members) :
    childNodes node = (Entity.ofNode members className).children.entries.flatMap fun entry =>
      (entry.2.filter (·.members?.isSome)).map (entry.1, ·) := by
  have apart : Entity.childrenMember ≠ Entity.updateMember ∧
      Entity.childrenMember ≠ Entity.substituteMember := by decide
  simp only [childNodes, isObject, Option.bind_some, Entity.ofNode, NameMap.find?_erase,
    if_neg apart.1, if_neg apart.2]
  cases (members.find? Entity.childrenMember).bind Entity.childLists? with
  | none => rfl
  | some lists => rfl

/-- A node whose entity has no children has none. -/
theorem childNodes_eq_nil {node : Json} {members : NameMap Json} {className : String}
    (isObject : node.members? = some members)
    (childless : (Entity.ofNode members className).hasChildren = false) : childNodes node = [] := by
  rw [children_ofNode className isObject]
  refine List.flatMap_eq_nil_iff.mpr ?_
  intro entry member
  have empty : entry.2 = [] := by
    simpa using List.any_eq_false.mp childless entry member
  rw [empty]
  rfl

/-- The entities of a list of nodes are those of the objects in it. -/
theorem entities_forall₂ (className : String) :
    ∀ nodes : List Json, List.Forall₂
      (fun entity node => ∃ members, Json.members? node = some members ∧
        entity = Entity.ofNode members className)
      (entities className nodes) (nodes.filter (·.members?.isSome))
  | [] => .nil
  | node :: nodes => by
      have rest := entities_forall₂ className nodes
      cases isObject : node.members? with
      | none => simpa [entities, entity?, isObject] using rest
      | some members =>
          have first := List.Forall₂.cons ⟨members, isObject, rfl⟩ rest
          simpa [entities, entity?, isObject] using first

end Document

/-! ## Broods and litters -/

namespace Run

/-- The objects in the child lists of an entity with their types and blueprints, batch after
batch. -/
def litter (types : List (String × Blueprint)) (parent : Entity) :
    List (String × Blueprint × Json) :=
  types.flatMap fun declared =>
    (((parent.children.find? declared.1).getD []).filter (·.members?.isSome)).map
      (declared.1, declared.2, ·)

/-- A child and the node that it was read from. -/
def ReadFrom (parent : Entity) (child : Blueprint × Entity) (origin : String × Blueprint × Json) :
    Prop :=
  child.1 = origin.2.1 ∧ ∃ members, origin.2.2.members? = some members ∧
    child.2 = Entity.ofNode members (childClassName parent origin.1 origin.2.1)

theorem entities_readFrom (parent : Entity) : ∀ types : List (String × Blueprint),
    List.Forall₂ (ReadFrom parent)
      (types.flatMap fun declared =>
        (Document.entities (childClassName parent declared.1 declared.2)
          ((parent.children.find? declared.1).getD [])).map (declared.2, ·))
      (litter types parent)
  | [] => .nil
  | declared :: types => by
      refine List.rel_append ?_ (entities_readFrom parent types)
      rw [List.forall₂_map_left_iff, List.forall₂_map_right_iff]
      exact (Document.entities_forall₂ _ _).imp fun child node origin => ⟨rfl, origin⟩

theorem offspring_readFrom (blueprint : Blueprint) (parent : Entity) :
    List.Forall₂ (ReadFrom parent) (blueprint.offspring parent)
      (litter blueprint.childTypes parent) :=
  entities_readFrom parent blueprint.childTypes

/-- The offspring of an entity was read from the child nodes of its own node. -/
theorem origin_of_offspring {node : Json} {members : NameMap Json} {className : String}
    (isObject : node.members? = some members) {blueprint : Blueprint} {parent : Entity}
    (same : parent.children = (Entity.ofNode members className).children)
    {child : Blueprint × Entity} (member : child ∈ blueprint.offspring parent) :
    ∃ origin ∈ Document.childNodes node, ∃ fields simple,
      origin.2.members? = some fields ∧ child.2 = .ofNode fields simple := by
  obtain ⟨declared, _, inside⟩ := List.mem_flatMap.mp member
  obtain ⟨entity, read, rfl⟩ := List.mem_map.mp inside
  obtain ⟨inner, inNodes, spelled⟩ := List.mem_filterMap.mp read
  obtain ⟨fields, innerObject, rfl⟩ := Option.map_eq_some_iff.mp spelled
  refine ⟨(declared.1, inner), ?_, fields, _, innerObject, rfl⟩
  rw [same] at inNodes
  rw [Document.children_ofNode className isObject]
  cases found : (Entity.ofNode members className).children.find? declared.1 with
  | none =>
      rw [found] at inNodes
      nomatch inNodes
  | some nodes =>
      rw [found] at inNodes
      refine List.mem_flatMap.mpr ⟨(declared.1, nodes), mem_of_lookupEntry found, ?_⟩
      refine List.mem_map.mpr ⟨inner, List.mem_filter.mpr ⟨inNodes, ?_⟩, rfl⟩
      rw [innerObject]
      rfl

/-- Each type of a litter is declared. -/
theorem declared_of_mem_litter {blueprint : Blueprint} (ordered : blueprint.Ordered)
    {parent : Entity} {origin : String × Blueprint × Json}
    (member : origin ∈ litter blueprint.childTypes parent) :
    blueprint.child? origin.1 = some origin.2.1 ∧ origin.2.1.Ordered := by
  obtain ⟨declared, inTypes, inside⟩ := List.mem_flatMap.mp member
  obtain ⟨node, _, rfl⟩ := List.mem_map.mp inside
  exact ⟨lookupEntry_of_mem ordered.increase declared inTypes, ordered.each declared inTypes⟩

/-- Where nothing is undeclared, each type with nodes is declared. -/
theorem covers_of_declared {blueprint : Blueprint} {parent : Entity}
    (declared : undeclared? blueprint parent = none) : ∀ entry ∈ parent.children.entries,
      entry.2 ≠ [] → entry.1 ∈ blueprint.childTypes.map (·.1) := by
  intro entry member some
  rw [undeclared?, Option.map_eq_none_iff, List.find?_eq_none] at declared
  have known := declared entry member
  cases found : blueprint.child? entry.1 with
  | none => simp [found, some] at known
  | some child => exact List.mem_map.mpr ⟨_, mem_of_lookupEntry found, rfl⟩

/-- The litter of an entity without undeclared children has all child nodes. -/
theorem litter_perm {blueprint : Blueprint} (ordered : blueprint.Ordered) {parent : Entity}
    (declared : undeclared? blueprint parent = none) :
    ((litter blueprint.childTypes parent).map fun origin => (origin.1, origin.2.2)).Perm
      (parent.children.entries.flatMap fun entry =>
        (entry.2.filter (·.members?.isSome)).map (entry.1, ·)) := by
  have all := flatMap_lookupEntry_perm
    (fun name nodes => (List.filter (fun node => (Json.members? node).isSome) nodes).map (name, ·))
    (fun _ => rfl) parent.children.ordered (nodup_names ordered.increase)
    (covers_of_declared declared)
  rw [List.flatMap_map] at all
  rw [litter, List.map_flatMap]
  simp only [List.map_map]
  exact all

/-- A branch and the family that grew from a node. -/
def Grown (parent : Entity) (branch : Branch) (family : Family) : Prop :=
  ReadFrom parent (branch.blueprint, branch.child) (family.type, family.blueprint, family.node) ∧
    family.visits = visits branch.course.inTurn ∧ family.result = branch.result

theorem families_of_branches {parent : Entity} :
    ∀ {branches : List Branch} {origins : List (String × Blueprint × Json)},
      List.Forall₂ (ReadFrom parent)
        (branches.map fun branch => (branch.blueprint, branch.child)) origins →
      ∃ families : List Family,
        families.map (fun family => (family.type, family.blueprint, family.node)) = origins ∧
        List.Forall₂ (Grown parent) branches families
  | [], _, .nil => ⟨[], rfl, .nil⟩
  | branch :: branches, (type, blueprint, node) :: origins, .cons first rest => by
      obtain ⟨families, same, grown⟩ := families_of_branches rest
      exact ⟨⟨type, blueprint, node, visits branch.course.inTurn, branch.result⟩ :: families,
        by rw [List.map_cons, same], .cons ⟨first, rfl, rfl⟩ grown⟩

theorem branch_of_family {parent : Entity} {branches : List Branch} {families : List Family}
    (grown : List.Forall₂ (Grown parent) branches families) :
    ∀ family ∈ families, ∃ branch ∈ branches, Grown parent branch family := by
  induction grown with
  | nil => exact List.forall_mem_nil _
  | cons first _ ih =>
      refine List.forall_mem_cons.mpr ⟨⟨_, List.mem_cons_self, first⟩, fun family member => ?_⟩
      obtain ⟨branch, inside, grown⟩ := ih family member
      exact ⟨branch, List.mem_cons_of_mem _ inside, grown⟩

/-- The visits of branches are those of their families. -/
theorem visits_of_grown {parent : Entity} {branches : List Branch} {families : List Family}
    (grown : List.Forall₂ (Grown parent) branches families) :
    visits (branches.flatMap fun branch => branch.course.inTurn)
      = families.flatMap (·.visits) := by
  induction grown with
  | nil => rfl
  | cons first _ ih => rw [List.flatMap_cons, List.flatMap_cons, visits_append, ih, first.2.1]

/-- The calls of a branch are among those of all branches. -/
theorem calls_subset_flatMap {branches : List Branch} {branch : Branch} (member : branch ∈ branches)
    {call : Call} (called : call ∈ calls branch.course.inTurn) :
    call ∈ calls (branches.flatMap fun branch => branch.course.inTurn) := by
  obtain ⟨event, inCourse, calling⟩ := List.mem_filterMap.mp called
  exact List.mem_filterMap.mpr ⟨event, List.mem_flatMap.mpr ⟨branch, member, inCourse⟩, calling⟩

/-! ## Coverage -/

variable {run : Run} {sent : List Call}

/-- **What was handled is what is reached.** -/
theorem reconciled_of_handles (wet : run.dry = false) (faithful : run.Faithful)
    {blueprint : Blueprint} {lineage : Lineage} {desired : Entity} {course : Course}
    {result : Option Entity} (handles : Handles run blueprint lineage desired course result) :
    ∀ {className : String} {node : Json} {members : NameMap Json}, blueprint.Ordered →
      node.members? = some members → desired = .ofNode members className →
      (∀ call ∈ calls course.inTurn, call ∈ sent) →
      Reconciled run sent blueprint className lineage node (visits course.inTurn) result := by
  induction handles with
  | @skipped blueprint lineage _ own alone _ settles =>
      rintro className node members _ isObject rfl inRun
      obtain ⟨childless, rejected⟩ := rejected_of_settle wet faithful settles
      have here : Rejected sent blueprint lineage (Entity.ofNode members className) := by
        obtain ⟨uri, entity, response, filled, links, called, rest⟩ := rejected
        exact ⟨uri, entity, response, filled, links, inRun _ (by simpa using called), rest⟩
      simpa [alone] using
        Reconciled.skipped members isObject (Document.childNodes_eq_nil isObject childless) here
  | @settled blueprint lineage _ own entity broods alone _ settles declared whole each ih =>
      rintro className node members ordered isObject rfl inRun
      have sameClass := className_of_settle wet faithful settles
      have read := offspring_readFrom blueprint
        { entity with children := (Entity.ofNode members className).children }
      rw [← whole] at read
      obtain ⟨families, origins, grown⟩ := families_of_branches read
      have nodes := litter_perm ordered declared
      rw [← origins, List.map_map] at nodes
      have known : ∀ family ∈ families, blueprint.child? family.type = some family.blueprint ∧
          family.blueprint.Ordered := fun family member =>
        declared_of_mem_litter ordered (origins ▸ List.mem_map_of_mem member)
      have below : ∀ family ∈ families, Reconciled run sent family.blueprint
          (childClassName entity family.type family.blueprint)
          (lineage.insert (ClassName.simple className)
            { entity with children := (Entity.ofNode members className).children })
          family.node family.visits family.result := by
        intro family member
        obtain ⟨branch, inBrood, ⟨same, inner, innerObject, readFrom⟩, seen, ended⟩ :=
          branch_of_family grown family member
        have sameBlueprint : branch.blueprint = family.blueprint := same
        rw [seen, ended, ← sameBlueprint]
        refine ih branch inBrood (sameBlueprint ▸ (known family member).2) innerObject ?_ ?_
        · rw [sameBlueprint]
          exact readFrom
        · intro call called
          refine inRun call ?_
          simp only [Course.inTurn_act, Course.inTurn_ofEvents, Course.inTurn_forks, calls_cons,
            calls_append, List.mem_append]
          exact .inr (.inr (.inr (calls_subset_flatMap inBrood called)))
      have here := Reconciled.settled members (calls own) entity families isObject ?_ settles
        sameClass ?_ (fun family member => (known family member).1) below
      · simpa [alone, visits_of_grown grown] using here
      · intro call member
        exact inRun call (by simp [member])
      · rw [Document.children_ofNode className isObject]
        exact nodes

/-- The handled roots of a document and the objects in it. -/
theorem families_of_roots (wet : run.dry = false) (faithful : run.Faithful) (type : String)
    {blueprint : Blueprint} (ordered : blueprint.Ordered) {className : String}
    {branches : List Branch} {objects : List Json}
    (read : List.Forall₂ (fun branch node => ∃ members, Json.members? node = some members ∧
      branch.child = Entity.ofNode members className) branches objects) :
    (∀ branch ∈ branches, Handles run blueprint .empty branch.child branch.course branch.result) →
    (∀ call ∈ calls (branches.flatMap fun branch => branch.course.inTurn), call ∈ sent) →
    ∃ families : List Family, families.map (·.node) = objects ∧
      (∀ family ∈ families,
        Reconciled run sent blueprint className .empty family.node family.visits family.result) ∧
      visits (branches.flatMap fun branch => branch.course.inTurn)
        = families.flatMap (·.visits) ∧
      branches.filterMap (·.result) = families.filterMap (·.result) := by
  induction read with
  | nil => exact fun _ _ => ⟨[], rfl, List.forall_mem_nil _, rfl, rfl⟩
  | @cons branch node branches objects first _ ih =>
      intro each inRun
      obtain ⟨members, isObject, readFrom⟩ := first
      obtain ⟨handles, others⟩ := List.forall_mem_cons.mp each
      rw [List.flatMap_cons, calls_append, List.forall_mem_append] at inRun
      obtain ⟨families, same, reconciled, visited, results⟩ := ih others inRun.2
      refine ⟨⟨type, blueprint, node, visits branch.course.inTurn, branch.result⟩ :: families,
        by rw [List.map_cons, same], List.forall_mem_cons.mpr ⟨?_, reconciled⟩, ?_, ?_⟩
      · exact reconciled_of_handles wet faithful handles ordered isObject readFrom inRun.1
      · rw [List.flatMap_cons, visits_append, visited, List.flatMap_cons]
      · rw [List.filterMap_cons, List.filterMap_cons, results]

/-- **Every entity is reconciled exactly once.** When the run of a document succeeds, in
whatever order its tasks acted, the entities that were begun are the object nodes that are
reached from the document, each of them once, under its own parent. The result is that of the
roots in the order of the document; a root is left out only if its create was rejected and no
lookup was possible. -/
theorem each_entity_reconciled_once {type text : String} {events : List Event}
    {roots : List Entity} (wet : run.dry = false) (faithful : run.Faithful)
    (steps : Stage.Steps run (.active (run.document type text)) events
      (.finished (.value roots))) :
    ∃ nodes blueprint, ∃ families : List Family,
      Json.read? (Text.Comments.strip text) = some (.array nodes) ∧
      (∃ own, (∀ call ∈ own, call ∈ calls events) ∧ run.Fetches type own blueprint) ∧
      families.map (·.node) = nodes.filter (·.members?.isSome) ∧
      (∀ family ∈ families, Reconciled run (calls events) blueprint (blueprint.rootClassName type)
        .empty family.node family.visits family.result) ∧
      (visits events).Perm (families.flatMap (·.visits)) ∧
      roots = families.filterMap (·.result) := by
  obtain ⟨course, takes, orders⟩ := steps.takes
  obtain ⟨own, nodes, blueprint, branches, rfl, alone, _, spelled, fetches, whole, results,
    each⟩ :=
    takes_document takes
  have same := orders.perm_inTurn
  rw [Course.inTurn_ofEvents, Course.inTurn_chain] at same
  have called : (calls events).Perm (calls own ++ calls (branches.flatMap fun branch =>
      branch.course.inTurn)) := by
    rw [← calls_append]
    exact same.filterMap _
  have read := Document.entities_forall₂ (blueprint.rootClassName type) nodes
  rw [← whole, List.forall₂_map_left_iff] at read
  obtain ⟨families, objects, reconciled, visited, kept⟩ :=
    families_of_roots wet faithful type fetches.ordered read each
      fun call member => called.mem_iff.mpr (List.mem_append_right _ member)
  refine ⟨nodes, blueprint, families, Document.nodes?_eq_some_iff.mp spelled, ⟨calls own,
    fun call member => called.mem_iff.mpr (List.mem_append_left _ member), fetches⟩, objects,
    reconciled, ?_, results.trans kept⟩
  have begun : (visits events).Perm (visits (own ++ branches.flatMap fun branch =>
      branch.course.inTurn)) := same.filterMap _
  rwa [visits_append, alone, visited, List.nil_append] at begun

end Run

/-! ## A document with children -/

/-- Whether a task has ended with a value. -/
def Outcome.isValue {α : Type} : Option (Outcome α) → Bool
  | some (.value _) => true
  | _ => false

theorem Outcome.value_of_isValue {α : Type} {outcome : Option (Outcome α)}
    (ended : isValue outcome = true) : ∃ value, outcome = some (.value value) := by
  cases outcome with
  | none => nomatch ended
  | some outcome =>
      cases outcome with
      | value value => exact ⟨value, rfl⟩
      | failed failure => nomatch ended
      | broken cause => nomatch ended

namespace Sample

/-- The blueprint of a type whose entities have parts. -/
def blueprint : String :=
  "\x7b\"createUri\":\"/things/\x7bname\x7d\",\"children\":\x7b\"Part\":" ++
    "\x7b\"createUri\":\"/parts/\x7bname\x7d\"\x7d\x7d\x7d"

/-- A thing with a part, and a number among its parts. -/
def document : String :=
  "[\x7b\"name\":\"a\",\"children\":\x7b\"Part\":[\x7b\"name\":\"b\"\x7d,7]\x7d\x7d]"

/-- A server that gives the blueprint and accepts everything else. -/
def accepting : Server Unit := fun _ request state =>
  let body := if request.path = "/blueprints/Thing" then blueprint else "\x7b\x7d"
  (⟨.answered ⟨200, some body, none⟩, 0⟩, state)

def engine : Engine := .create ⟨"/blueprints", 2, 1000, "sample"⟩ none false

def api : Api Unit := ⟨⟨0⟩, .direct, accepting⟩

/-- The run of the document. -/
def ran : RunResult Unit (List Entity) := engine.execute api 60 (·.document "Thing" document) ()

/-- The run succeeds, and what is begun is the thing and then its part. -/
theorem ran_stands :
    Outcome.isValue ran.outcome = true ∧
      (ran.notices.filterMap Notice.visit?).map (fun visit =>
        (visit.desired.type, visit.desired.name?)) = [("Thing", some "a"), ("Part", some "b")] := by
  decide +kernel

/-- The thing and its part are begun once each; the number is not. -/
theorem thing_and_part_reconciled_once : ∃ events, ∃ roots : List Entity,
    Stage.Steps (engine.run api) (.active ((engine.run api).document "Thing" document)) events
      (.finished (.value roots)) ∧
    (visits events).map (fun visit => (visit.desired.type, visit.desired.name?))
      = [("Thing", some "a"), ("Part", some "b")] ∧
    ∃ nodes blueprint, ∃ families : List Family,
      Json.read? (Text.Comments.strip document) = some (.array nodes) ∧
      families.map (·.node) = nodes.filter (·.members?.isSome) ∧
      (∀ family ∈ families, Reconciled (engine.run api) (calls events) blueprint
        (blueprint.rootClassName "Thing") .empty family.node family.visits family.result) ∧
      (visits events).Perm (families.flatMap (·.visits)) := by
  obtain ⟨succeeds, began⟩ := ran_stands
  obtain ⟨roots, ended⟩ := Outcome.value_of_isValue succeeds
  obtain ⟨events, world, steps, records, _, told⟩ :=
    engine.execute_interleaves api 60 (·.document "Thing" document) () _ ended
  have faithful : (engine.run api).Faithful := by
    intro observer here
    nomatch here
  obtain ⟨nodes, blueprint, families, spelled, _, objects, reconciled, begun, _⟩ :=
    Run.each_entity_reconciled_once rfl faithful steps
  refine ⟨events, roots, steps, ?_, nodes, blueprint, families, spelled, objects, reconciled,
    begun⟩
  rw [ran, told, records.told_in_journal fun _ => rfl] at began
  rw [visits, funext Event.visit?_eq]
  exact began

end Sample

end DesiredState
