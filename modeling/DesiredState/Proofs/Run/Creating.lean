import DesiredState.Proofs.Run.Ancestry
import DesiredState.Proofs.Run.Bounds
import DesiredState.Proofs.Run.Updating

/-!
# What a create is made of

A model node is divided into flags, child lists and fields (`Entity.Divides`). Each of its members
goes to one of the three as a whole: a `children` that is not an object of arrays is a field like
any other, and child lists that are lifted keep their items one by one.

**What is sent.** A create sends the fields and nothing else, except that the field that refers to
the parent holds the value of the ancestor, whatever the node says of it (`Visit.Conveys`). What is
handled below an entity was read from the objects in its child lists, so at any depth of a document
a create has the members of the node at this place of the document (`Document.NodeAt`).

**Creates and updates.** A write for an entity is a create if no lookup has found the entity before,
and else an update.
-/

set_option autoImplicit false

namespace DesiredState

/-! ## Maps whose values are replaced -/

namespace NameMap

variable {β γ : Type}

theorem find?_map (transform : β → γ) (source : NameMap β) (name : String) :
    (source.map transform).find? name = (source.find? name).map transform := by
  obtain ⟨entries, ordered⟩ := source
  change lookupEntry name (entries.map fun entry => (entry.1, transform entry.2))
    = (lookupEntry name entries).map transform
  clear ordered
  induction entries with
  | nil => rfl
  | cons entry rest ih =>
      rw [List.map_cons, lookupEntry, lookupEntry]
      split
      · rfl
      · exact ih

/-- Values that are replaced and put back are the old ones. -/
theorem map_map_of_inverse {source : NameMap β} {there : β → γ} {back : γ → β}
    (same : ∀ entry ∈ source.entries, back (there entry.2) = entry.2) :
    (source.map there).map back = source := by
  obtain ⟨entries, ordered⟩ := source
  have kept : ((entries.map fun entry => (entry.1, there entry.2)).map fun entry =>
      (entry.1, back entry.2)) = entries := by
    rw [List.map_map]
    refine (List.map_congr_left fun entry member => ?_).trans entries.map_id
    exact Prod.ext rfl (same entry member)
  simp only [map, kept]

end NameMap

/-! ## The parts of a node -/

namespace Document

/-- The node has child lists: what its member for them holds is an object whose values are all
arrays. -/
def HasLists (node : NameMap Json) (members : List (String × Json)) : Prop :=
  node.find? Entity.childrenMember = some (.object members) ∧
    ∀ member ∈ members, member.2.isArray = true

/-- The member is no field: it says how the entity is handled, or it holds child lists. -/
def Directs (node : NameMap Json) (name : String) : Prop :=
  name = Entity.updateMember ∨ name = Entity.substituteMember ∨
    name = Entity.childrenMember ∧ ∃ members, HasLists node members

end Document

namespace Entity

open Document (HasLists Directs)

/-- Each member of the node is a flag of the entity, or its child lists, or a field of it. -/
structure Divides (entity : Entity) (node : NameMap Json) : Prop where
  /-- A member that is not `true` says as much as none. -/
  updates : entity.updates = true ↔ node.find? updateMember = some (.bool true)
  substitutes : entity.substitutes = true ↔ node.find? substituteMember = some (.bool true)
  /-- Child lists are those of the node, item by item. -/
  lists : ∀ members, HasLists node members →
    entity.children.map Json.array = NameMap.ofList members
  childless : (∀ members, ¬ HasLists node members) → entity.children = .empty
  directs : ∀ name, Directs node name → entity.field? name = none
  fields : ∀ name, ¬ Directs node name → entity.field? name = node.find? name

theorem flag_iff {node : NameMap Json} {member : String} :
    flag node member = true ↔ node.find? member = some (.bool true) := by
  unfold flag
  cases node.find? member with
  | none => simp
  | some value => cases value <;> simp [Json.isTrue]

/-- An object whose values are all arrays is lifted as it is. -/
theorem childLists?_of_arrays {members : List (String × Json)}
    (arrays : ∀ member ∈ members, member.2.isArray = true) :
    ∃ lists, childLists? (.object members) = some lists ∧
      lists.map Json.array = .ofList members := by
  refine ⟨_, if_pos (List.all_eq_true.mpr arrays), NameMap.map_map_of_inverse ?_⟩
  intro entry member
  have array := arrays entry (mem_of_mem_ofList member)
  cases held : entry.2 with
  | array items => rfl
  | _ =>
      rw [held] at array
      nomatch array

/-- Nothing else is lifted. -/
theorem arrays_of_childLists {value : Json} {lists : NameMap (List Json)}
    (lifted : childLists? value = some lists) :
    ∃ members, value = .object members ∧ ∀ member ∈ members, member.2.isArray = true := by
  unfold childLists? at lifted
  split at lifted
  · rename_i members
    obtain ⟨arrays, _⟩ := Option.ite_none_right_eq_some.mp lifted
    exact ⟨members, rfl, List.all_eq_true.mp arrays⟩
  · nomatch lifted

section Parts

variable {node : NameMap Json} (className : String)

/-- What is lifted does not depend on the flags. -/
theorem find?_children_unflagged (node : NameMap Json) :
    ((node.erase updateMember).erase substituteMember).find? childrenMember
      = node.find? childrenMember := by
  rw [NameMap.find?_erase, if_neg (by decide), NameMap.find?_erase, if_neg (by decide)]

/-- The parts of a node whose child lists are lifted. -/
theorem ofNode_of_lifted {lists : NameMap (List Json)}
    (lifted : (node.find? childrenMember).bind childLists? = some lists) :
    (ofNode node className).children = lists ∧
      ∀ name, (ofNode node className).field? name
        = if name = childrenMember ∨ name = substituteMember ∨ name = updateMember then none
          else node.find? name := by
  rw [← find?_children_unflagged] at lifted
  simp only [ofNode, lifted, Option.getD_some, Option.isSome_some, if_true, true_and]
  intro name
  simp only [field?, NameMap.find?_erase, ite_or]

/-- The parts of a node from which nothing is lifted. -/
theorem ofNode_of_unlifted (nothing : (node.find? childrenMember).bind childLists? = none) :
    (ofNode node className).children = .empty ∧
      ∀ name, (ofNode node className).field? name
        = if name = substituteMember ∨ name = updateMember then none else node.find? name := by
  rw [← find?_children_unflagged] at nothing
  simp only [ofNode, nothing, Option.getD_none, Option.isSome_none, Bool.false_eq_true, if_false,
    true_and]
  intro name
  simp only [field?, NameMap.find?_erase, ite_or]

/-- **A node is divided into the parts of its entity.** -/
theorem divides_ofNode (node : NameMap Json) (className : String) :
    (ofNode node className).Divides node := by
  cases lifted : (node.find? childrenMember).bind childLists? with
  | some lists =>
      obtain ⟨value, held, lifts⟩ := Option.bind_eq_some_iff.mp lifted
      obtain ⟨members, rfl, arrays⟩ := arrays_of_childLists lifts
      obtain ⟨children, fields⟩ := ofNode_of_lifted className lifted
      have listed : ∃ members, HasLists node members := ⟨members, held, arrays⟩
      refine ⟨flag_iff, flag_iff, ?_, fun none => absurd listed (not_exists.mpr none), ?_, ?_⟩
      · rintro others ⟨also, arrays⟩
        obtain ⟨same, again, listed⟩ := childLists?_of_arrays arrays
        rw [also] at lifted
        rw [children, ← listed, Option.some.inj (again.symm.trans lifted)]
      · rintro name directs
        rw [fields, if_pos]
        unfold Directs at directs
        tauto
      · rintro name other
        rw [fields, if_neg]
        unfold Directs at other
        tauto
  | none =>
      obtain ⟨children, fields⟩ := ofNode_of_unlifted className lifted
      have unlisted : ∀ members, ¬ HasLists node members := by
        rintro members ⟨held, arrays⟩
        obtain ⟨lists, lifts, _⟩ := childLists?_of_arrays arrays
        rw [held, Option.bind_some, lifts] at lifted
        nomatch lifted
      refine ⟨flag_iff, flag_iff, fun members lists => absurd lists (unlisted members),
        fun _ => children, ?_, ?_⟩
      · rintro name (flag | flag | ⟨_, members, lists⟩)
        · rw [fields, if_pos (.inr flag)]
        · rw [fields, if_pos (.inl flag)]
        · exact absurd lists (unlisted members)
      · rintro name other
        rw [fields, if_neg]
        rintro (flag | flag)
        · exact other (.inr (.inl flag))
        · exact other (.inl flag)

end Parts

end Entity

/-! ## The nodes of a document -/

namespace Document

/-- The objects in a list of nodes. -/
def objects (nodes : List Json) : List (NameMap Json) := nodes.filterMap Json.members?

theorem entities_eq (className : String) (nodes : List Json) :
    entities className nodes = (objects nodes).map (Entity.ofNode · className) :=
  List.map_filterMap.symm

/-- The node stands below another one, at the end of a way through child lists. -/
inductive NodeAt : NameMap Json → Origin → NameMap Json → Prop
  | here (node : NameMap Json) : NodeAt node [] node
  | child {node child below : NameMap Json} {members : List (String × Json)} {type : String}
      {items : List Json} {number : Nat} {rest : Origin} (lists : HasLists node members)
      (list : (NameMap.ofList members).find? type = some (.array items))
      (item : (objects items)[number]? = some child) (further : NodeAt child rest below) :
      NodeAt node (.child type number :: rest) below

/-- The node stands in a document, below a root of it. -/
def Holds (text : String) (origin : Origin) (node : NameMap Json) : Prop :=
  ∃ nodes number root rest, origin = .root number :: rest ∧ nodes? text = some nodes ∧
    (objects nodes)[number]? = some root ∧ NodeAt root rest node

/-- The node stands in one of the documents. -/
def AnyHolds (documents : List (String × String)) (origin : Origin) (node : NameMap Json) : Prop :=
  ∃ number named rest, origin = .document number :: rest ∧ documents[number]? = some named ∧
    Holds named.2 rest node

/-- What stands in a child list of an entity stands in one of its node. -/
theorem nodeAt_of_children {node child below : NameMap Json} (className : String) {type : String}
    {number : Nat} {rest : Origin}
    (item : (objects (((Entity.ofNode node className).children.find? type).getD []))[number]?
      = some child) (further : NodeAt child rest below) :
    NodeAt node (.child type number :: rest) below := by
  have divides := Entity.divides_ofNode node className
  generalize Entity.ofNode node className = entity at item divides
  cases listed : entity.children.find? type with
  | none =>
      rw [listed] at item
      nomatch item
  | some items =>
      by_cases lists : ∃ members, HasLists node members
      · obtain ⟨members, lists⟩ := lists
        have list := NameMap.find?_map Json.array entity.children type
        rw [divides.lists members lists, listed] at list
        rw [listed] at item
        exact .child lists list item further
      · rw [divides.childless (not_exists.mp lists)] at listed
        nomatch listed

end Document

/-! ## What a create sends -/

namespace Visit

open Document (Directs)

/-- The fields are the members of the node that are fields, with the one that refers to the parent
taken from the ancestor. -/
structure Conveys (visit : Visit) (node fields : NameMap Json) : Prop where
  parent : ∀ own reference, visit.blueprint.parentLink = some ⟨some own, reference⟩ →
    ∃ ancestor value,
      visit.lineage.nearest? (if reference.entity = FieldReference.parentSentinel then own
        else reference.entity) = some ancestor ∧
      ancestor.field? reference.field = some value ∧ value ≠ .null ∧ fields.find? own = some value
  directs : ∀ name, visit.parentField? ≠ some name → Directs node name → fields.find? name = none
  others : ∀ name, visit.parentField? ≠ some name → ¬ Directs node name →
    fields.find? name = node.find? name

/-- Each write for an entity that no call before it has found sends the node. -/
def SendsNode (visit : Visit) (node : NameMap Json) (sent : List Call) : Prop :=
  ∀ before write after, sent = before ++ write :: after → write.request.method.isWrite = true →
    (∀ lookup response, ⟨lookup, .answered response⟩ ∈ before →
      response.status ≠ Run.foundStatus) →
    ∃ fields, write.request.body = some (.ofMap fields) ∧ visit.Conveys node fields

variable {visit : Visit} {node : NameMap Json} {className : String} {sent : List Call}

/-- The entity of a node that is linked to its parent has the fields of a create. -/
theorem conveys_of_linked (made : visit.desired = .ofNode node className) {sender : Entity}
    (links : Run.linked visit.blueprint visit.lineage visit.desired = .ok sender) :
    visit.Conveys node sender.fields := by
  have divides := Entity.divides_ofNode node className
  rw [← made] at divides
  refine ⟨?_, ?_, ?_⟩
  · intro own reference linking
    obtain ⟨value, found, set⟩ := Run.value_of_linked linking links
    obtain ⟨ancestor, near, held, some⟩ := ParentLink.value_eq_ok_iff.mp found
    exact ⟨ancestor, value, near, held, some, set⟩
  · intro name other directs
    exact (field?_of_linked links other).trans (divides.directs name directs)
  · intro name other field
    exact (field?_of_linked links other).trans (divides.fields name field)

/-- Whatever reads is no write. -/
theorem SendsNode.of_reads (reads : ∀ call ∈ sent, call.request.method = .get) :
    visit.SendsNode node sent := by
  rintro before write after rfl writes _
  rw [reads write (List.mem_append_right _ List.mem_cons_self)] at writes
  nomatch writes

/-- What is asked for an entity in order sends its node. -/
theorem Asks.sendsNode (asks : visit.Asks sent) (made : visit.desired = .ofNode node className) :
    visit.SendsNode node sent := by
  obtain ⟨looks, writes, again, whole, orderly⟩ := asks
  intro before write after split isWrite unfound
  rcases split_append (split.symm.trans whole) with ⟨rest, rfl⟩ | ⟨behind, rfl, later⟩
  · -- a lookup does not write
    obtain ⟨path, _, request⟩ := orderly.lookup write (by simp)
    rw [request] at isWrite
    nomatch isWrite
  · have place : write ∈ writes ∨ write ∈ again :=
      List.mem_append.mp (later ▸ List.mem_append_right _ List.mem_cons_self)
    rcases place with member | member
    · rcases orderly.write write member with ⟨_, uri, sender, ready, request⟩ |
        ⟨_, ⟨lookup, response, looked, found⟩, _⟩
      · obtain ⟨_, links, _⟩ := of_submission ready
        exact ⟨sender.fields, by rw [request]; rfl, conveys_of_linked made links⟩
      · exact absurd found (unfound lookup response (by simp [looked]))
    · obtain ⟨_, _, _, _, _, _, _, _, _, request⟩ := orderly.recovery write member
      rw [request] at isWrite
      nomatch isWrite

end Visit

namespace Account

variable {run : Run} {account part : Account} {origin : Origin} {visit : Visit}

/-- The task of the entity of a node sends the node. -/
theorem Sound.sendsNode (unobserved : run.observer = none) (sound : account.Sound run)
    (ordered : account.task.Ordered) (found : account.part? origin = some part)
    (entity : part.task = .entity visit) {node : NameMap Json} {className : String}
    (made : visit.desired = .ofNode node className) :
    visit.SendsNode node (calls (account.history.own origin)) := by
  cases dry : run.dry with
  | true =>
      refine .of_reads fun call member => ?_
      have within := sound.within_own dry ordered found
      exact (part.task.reads_only run _ (within.subset (List.mem_map_of_mem member))).1
  | false =>
      rw [sound.calls_own ordered found]
      rcases (sound.of_part? ordered found).1.protocol dry unobserved entity with nothing |
        ⟨own, closing, more, outcome, all, closes, protocol⟩
      · rw [nothing]
        exact .of_reads (List.forall_mem_nil _)
      · have asks := protocol.asks
        rw [calls_append] at asks
        have same : calls part.own = calls own := by
          rw [all, calls_cons, calls_append, calls_of_closing closes, List.append_nil]
          rfl
        rw [same]
        exact asks.of_append.sendsNode made

/-- Only tasks of entities write. -/
theorem Sound.entity_of_write (sound : account.Sound run) (ordered : account.task.Ordered)
    {call : Call} (inside : (origin, .called call) ∈ account.history)
    (writes : call.request.method.isWrite = true) :
    ∃ part visit, account.part? origin = some part ∧ part.task = .entity visit := by
  obtain ⟨part, found⟩ := Option.isSome_iff_exists.mp (sound.known ordered _ inside)
  rcases (sound.of_part? ordered found).1.within_or_entity with within | ⟨visit, entity⟩
  · have own : call ∈ calls (account.history.own origin) :=
      List.mem_filterMap.mpr ⟨_, List.mem_filterMap.mpr ⟨_, inside, if_pos rfl⟩, rfl⟩
    rw [sound.calls_own ordered found] at own
    have reads := part.task.reads_only run _ (within.subset (List.mem_map_of_mem own))
    rw [reads.1] at writes
    nomatch writes
  · exact ⟨part, visit, found, entity⟩

/-! ## Where the nodes stand -/

open Document (NodeAt)

/-- What is handed out by the task of a node's entity is read from the child lists of the node. -/
theorem Sound.node_of_member (sound : account.Sound run) (entity : account.task = .entity visit)
    {node : NameMap Json} {className : String} (made : visit.desired = .ofNode node className)
    {member : Waypoint × Account} (inside : member ∈ account.members) :
    ∃ below name child, member.2.task = .entity below ∧ below.desired = .ofNode child name ∧
      ∀ rest last, NodeAt child rest last → NodeAt node (member.1 :: rest) last := by
  obtain ⟨groups, goesOn, group, inGroups, handed⟩ := sound.goesOn_of_member inside
  rw [entity] at goesOn
  generalize account.own = own at goesOn
  cases goesOn with
  | @entity _ own settled settles _ =>
      obtain ⟨declared, _, rfl⟩ := List.mem_map.mp inGroups
      obtain ⟨⟨entity, number⟩, listed, same⟩ := List.mem_map.mp handed
      obtain ⟨place, task⟩ := Prod.mk.inj same
      have listed := List.mem_zipIdx_iff_getElem?.mp listed
      rw [Entity.childrenOf, Document.entities_eq, List.getElem?_map] at listed
      obtain ⟨child, item, rfl⟩ := Option.map_eq_some_iff.mp listed
      rw [Visit.placed, made] at item
      refine ⟨_, _, child, task.symm, rfl, fun rest last further => ?_⟩
      rw [← place]
      exact Document.nodeAt_of_children className item further

/-- **Each entity below that of a node was read from the node at its place.** -/
theorem Sound.nodeAt : ∀ {origin : Origin} {account part : Account} {top visit : Visit}
    {root : NameMap Json} {className : String}, account.Sound run → account.task.Ordered →
    account.task = .entity top → top.desired = .ofNode root className →
    account.part? origin = some part → part.task = .entity visit →
    ∃ node name, NodeAt root origin node ∧ visit.desired = .ofNode node name
  | [], _, _, _, _, root, className, _, _, entity, made, found, task => by
      cases found
      cases entity.symm.trans task
      exact ⟨root, className, .here root, made⟩
  | place :: rest, account, part, top, visit, root, className, sound, ordered, entity, made, found,
      task => by
      obtain ⟨member, inMembers, rfl, below⟩ := member_of_part? found
      obtain ⟨sounds, orders⟩ := sound.of_member ordered member inMembers
      obtain ⟨first, _, child, starts, madeOf, leads⟩ := sound.node_of_member entity made inMembers
      obtain ⟨node, name, stands, read⟩ := nodeAt sounds orders starts madeOf below task
      exact ⟨node, name, leads rest node stands, read⟩

/-- Each entity of a document was read from the node at its place. -/
theorem Sound.holds {type text : String} (sound : account.Sound run)
    (ordered : account.task.Ordered) (document : account.task = .document type text)
    (found : account.part? origin = some part) (task : part.task = .entity visit) :
    ∃ node name, Document.Holds text origin node ∧ visit.desired = .ofNode node name := by
  cases origin with
  | nil =>
      cases found
      cases document.symm.trans task
  | cons place rest =>
      obtain ⟨member, inMembers, rfl, below⟩ := member_of_part? found
      obtain ⟨sounds, orders⟩ := sound.of_member ordered member inMembers
      obtain ⟨groups, goesOn, group, inGroups, handed⟩ := sound.goesOn_of_member inMembers
      rw [document] at goesOn
      generalize account.own = own at goesOn
      cases goesOn with
      | document opens =>
          obtain ⟨nodes, _, spelled, rfl⟩ := Task.fetches_of_opening opens
          obtain ⟨⟨entity, number⟩, listed, rfl⟩ := List.mem_map.mp inGroups
          obtain ⟨place, starts⟩ := Prod.mk.inj (List.mem_singleton.mp handed)
          have listed := List.mem_zipIdx_iff_getElem?.mp listed
          rw [Document.entities_eq, List.getElem?_map] at listed
          obtain ⟨root, item, rfl⟩ := Option.map_eq_some_iff.mp listed
          obtain ⟨node, name, stands, read⟩ := nodeAt sounds orders starts rfl below task
          exact ⟨node, name, ⟨nodes, number, root, rest, by rw [place], spelled, item, stands⟩,
            read⟩

/-- Each entity of a catalog was read from the node at its place. -/
theorem Sound.anyHolds {documents : List (String × String)} (sound : account.Sound run)
    (ordered : account.task.Ordered) (catalog : account.task = .catalog documents)
    (found : account.part? origin = some part) (task : part.task = .entity visit) :
    ∃ node name, Document.AnyHolds documents origin node ∧ visit.desired = .ofNode node name := by
  cases origin with
  | nil =>
      cases found
      cases catalog.symm.trans task
  | cons place rest =>
      obtain ⟨member, inMembers, rfl, below⟩ := member_of_part? found
      obtain ⟨sounds, orders⟩ := sound.of_member ordered member inMembers
      obtain ⟨groups, goesOn, group, inGroups, handed⟩ := sound.goesOn_of_member inMembers
      rw [catalog] at goesOn
      generalize account.own = own at goesOn
      cases goesOn with
      | catalog _ =>
          obtain ⟨⟨named, number⟩, listed, rfl⟩ := List.mem_map.mp inGroups
          obtain ⟨place, starts⟩ := Prod.mk.inj (List.mem_singleton.mp handed)
          have listed := List.mem_zipIdx_iff_getElem?.mp listed
          obtain ⟨node, name, holds, read⟩ := sounds.holds orders starts below task
          exact ⟨node, name, ⟨number, named, rest, by rw [place], listed, holds⟩, read⟩

end Account

namespace Run

open Document (NodeAt Holds AnyHolds)

/-- The events are those of an account of the task in which every entity was read from a node at its
place, and every write for an entity that was not found sends this node. -/
def SendsNodes (run : Run) (task : Task) (stands : Origin → NameMap Json → Prop)
    (events : List Event) : Prop :=
  ∃ account : Account, account.task = task ∧ account.Sound run ∧ account.history.events = events ∧
    (∀ origin call, (origin, Event.called call) ∈ account.history →
      call.request.method.isWrite = true →
      ∃ part visit, account.part? origin = some part ∧ part.task = .entity visit) ∧
    ∀ origin part visit, account.part? origin = some part → part.task = .entity visit →
      ∃ node className, stands origin node ∧ visit.desired = .ofNode node className ∧
        visit.SendsNode node (calls (account.history.own origin))

variable {run : Run}

theorem Accounts.sendsNodes (unobserved : run.observer = none) {task : Task}
    (ordered : task.Ordered) {events : List Event} {fate : Fate}
    (accounts : Accounts run task events fate) {stands : Origin → NameMap Json → Prop}
    (read : ∀ {account : Account}, account.Sound run → account.task.Ordered →
      account.task = task → ∀ {origin part visit}, account.part? origin = some part →
      part.task = .entity visit →
      ∃ node className, stands origin node ∧ visit.desired = .ofNode node className) :
    SendsNodes run task stands events := by
  obtain ⟨account, rfl, _, sound, rfl⟩ := accounts
  refine ⟨account, rfl, sound, rfl, fun _ _ inside writes =>
    sound.entity_of_write ordered inside writes, ?_⟩
  intro origin part visit found entity
  obtain ⟨node, className, place, made⟩ := read sound ordered rfl found entity
  exact ⟨node, className, place, made, sound.sendsNode unobserved ordered found entity made⟩

/-- **A create sends the node and nothing else.** Every node is divided into the flags, the child
lists and the fields of its entity. Whatever a run without an observer is answered and in whatever
order its tasks act, each entity was read from the node at its place of the documents, at any depth,
and each write for an entity that was not found before sends the fields of this node, with the
parent field taken from the ancestor. Nothing else is written but updates of what was found. -/
theorem create_sends_node (unobserved : run.observer = none) :
    (∀ node className, (Entity.ofNode node className).Divides node) ∧
    (∀ documents events (stage : Stage ChildTask (List (String × String))),
      Stage.Steps run (.active (run.models documents)) events stage →
        SendsNodes run (.catalog documents) (AnyHolds documents) events) ∧
    (∀ type text events (stage : Stage ChildTask (List Entity)),
      Stage.Steps run (.active (run.document type text)) events stage →
        SendsNodes run (.document type text) (Holds text) events) ∧
    ∀ visit root className events (stage : Stage ChildTask (Option Entity)),
      visit.blueprint.Ordered → visit.desired = .ofNode root className →
      Stage.Steps run (.active (run.reconcile visit.blueprint visit.lineage visit.desired)) events
        stage →
      SendsNodes run (.entity visit) (NodeAt root) events := by
  refine ⟨Entity.divides_ofNode, ?_, ?_, ?_⟩
  · intro documents events stage steps
    obtain ⟨course, takes, orders⟩ := steps.takes
    have ordered : (Task.catalog documents).Ordered := trivial
    exact (accounts_of_models takes orders).sendsNodes unobserved ordered
      fun sound ordered catalog _ _ _ found entity => sound.anyHolds ordered catalog found entity
  · intro type text events stage steps
    obtain ⟨course, takes, orders⟩ := steps.takes
    have ordered : (Task.document type text).Ordered := trivial
    exact (accounts_of_document takes orders).sendsNodes unobserved ordered
      fun sound ordered document _ _ _ found entity => sound.holds ordered document found entity
  · intro visit root className events stage sorted made steps
    obtain ⟨course, takes, orders⟩ := steps.takes
    have ordered : (Task.entity visit).Ordered := sorted
    exact (accounts_of_reconcile takes orders).sendsNodes unobserved ordered
      fun sound ordered task _ _ _ found entity => sound.nodeAt ordered task made found entity

end Run

/-! ## A thing with a part that has no child lists -/

namespace Sample

/-- The node of a thing with a part that is said to be of another thing, and that has a list in the
place of child lists. -/
def mislabelled : NameMap Json :=
  .ofList [("name", .string "a"), ("_update", .bool true),
    ("children", .object [("Part", .array [.null, .object [("name", .string "b"),
      ("thing", .string "x"), ("_subst", .string "no"), ("children", .array [.null])]])])]

/-- The thing, whose parts say which thing they are of. -/
def labelled : Visit where
  blueprint := { Blueprint.blank with
    createUri := "/things/\x7bname\x7d"
    updateUri := some "/things/\x7bname\x7d"
    children := some [("Part", { Blueprint.blank with
      createUri := "/parts/\x7bname\x7d"
      parentLink := some ⟨some "thing", ⟨FieldReference.parentSentinel, "name"⟩⟩ })] }
  lineage := .empty
  desired := .ofNode mislabelled "Thing"

theorem ordered_labelled : labelled.blueprint.Ordered :=
  .mk (List.pairwise_singleton _ _)
    (List.forall_mem_singleton.mpr (.mk .nil (List.forall_mem_nil _)))

/-- Nothing is found, and whatever is sent is accepted. -/
def vacant (request : Request) (state : Unit) : Exchange × Unit :=
  match request.method with
  | .get => (.answered ⟨404, none, none⟩, state)
  | _ => (.answered ⟨200, some "\x7b\"name\":\"a\"\x7d", none⟩, state)

/-- The handling of the thing. -/
def labelling : RunResult ((String → Unit) × List Call) (Option Entity) :=
  (Engine.create ⟨"/blueprints", 2, 1000, "sample"⟩ none false).execute
    ⟨⟨0⟩, .direct, .recorded vacant⟩ 40
    (·.reconcile labelled.blueprint labelled.lineage labelled.desired) (fun _ => (), [])

/-- The request as it is written down: its verb, its path and its body. -/
def written (request : Request) : Method × String × Option String :=
  (request.method, request.path, request.body.map Json.print)

/-- The thing is not found, and the part cannot be looked up. -/
theorem labelling_stands : (inPlace? labelling).isSome = true ∧
    labelling.server.2.reverse.map (fun call => written call.request)
      = [(.get, "/things/a", none), (.put, "/things/a", some "\x7b\"name\":\"a\"\x7d"),
        (.put, "/parts/b", some "\x7b\"children\":[null],\"name\":\"b\",\"thing\":\"a\"\x7d")] := by
  decide +kernel

/-- Both are created from their nodes. -/
theorem labelled_created_from_nodes : ∃ events placed,
    Stage.Steps (trial false) (.active ((trial false).reconcile labelled.blueprint
      labelled.lineage labelled.desired)) events (.finished (.value (some placed))) ∧
    (calls events).map (fun call => written call.request)
      = [(.get, "/things/a", none), (.put, "/things/a", some "\x7b\"name\":\"a\"\x7d"),
        (.put, "/parts/b", some "\x7b\"children\":[null],\"name\":\"b\",\"thing\":\"a\"\x7d")] ∧
    Run.SendsNodes (trial false) (.entity labelled) (Document.NodeAt mislabelled) events := by
  obtain ⟨there, requests⟩ := labelling_stands
  have unobserved : (trial false).observer = none := rfl
  obtain ⟨placed, inPlace⟩ := Option.isSome_iff_exists.mp there
  obtain ⟨events, steps, _, called, _⟩ := Engine.execute_recorded _ _ _ _ _ _ _
    (rfl : _ = labelling) (outcome_of_inPlace inPlace)
  refine ⟨events, placed, steps, ?_, (Run.create_sends_node unobserved).2.2.2 labelled mislabelled
    "Thing" _ _ ordered_labelled rfl steps⟩
  rw [called]
  exact requests

end Sample

end DesiredState
