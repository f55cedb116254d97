import DesiredState.Proofs.Run.Coverage
import DesiredState.Proofs.Run.Keeping
import DesiredState.Proofs.Schedule.Termination

/-!
# Documents are handled in finitely many steps

The nodes of the children of an entity are parts of its own node. So the plan for a document is
bounded, whatever blueprint is fetched and whatever is answered (`bounded_document`).
-/

set_option autoImplicit false

namespace DesiredState

/-! ## Children are smaller -/

/-- The entries of a map that was made from a list are items of the list. -/
theorem mem_of_mem_ofList {β : Type} {entry : String × β} {entries : List (String × β)}
    (member : entry ∈ (NameMap.ofList entries).entries) : entry ∈ entries := by
  have each : ∀ {entries : List (String × β)} {map : NameMap β},
      entry ∈ (entries.foldl (fun map entry => map.insert entry.1 entry.2) map).entries →
        entry ∈ map.entries ∨ entry ∈ entries := by
    intro entries
    induction entries with
    | nil => exact fun member => .inl member
    | cons first rest ih =>
        intro map member
        rcases ih member with inserted | later
        · rcases mem_insertEntry inserted with same | old
          · exact .inr (same ▸ List.mem_cons_self)
          · exact .inl old
        · exact .inr (List.mem_cons_of_mem _ later)
  rcases each member with nothing | inside
  · nomatch nothing
  · exact inside

/-- A member of an object is smaller than the object. -/
theorem sizeOf_member {name : String} {value : Json} {members : List (String × Json)}
    (member : (name, value) ∈ members) : sizeOf value < sizeOf (Json.object members) := by
  have inside := List.sizeOf_lt_of_mem member
  simp only [Json.object.sizeOf_spec]
  simp only [Prod.mk.sizeOf_spec] at inside
  omega

theorem sizeOf_find? {node value : Json} {members : NameMap Json} {name : String}
    (isObject : node.members? = some members) (found : members.find? name = some value) :
    sizeOf value < sizeOf node := by
  cases node with
  | object listed =>
      cases isObject
      exact sizeOf_member (mem_of_mem_ofList (mem_of_lookupEntry found))
  | _ => nomatch isObject

/-- A child node is smaller than its parent. -/
theorem sizeOf_childNode {node : Json} {child : String × Json}
    (member : child ∈ Document.childNodes node) : sizeOf child.2 < sizeOf node := by
  unfold Document.childNodes at member
  split at member
  · cases member
  · rename_i lists lifted
    obtain ⟨value, found, lists?⟩ := Option.bind_eq_some_iff.mp lifted
    obtain ⟨members, isObject, found⟩ := Option.bind_eq_some_iff.mp found
    obtain ⟨⟨type, nodes⟩, inLists, inside⟩ := List.mem_flatMap.mp member
    obtain ⟨kept, inNodes, rfl⟩ := List.mem_map.mp inside
    have inner : sizeOf kept < sizeOf value := by
      unfold Entity.childLists? at lists?
      split at lists?
      · rename_i listed
        split at lists?
        · cases lists?
          obtain ⟨entry, inEntries, same⟩ := List.mem_map.mp inLists
          cases same
          have smaller := sizeOf_member (mem_of_mem_ofList inEntries)
          obtain ⟨member, _⟩ := List.mem_filter.mp inNodes
          cases listedValue : entry.2 with
          | array items =>
              rw [listedValue] at member smaller
              have item := List.sizeOf_lt_of_mem member
              simp only [Json.items?, Option.getD_some, Json.array.sizeOf_spec] at item smaller
              omega
          | _ =>
              rw [listedValue] at member
              cases member
        · cases lists?
      · cases lists?
    exact Nat.lt_trans inner (sizeOf_find? isObject found)

/-! ## Bounded plans -/

/-- Children may be handed out if their nodes are smaller than the bound. -/
def Contract.lesser (bound : Nat) : Contract where
  asks _ := True
  hears _ _ := True
  begins _ := True
  accepts _ child := ∃ node members className, Json.members? node = some members ∧
    child = .ofNode members className ∧ sizeOf node < bound
  strict := False

/-- A plan that hands out only children with bounded plans is bounded. -/
theorem Plan.Keeps.bounded {run : Run} {bound : Nat}
    (tasks : ∀ group child, (Contract.lesser bound).accepts group child →
      (run.childTask group child).Bounded run) {α : Type} {promise : α → Prop} {plan : Plan α} :
    plan.Keeps (.lesser bound) promise → plan.Bounded run := by
  induction plan with
  | done outcome => exact fun _ => .done outcome
  | call request next ih =>
      intro keeps
      exact .call request fun exchange => ih exchange (keeps.2 exchange trivial)
  | note notice next ih => exact fun keeps => .note notice (ih keeps.of_note)
  | remember session entity next ih => exact fun keeps => .remember session entity (ih keeps)
  | «recall» session entity next ih =>
      exact fun keeps => .recall session entity fun known => ih known (keeps known)
  | batch group next ih =>
      intro keeps
      refine .batch group (fun child member => tasks group child (keeps.1 child member)) ?_
      exact fun result => ih result (keeps.2 result fun strict => strict.elim)

namespace Run

variable {run : Run}

/-- The children of an entity have smaller nodes. -/
theorem keeps_lesser {node : Json} {members : NameMap Json}
    (isObject : node.members? = some members)
    (blueprint : Blueprint) (lineage : Lineage) (className : String) {bound : Nat}
    (small : sizeOf node ≤ bound) :
    (run.reconcile blueprint lineage (.ofNode members className)).Keeps (.lesser bound)
      fun _ => True := by
  have settles : (run.settle blueprint lineage (.ofNode members className)).Keeps (.lesser bound)
      fun _ => True := (solitary_settle _).keeps (fun _ => trivial) id
  refine keeps_reconcile trivial settles (fun _ _ strict => strict.elim) ?_
  intro settled _ batch _ child _ member
  obtain ⟨origin, inNode, fields, simple, innerObject, same⟩ :=
    origin_of_offspring isObject rfl member
  exact ⟨origin.2, fields, simple, innerObject, same,
    Nat.lt_of_lt_of_le (sizeOf_childNode inNode) small⟩

/-- The plan for the entity of a node is bounded. -/
theorem bounded_reconcile : ∀ (bound : Nat) {node : Json} {members : NameMap Json},
    node.members? = some members → sizeOf node ≤ bound →
    ∀ (blueprint : Blueprint) (lineage : Lineage) (className : String),
      (run.reconcile blueprint lineage (.ofNode members className)).Bounded run := by
  intro bound
  induction bound with
  | zero =>
      intro node members isObject small
      cases node with
      | object listed =>
          rw [Json.object.sizeOf_spec] at small
          omega
      | _ => nomatch isObject
  | succ bound ih =>
      intro node members isObject small blueprint lineage className
      refine (keeps_lesser isObject blueprint lineage className small).bounded ?_
      rintro group child ⟨inner, fields, simple, innerObject, rfl, smaller⟩
      exact ih innerObject (Nat.le_of_lt_succ smaller) group.blueprint group.lineage simple

/-- **The plan for a document is bounded.** -/
theorem bounded_document (type text : String) : (run.document type text).Bounded run := by
  have fetches : (run.fetchBlueprint type).Keeps (.lesser (sizeOf (Document.nodes? text)))
      fun _ => True :=
    Plan.Solitary.keeps (solitary_fetchBlueprint type : Plan.Solitary False _) (fun _ => trivial) id
  have keeps : (run.document type text).Keeps (.lesser (sizeOf (Document.nodes? text)))
      fun _ => True := by
    refine keeps_document (fun strict => strict.elim) fetches (fun strict => strict.elim) ?_
    intro blueprint _ nodes spelled entity member
    obtain ⟨node, inNodes, read⟩ := List.mem_filterMap.mp member
    obtain ⟨members, isObject, rfl⟩ := Option.map_eq_some_iff.mp read
    refine keeps_lesser isObject blueprint .empty _ ?_
    have smaller := List.sizeOf_lt_of_mem inNodes
    rw [spelled, Option.some.sizeOf_spec]
    omega
  refine keeps.bounded ?_
  rintro group child ⟨node, members, className, isObject, rfl, smaller⟩
  exact bounded_reconcile _ isObject (Nat.le_refl _) group.blueprint group.lineage className

end Run

end DesiredState
