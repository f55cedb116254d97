import DesiredState.Proofs.Run.Bounds
import DesiredState.Proofs.Run.Dry
import DesiredState.Proofs.Schedule.Spending

/-!
# Every run comes to its end

To put an entity in place takes at most three requests: its lookup, a write and the lookup after a
create that was rejected. So what is spent on an entity and its descendants is known from the number
of objects in its child lists, whatever is answered and whatever the observer does
(`Run.spends_reconcile`), and the steps that an engine gives to a run are enough for it
(`Engine.document_ends`, `Engine.models_ends`, `Engine.entity_ends`).

**Distinct types.** A child type that was declared twice would have its children handled twice. So
the prices hold under blueprints that declare each type once, as all that were read do.
-/

set_option autoImplicit false

namespace DesiredState

/-! ## Objects within values -/

namespace Json

theorem itemObjects_append (items others : List Json) :
    itemObjects (items ++ others) = itemObjects items + itemObjects others := by
  induction items with
  | nil => simp [itemObjects]
  | cons item items ih =>
      rw [List.cons_append, itemObjects, itemObjects, ih]
      omega

theorem itemObjects_perm {items others : List Json} (perm : items.Perm others) :
    itemObjects items = itemObjects others := by
  induction perm with
  | nil => rfl
  | cons item _ ih => rw [itemObjects, itemObjects, ih]
  | swap first second rest =>
      simp only [itemObjects]
      omega
  | trans _ _ first second => exact first.trans second

theorem memberObjects_insertEntry (name : String) (value : Json) (members : List (String × Json)) :
    memberObjects (insertEntry name value members) ≤ value.objects + memberObjects members := by
  induction members with
  | nil => exact Nat.le_refl _
  | cons member members ih =>
      unfold insertEntry
      split
      · exact Nat.le_refl _
      · split <;> simp only [memberObjects] <;> omega

/-- Of members with one name only the last counts, so there are no more objects in the map. -/
theorem memberObjects_ofList (members : List (String × Json)) :
    memberObjects (NameMap.ofList members).entries ≤ memberObjects members := by
  have each : ∀ (members : List (String × Json)) (map : NameMap Json),
      memberObjects (members.foldl (fun map member => map.insert member.1 member.2) map).entries
        ≤ memberObjects map.entries + memberObjects members := by
    intro members
    induction members with
    | nil => exact fun map => Nat.le_refl _
    | cons member members ih =>
        intro map
        have later := ih (map.insert member.1 member.2)
        have here := memberObjects_insertEntry member.1 member.2 map.entries
        simp only [List.foldl_cons, memberObjects, NameMap.insert] at later ⊢
        omega
  exact Nat.le_trans (each members .empty) (Nat.le_of_eq (Nat.zero_add _))

theorem objects_le_memberObjects {name : String} {value : Json} {members : List (String × Json)}
    (member : (name, value) ∈ members) : value.objects ≤ memberObjects members := by
  induction members with
  | nil => cases member
  | cons first members ih =>
      rcases List.mem_cons.mp member with rfl | later
      · exact Nat.le_add_right _ _
      · exact Nat.le_trans (ih later) (Nat.le_add_left _ _)

/-- What is read from lists of members has the objects of their items. -/
theorem memberObjects_items {members : List (String × Json)}
    (arrays : members.all (·.2.isArray) = true) :
    memberObjects (members.map fun member => (member.1, .array (member.2.items?.getD [])))
      = memberObjects members := by
  induction members with
  | nil => rfl
  | cons member members ih =>
      obtain ⟨first, rest⟩ := Bool.and_eq_true_iff.mp (List.all_cons ▸ arrays)
      obtain ⟨name, value⟩ := member
      cases value with
      | array items => simp only [List.map_cons, memberObjects, ih rest]; rfl
      | _ => cases first

theorem memberObjects_arrays (entries : List (String × List Json)) :
    memberObjects (entries.map fun entry => (entry.1, .array entry.2))
      = itemObjects (entries.flatMap fun entry => entry.2) := by
  induction entries with
  | nil => rfl
  | cons entry entries ih =>
      rw [List.map_cons, List.flatMap_cons, itemObjects_append, memberObjects, ih, objects]

end Json

/-- The child lists that a member holds have no more objects than the member. -/
theorem Entity.memberObjects_childLists {value : Json} {lists : NameMap (List Json)}
    (lifted : childLists? value = some lists) :
    Json.memberObjects (lists.map Json.array).entries ≤ value.objects := by
  unfold childLists? at lifted
  split at lifted
  · rename_i members
    split at lifted
    · rename_i arrays
      cases lifted
      have listed : (NameMap.ofList members).entries.all (·.2.isArray) = true :=
        List.all_eq_true.mpr fun entry member =>
          List.all_eq_true.mp arrays entry (mem_of_mem_ofList member)
      simp only [NameMap.map, List.map_map, Function.comp_def]
      rw [Json.memberObjects_items listed, Json.objects]
      exact Nat.le_succ_of_le (Json.memberObjects_ofList members)
    · cases lifted
  · cases lifted

/-- The descendants that an entity can have are objects within its node. -/
theorem Entity.descendants_ofNode {node : Json} {members : NameMap Json}
    (isObject : node.members? = some members) (className : String) :
    (ofNode members className).descendants < node.objects := by
  cases node with
  | object listed =>
      cases isObject
      have whole := Json.memberObjects_ofList listed
      rw [Json.objects, descendants, ofNode]
      cases lifted : ((((NameMap.ofList listed).erase updateMember).erase substituteMember).find?
          childrenMember).bind childLists? with
      | none => exact Nat.succ_pos _
      | some lists =>
          obtain ⟨value, found, lists?⟩ := Option.bind_eq_some_iff.mp lifted
          have apart : childrenMember ≠ updateMember ∧ childrenMember ≠ substituteMember := by
            decide
          rw [NameMap.find?_erase, if_neg apart.2, NameMap.find?_erase, if_neg apart.1] at found
          have inside := Json.objects_le_memberObjects (mem_of_lookupEntry found)
          have below := memberObjects_childLists lists?
          simp only [Option.getD_some]
          omega
  | _ => cases isObject

namespace Run

/-- What is spent on an entity and its descendants, where child types are declared once. -/
def tariff : Tariff where
  covers batch := batch.blueprint.Ordered
  price entity := 6 * entity.descendants + 3

/-- The charge for a list of entities, with one for each of them. -/
theorem charge_entities (className : String) (nodes : List Json) :
    tariff.charge (Document.entities className nodes) + (Document.entities className nodes).length
      ≤ 6 * Json.itemObjects nodes := by
  induction nodes with
  | nil => exact Nat.le_refl _
  | cons node nodes ih =>
      rw [Json.itemObjects]
      cases read : node.members? with
      | none =>
          have skipped : Document.entities className (node :: nodes)
              = Document.entities className nodes := by
            simp [Document.entities, Document.entity?, read]
          rw [skipped]
          omega
      | some members =>
          have kept : Document.entities className (node :: nodes)
              = .ofNode members className :: Document.entities className nodes := by
            simp [Document.entities, Document.entity?, read]
          have below := Entity.descendants_ofNode read className
          rw [kept, Tariff.charge, List.length_cons, tariff]
          simp only [tariff] at ih ⊢
          omega

end Run

/-! ## What is spent on an entity itself -/

/-- A plan spends one for each request that it may make. -/
theorem Plan.Within.spends {α : Type} {tariff : Tariff} {plan : Plan α} :
    ∀ {budget : List Request}, plan.Within budget → plan.Spends tariff budget.length := by
  induction plan with
  | done outcome => exact fun _ => trivial
  | call request next ih =>
      rintro budget ⟨rest, inside, within⟩
      exact ⟨rest.length, inside.length_le, fun exchange => ih exchange (within exchange)⟩
  | note notice next ih => exact ih
  | remember session entity next ih => exact ih
  | «recall» session entity next ih => exact fun within known => ih known (within known)
  | batch group next ih => exact fun within => within.elim

/-- What follows a plan without batches may count on what its value came from. -/
theorem Plan.Spends.bind_of_sends {α β : Type} {tariff : Tariff} {recalls : Prop} {first : Plan α}
    {continuation : α → Plan β} {amount rest : Nat} (solitary : first.Solitary recalls)
    (spends : first.Spends tariff amount)
    (after : ∀ sent value, first.Sends sent value → (continuation value).Spends tariff rest) :
    (first >>= continuation).Spends tariff (amount + rest) := by
  change (first.bind continuation).Spends tariff (amount + rest)
  induction first generalizing amount with
  | done outcome =>
      cases outcome with
      | value value => exact (after [] value ⟨rfl, rfl⟩).mono (Nat.le_add_left _ _)
      | failed failure => exact trivial
      | broken cause => exact trivial
  | call request next ih =>
      obtain ⟨left, enough, goesOn⟩ := spends
      refine ⟨left + rest, by omega, fun exchange => ?_⟩
      exact ih exchange (solitary exchange) (goesOn exchange) fun sent value sends =>
        after _ value ⟨exchange, sent, rfl, sends⟩
  | note notice next ih => exact ih solitary.of_note spends after
  | remember session entity next ih => exact ih solitary spends after
  | «recall» session entity next ih =>
      exact fun known => ih known (solitary.2 known) (spends known) fun sent value sends =>
        after sent value ⟨known, sends⟩
  | batch group next ih => exact solitary.elim

namespace Access

variable {access : Access}

theorem within_fetch (path : String) : (access.fetch path).Within [⟨.get, path, none⟩] := by
  refine (within_get path).closing fun result => ?_
  cases result <;> exact .pure _

theorem within_write (method : Method) (path : String) (body : Json) :
    (access.write method path body).Within [⟨method, path, some body⟩] := by
  unfold write
  split
  · refine (within_exchange _).closing fun result => ?_
    cases result <;> exact .pure _
  · exact .pure _

end Access

namespace Run

variable {run : Run} {blueprint : Blueprint} {lineage : Lineage} {α : Type} {amount : Nat}

/-- What follows the blueprint of a document may count on its types. -/
theorem spends_fetchBlueprint {type : String} {continuation : Blueprint → Plan α}
    (after : ∀ blueprint, blueprint.Ordered → (continuation blueprint).Spends tariff amount) :
    (run.fetchBlueprint type >>= continuation).Spends tariff (amount + 1) := by
  rw [Nat.add_comm]
  refine Plan.Spends.bind_of_sends (solitary_fetchBlueprint type : Plan.Solitary False _)
    (within_fetchBlueprint type).spends fun sent blueprint sends => ?_
  exact after blueprint (sends_fetchBlueprint sends).ordered

theorem within_resolve (entity : Entity) (template : String) :
    (resolve lineage entity template).Within [] := by
  unfold resolve
  split
  · exact .pure _
  · exact (Plan.Within.log _).before fun _ => .pure _
  · exact .fail _

theorem within_lookupPath (entity : Entity) : (lookupPath blueprint lineage entity).Within [] := by
  unfold lookupPath
  split
  · exact .pure _
  · exact within_resolve entity _

theorem within_required (template : String) (path : Option String) :
    (required template path).Within [] := by
  cases path with
  | none => exact .fail _
  | some uri => exact .pure uri

theorem within_prepare (entity : Entity) :
    (run.prepare blueprint lineage entity).Within [] := by
  refine Plan.Within.before ?_ fun linked => within_substitute linked.substitutes linked
  unfold linkParent
  split
  · exact .pure _
  · split
    · exact (Plan.Within.log _).before fun _ => .pure _
    · unfold Plan.ofExcept
      split
      · exact .pure _
      · exact .fail _

/-- What asks for nothing leaves the amount to what follows. -/
theorem spends_before {β : Type} {plan : Plan α} {continuation : α → Plan β}
    (first : plan.Within []) (after : ∀ value, (continuation value).Spends tariff amount) :
    (plan >>= continuation).Spends tariff amount := by
  rw [← Nat.zero_add amount]
  exact first.spends.bind after

/-- One request takes one from the amount. -/
theorem spends_ask {β : Type} {plan : Plan α} {request : Request} {continuation : α → Plan β}
    (first : plan.Within [request]) (after : ∀ value, (continuation value).Spends tariff amount) :
    (plan >>= continuation).Spends tariff (amount + 1) := by
  rw [Nat.add_comm]
  exact first.spends.bind after

/-- What asks for nothing may follow. -/
theorem spends_closing {β : Type} {plan : Plan α} {continuation : α → Plan β}
    (first : plan.Spends tariff amount) (after : ∀ value, (continuation value).Within []) :
    (plan >>= continuation).Spends tariff amount :=
  first.bind fun value => (after value).spends

theorem spends_recover (entity : Entity) (createUri : String) (rejection : CallFailure) :
    (run.recover blueprint lineage entity createUri rejection).Spends tariff 1 := by
  refine spends_before (within_lookupPath entity) fun path => ?_
  cases path with
  | none =>
      simp only
      split
      · exact .fail _
      · exact spends_before (.log _) fun _ => .pure _
  | some uri =>
      refine spends_ask (Access.within_fetch uri) fun result => ?_
      cases result with
      | ok value => exact spends_before (.log _) fun _ => .pure _
      | error failure => exact spends_before (.log _) fun _ => .fail _

theorem spends_create (desired : Entity) :
    (run.create blueprint lineage desired).Spends tariff 2 := by
  unfold create
  split
  · exact spends_before (.log _) fun _ => .pure _
  · refine spends_before (within_resolve _ _) fun path =>
      spends_before (within_required _ _) fun uri => spends_before (within_prepare _) fun entity =>
        spends_before (within_observe _) fun _ => ?_
    split
    · refine spends_before (.log _) fun _ => spends_ask (Access.within_write _ _ _) fun result => ?_
      cases result with
      | ok value => exact spends_before (within_observe _) fun _ => .pure _
      | error failure =>
          simp only
          split
          · refine spends_closing (spends_recover entity uri failure) fun settled => ?_
            cases settled with
            | none => exact .pure _
            | some existing => exact (within_observe _).before fun _ => .pure _
          · exact .fail _
    · exact .fail _

theorem spends_update (merged : Entity) :
    (run.update blueprint lineage merged).Spends tariff 1 := by
  unfold update
  split
  · exact spends_before (.log _) fun _ => .pure _
  · refine spends_before (within_lookupPath _) fun path =>
      spends_before (within_required _ _) fun uri => spends_before (within_prepare _) fun entity =>
        spends_before (within_observe _) fun _ => ?_
    split
    · refine spends_before (.log _) fun _ => spends_ask (Access.within_write _ _ _) fun result => ?_
      cases result with
      | ok value => exact spends_before (within_observe _) fun _ => .pure _
      | error failure => exact .fail _
    · exact .fail _

theorem spends_settleExisting (desired remote : Entity) (uri : String) :
    (run.settleExisting blueprint lineage desired remote uri).Spends tariff 1 := by
  unfold settleExisting
  split
  · exact spends_before (within_substitute _ _) fun _ =>
      spends_before (within_reportExisting _ _) fun _ => .pure _
  · split
    · refine spends_before (fun _ => trivial) fun known => ?_
      exact spends_before (.log _) fun _ => spends_update _
    · exact spends_before (.log _) fun _ => .pure _

theorem spends_settleAnswered (desired : Entity) (uri : String) (response : Response) :
    (run.settleAnswered blueprint lineage desired uri response).Spends tariff 2 := by
  unfold settleAnswered
  split
  · split
    · exact .fail _
    · rw [map_eq_pure_bind]
      exact spends_closing ((spends_settleExisting _ _ _).mono (by decide)) fun _ => .pure _
  · split
    · split
      · exact spends_before (within_reportMissing _) fun _ => .pure _
      · exact spends_create desired
    · exact .fail _

/-- **An entity itself takes three requests at most.** -/
theorem spends_settle (desired : Entity) :
    (run.settle blueprint lineage desired).Spends tariff 3 := by
  refine spends_before (within_lookupPath desired) fun path => ?_
  cases path with
  | some uri =>
      refine spends_before (within_observe _) fun _ =>
        spends_ask (Access.within_get uri) fun result => ?_
      cases result with
      | error failure => exact .fail _
      | ok response =>
          exact spends_before (within_observe _) fun _ => spends_settleAnswered desired uri response
  | none =>
      simp only
      split
      · exact spends_before (within_reportMissing _) fun _ => .pure _
      · exact (spends_create desired).mono (by decide)

/-! ## What is spent on descendants -/

/-- What is spent on the items of a list adds up. -/
theorem spends_forEach {ι : Type} {action : ι → Plan Unit} {cost : ι → Nat} (total : List ι → Nat)
    (adds : ∀ item items, cost item + total items = total (item :: items)) :
    ∀ {items : List ι}, (∀ item ∈ items, (action item).Spends tariff (cost item)) →
      (Plan.forEach action items).Spends tariff (total items)
  | [], _ => .pure ()
  | item :: items, each => by
      obtain ⟨first, rest⟩ := List.forall_mem_cons.mp each
      rw [← adds]
      exact first.bind fun _ => spends_forEach total adds rest

/-- A batch spends the charge for its children and one for each of them, of which there is one at
least. -/
theorem spends_children {batch : Batch} (ordered : batch.blueprint.Ordered) :
    (run.children batch).Spends tariff (tariff.charge batch.children + batch.children.length) := by
  unfold children
  split
  · exact .pure _
  · rename_i somebody
    have one : 0 < batch.children.length := by
      rw [List.length_pos_iff]
      simpa using somebody
    refine spends_before (.log _) fun _ => ⟨ordered, 0, by omega, fun result => ?_⟩
    obtain ⟨failures, timedOut⟩ := result
    cases timedOut with
    | true => exact trivial
    | false => cases failures <;> exact trivial

theorem spends_childrenOfType {blueprint : Blueprint} (ordered : blueprint.Ordered)
    (parent : Entity) {declared : String × Blueprint} (member : declared ∈ blueprint.childTypes) :
    (run.childrenOfType parent lineage declared).Spends tariff
      (6 * Json.itemObjects ((parent.children.find? declared.1).getD [])) := by
  unfold childrenOfType
  split
  · exact .pure _
  · exact .pure _
  · rename_i nodes _ present
    rw [present]
    refine spends_before (within_logSkipped _ _) fun _ => ?_
    exact (spends_children (ordered.each declared member)).mono (charge_entities _ _)

theorem spends_descend {blueprint : Blueprint} (ordered : blueprint.Ordered) (parent : Entity) :
    (run.descend blueprint parent lineage).Spends tariff (6 * parent.descendants) := by
  unfold descend
  split
  · exact .fail _
  · rename_i declared
    have whole := flatMap_lookupEntry_perm (fun _ nodes => nodes) (fun _ => rfl)
      parent.children.ordered (nodup_names ordered.increase) (covers_of_declared declared)
    rw [List.flatMap_map] at whole
    rw [Entity.descendants, NameMap.map, Json.memberObjects_arrays, ← Json.itemObjects_perm whole]
    refine spends_forEach (fun types => 6 * Json.itemObjects (types.flatMap fun declared =>
      (parent.children.find? declared.1).getD [])) (fun declared types => ?_)
      fun declared member => spends_childrenOfType ordered parent member
    rw [List.flatMap_cons, Json.itemObjects_append, Nat.mul_add]

/-- **An entity and its descendants** spend no more than their price. -/
theorem spends_reconcile {blueprint : Blueprint} (ordered : blueprint.Ordered) (lineage : Lineage)
    (desired : Entity) :
    (run.reconcile blueprint lineage desired).Spends tariff (tariff.price desired) := by
  have price : tariff.price desired = 3 + 6 * desired.descendants := Nat.add_comm _ _
  rw [price]
  refine spends_before (.tell _) fun _ => ?_
  refine (spends_settle desired).bind fun settled => ?_
  cases settled with
  | none => exact .pure _
  | some settled =>
      change Plan.Spends tariff (ite _ _ _) _
      split
      · exact spends_closing (spends_descend ordered _) fun _ => .pure _
      · exact .pure _

theorem suits (run : Run) : tariff.Suits run :=
  fun batch child ordered => spends_reconcile ordered batch.lineage child

/-! ## What is spent on documents -/

theorem spends_roots {blueprint : Blueprint} (ordered : blueprint.Ordered) :
    ∀ entities : List Entity, (run.roots blueprint entities).Spends tariff (tariff.charge entities)
  | [] => .pure _
  | root :: rest => by
      have first : (run.reconcile blueprint .empty root).Spends tariff (tariff.price root) :=
        spends_reconcile ordered .empty root
      refine (first.bind fun settled => ?_).mono (Nat.add_le_add_right (Nat.le_add_right _ 2) _)
      exact spends_closing (spends_roots ordered rest) fun others =>
        .pure (settled.toList ++ others)

/-- **A document** takes one request for its blueprint. -/
theorem spends_document (type text : String) :
    (run.document type text).Spends tariff (6 * Document.extent text + 1) := by
  refine spends_before (within_observe _) fun _ => ?_
  refine spends_fetchBlueprint fun blueprint ordered => ?_
  refine spends_before (within_observe _) fun _ => ?_
  unfold readDocument Document.extent
  cases Document.nodes? text with
  | none => exact .fail _
  | some nodes =>
      simp only [bind_assoc, pure_bind]
      refine spends_before (within_logSkipped _ _) fun _ => spends_before (.log _) fun _ => ?_
      exact (spends_roots ordered _).mono
        (Nat.le_trans (Nat.le_add_right _ _) (charge_entities _ nodes))

theorem spends_models (documents : List (String × String)) :
    (run.models documents).Spends tariff (6 * Engine.totalExtent documents + documents.length) := by
  refine spends_closing ?_ fun _ => .pure documents
  refine spends_forEach (fun documents => 6 * Engine.totalExtent documents + documents.length) ?_
    fun document _ => spends_before (.log _) fun _ =>
      spends_closing (spends_document _ document.2) fun _ => .pure ()
  intro document documents
  rw [Engine.totalExtent, List.length_cons]
  omega

end Run

/-! ## Runs of an engine -/

namespace Engine

variable {σ : Type} (engine : Engine) (api : Api σ) (state : σ)

/-- **A run of a document comes to its end**, whatever is answered and however late. -/
theorem document_ends (type text : String) :
    ∃ outcome, (engine.document api type text state).outcome = some outcome :=
  execute_ends (Run.suits _) (Run.spends_document type text) (Nat.le_refl _) state

/-- **A run of named documents comes to its end.** -/
theorem models_ends (documents : List (String × String)) :
    ∃ outcome, (engine.models api documents state).outcome = some outcome :=
  execute_ends (Run.suits _) (Run.spends_models documents) (Nat.le_refl _) state

/-- **A run of an entity comes to its end** under a blueprint that declares each type once. -/
theorem entity_ends {blueprint : Blueprint} (ordered : blueprint.Ordered) (lineage : Lineage)
    (desired : Entity) :
    ∃ outcome, (engine.entity api blueprint lineage desired state).outcome = some outcome := by
  refine execute_ends (Run.suits _) (Run.spends_reconcile ordered lineage desired) ?_ state
  have price : Run.tariff.price desired ≤ 6 * (desired.descendants + 1) + 0 := by
    rw [Run.tariff]
    simp only
    omega
  exact Nat.mul_le_mul (Nat.succ_le_succ price) (Nat.succ_le_succ price)

end Engine

end DesiredState
