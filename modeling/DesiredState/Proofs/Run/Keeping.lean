import DesiredState.Proofs.Plan.Contract
import DesiredState.Proofs.Run.Handling

/-!
# Handlings that keep a contract

The handling of an entity keeps a contract if settling the entity does, and the entity that is
in place then has only children that may be handed out. So for a contract it is enough to look
at a single entity at a time.
-/

set_option autoImplicit false

namespace DesiredState

variable {contract : Contract}

/-- A plan that keeps to one entity keeps every contract that asks for nothing in particular. -/
theorem Plan.Solitary.keeps {α : Type} {recalls : Prop} {plan : Plan α}
    (solitary : plan.Solitary recalls) (free : ∀ request, contract.asks request)
    (lax : ¬ contract.strict) : plan.Keeps contract fun _ => True := by
  induction plan with
  | done outcome =>
      cases outcome with
      | value value => exact trivial
      | failed failure => exact lax
      | broken cause => exact lax
  | call request next ih =>
      exact ⟨free request, fun exchange _ => ih exchange (solitary exchange)⟩
  | note notice next ih =>
      have keeps := ih solitary.of_note
      cases notice with
      | begun visit => exact solitary.elim
      | moment moment => exact keeps
      | report report => exact keeps
      | event line => exact keeps
  | remember session entity next ih => exact ih solitary
  | «recall» session entity next ih => exact fun known => ih known (solitary.2 known)
  | batch group next ih => exact solitary.elim

namespace Access

variable {access : Access}

theorem keeps_trace (line : LogEvent) : (access.trace line).Keeps contract fun _ => True := by
  unfold trace
  split <;> exact trivial

/-- A request keeps a contract if it may be sent, and what is told of its answers is as promised. -/
theorem keeps_exchange {request : Request} {promise : Except CallFailure Response → Prop}
    (asks : contract.asks request)
    (told : ∀ exchange, contract.hears request exchange →
      promise (access.received request exchange)) :
    (access.exchange request).Keeps contract promise := by
  refine (keeps_trace _).bind ?_
  intro _ _
  refine ⟨asks, fun exchange hears => ?_⟩
  have kept := told exchange hears
  cases exchange with
  | lost cause => exact kept
  | answered response => exact (keeps_trace _).bind fun _ _ => .pure kept

theorem keeps_get {path : String} {promise : Except CallFailure Response → Prop}
    (asks : contract.asks ⟨.get, path, none⟩)
    (told : ∀ exchange, contract.hears ⟨.get, path, none⟩ exchange →
      promise (access.received ⟨.get, path, none⟩ exchange)) :
    (access.get path).Keeps contract promise := keeps_exchange asks told

theorem keeps_write {method : Method} {path : String} {body : Json}
    {promise : Except CallFailure Json → Prop} (writes : method.isWrite = true)
    (asks : contract.asks ⟨method, path, some body⟩)
    (told : ∀ exchange, contract.hears ⟨method, path, some body⟩ exchange →
      promise (access.written method path body exchange)) :
    (access.write method path body).Keeps contract promise := by
  unfold write submit
  rw [if_pos writes]
  have received : ∀ exchange, contract.hears ⟨method, path, some body⟩ exchange →
      promise ((access.received ⟨method, path, some body⟩ exchange).bind
        (decode method (access.address path))) := told
  have kept : (access.exchange ⟨method, path, some body⟩).Keeps contract fun result =>
      promise (result.bind (decode method (access.address path))) := keeps_exchange asks received
  refine kept.bind ?_
  intro result kept
  cases result with
  | error failure => exact kept
  | ok response => exact kept

end Access

namespace Run

variable {run : Run}

theorem keeps_forEach {ι : Type} {action : ι → Plan Unit} :
    ∀ {items : List ι}, (∀ item ∈ items, (action item).Keeps contract fun _ => True) →
      (Plan.forEach action items).Keeps contract fun _ => True
  | [], _ => trivial
  | item :: items, each => by
      obtain ⟨first, rest⟩ := List.forall_mem_cons.mp each
      exact first.bind fun _ _ => keeps_forEach rest

theorem keeps_log (line : LogEvent) : (Plan.log line).Keeps contract fun _ => True := trivial

theorem keeps_logSkipped (className : String) (nodes : List Json) :
    (logSkipped className nodes).Keeps contract fun _ => True :=
  keeps_forEach fun _ _ => trivial

/-- A batch keeps a contract if its children may be handed out. -/
theorem keeps_children {batch : Batch}
    (accepted : ∀ child ∈ batch.children, contract.accepts batch child) :
    (run.children batch).Keeps contract fun _ => True := by
  unfold children
  split
  · exact trivial
  · refine ⟨accepted, fun result good => ?_⟩
    obtain ⟨failures, timedOut⟩ := result
    cases timedOut with
    | true => exact fun strict => nomatch good strict
    | false =>
        cases failures with
        | nil => exact trivial
        | cons failure failures => exact fun strict => nomatch good strict

theorem keeps_descend {blueprint : Blueprint} {parent : Entity} {lineage : Lineage}
    (declared : contract.strict → undeclared? blueprint parent = none)
    (accepted : ∀ batch, batch.lineage = lineage →
      ∀ child ∈ batch.children, (batch.blueprint, child) ∈ blueprint.offspring parent →
        contract.accepts batch child) :
    (run.descend blueprint parent lineage).Keeps contract fun _ => True := by
  unfold descend
  split
  · rename_i unknown
    intro strict
    rw [declared strict] at unknown
    nomatch unknown
  · refine keeps_forEach ?_
    intro entry member
    unfold childrenOfType
    split
    · exact trivial
    · exact trivial
    · rename_i nodes _ present
      refine (keeps_logSkipped _ nodes).bind fun _ _ => keeps_children fun child inside => ?_
      refine accepted _ rfl child inside (List.mem_flatMap.mpr ⟨entry, member, ?_⟩)
      rw [present]
      exact List.mem_map_of_mem inside

/-- **The handling of an entity keeps a contract if settling it does.** -/
theorem keeps_reconcile {blueprint : Blueprint} {lineage : Lineage} {desired : Entity}
    {settles : Option Entity → Prop} (begins : contract.begins ⟨blueprint, lineage, desired⟩)
    (keeps : (run.settle blueprint lineage desired).Keeps contract settles)
    (declared : ∀ settled, settles (some settled) → contract.strict →
      undeclared? blueprint { settled with children := desired.children } = none)
    (accepted : ∀ settled, settles (some settled) → ∀ batch,
      batch.lineage = lineage.insert desired.type { settled with children := desired.children } →
      ∀ child ∈ batch.children,
        (batch.blueprint, child)
          ∈ blueprint.offspring { settled with children := desired.children } →
        contract.accepts batch child) :
    (run.reconcile blueprint lineage desired).Keeps contract fun _ => True := by
  refine ⟨begins, keeps.bind fun result promised => ?_⟩
  cases result with
  | none => exact trivial
  | some settled =>
      change Plan.Keeps contract _ (ite _ _ _)
      split
      · exact (keeps_descend (declared settled promised) (accepted settled promised)).bind
          fun _ _ => .pure trivial
      · exact .pure trivial

/-- The roots keep a contract if each of them does. -/
theorem keeps_roots {blueprint : Blueprint} :
    ∀ {entities : List Entity}, (∀ entity ∈ entities,
        (run.reconcile blueprint .empty entity).Keeps contract fun _ => True) →
      (run.roots blueprint entities).Keeps contract fun _ => True
  | [], _ => trivial
  | entity :: entities, each => by
      obtain ⟨first, rest⟩ := List.forall_mem_cons.mp each
      exact first.bind fun _ _ => (keeps_roots rest).bind fun _ _ => .pure trivial

/-- A document keeps a contract if its blueprint may be fetched, and each of its roots does. -/
theorem keeps_document {type text : String} {fetches : Blueprint → Prop}
    (unobserved : contract.strict → run.observer = none)
    (keeps : (run.fetchBlueprint type).Keeps contract fetches)
    (spelled : contract.strict → (Document.nodes? text).isSome)
    (each : ∀ blueprint, fetches blueprint → ∀ nodes, Document.nodes? text = some nodes →
      ∀ entity ∈ Document.entities (blueprint.rootClassName type) nodes,
        (run.reconcile blueprint .empty entity).Keeps contract fun _ => True) :
    (run.document type text).Keeps contract fun _ => True := by
  have observes : ∀ moment, (run.observe moment).Keeps contract fun _ => True := by
    intro moment
    unfold observe
    split
    · exact trivial
    · rename_i observer here
      split
      · intro strict
        rw [unobserved strict] at here
        nomatch here
      · exact trivial
  refine (observes _).bind fun _ _ => keeps.bind fun blueprint fetched =>
    (observes _).bind fun _ _ => ?_
  unfold readDocument
  cases read : Document.nodes? text with
  | none =>
      intro strict
      have known := spelled strict
      rw [read] at known
      nomatch known
  | some nodes =>
      simp only [bind_assoc, pure_bind]
      refine (keeps_logSkipped _ nodes).bind ?_
      intro _ _
      exact (keeps_log _).bind fun _ _ => keeps_roots (each blueprint fetched nodes read)

end Run

end DesiredState
