import DesiredState.Proofs.Run.Updating

/-!
# The same run with another registry

A run reads its registry only to lay a desired entity over the state that it recalls. So a run is
told again with another registry, step by step, if both registries recall states over which the
desired entity comes out the same (`Stage.Steps.retell`). Then all that can be seen of the run is
the same: its requests, what it tells, what it remembers, and how it ends.

**The invariant.** Whatever the tasks of a run have got to, each state that is still to be recalled
is that of an entity that has been found, and what follows depends on nothing but the desired entity
laid over it (`Plan.Overlays`, `Stage.Overlays`).
-/

set_option autoImplicit false

namespace DesiredState

/-- The entity of the visit is to be updated, and the events have found it in the given state. -/
structure Visit.FoundIn (visit : Visit) (past : List Event) (state : Entity) : Prop where
  begun : .told (.begun visit) ∈ past
  flagged : visit.desired.updates = true
  looked : ∃ path response value,
    Run.lookupAddress? visit.blueprint visit.lineage visit.desired = some path ∧
    .called ⟨⟨.get, path, none⟩, .answered response⟩ ∈ past ∧
    response.status = Run.foundStatus ∧ response.json? = some value ∧ state = visit.found value

/-- What has been found stays found. -/
theorem Visit.FoundIn.mono {visit : Visit} {past later : List Event} {state : Entity}
    (found : visit.FoundIn past state) (more : past ⊆ later) : visit.FoundIn later state := by
  obtain ⟨path, response, value, address, asked, status, spelled, same⟩ := found.looked
  exact ⟨more found.begun, found.flagged, path, response, value, address, more asked, status,
    spelled, same⟩

/-! ## Events with another registry -/

namespace Registry

variable {registry other : Registry}

/-- The event as it is with the registry: what is recalled is what the registry gives. -/
def retold (registry : Registry) : Event → Event
  | .recalled session entity _ => .recalled session entity (registry.findOrInsert session entity).1
  | event => event

/-- The events as they are with the registry. -/
def retell : Registry → List Event → List Event
  | _, [] => []
  | registry, event :: events => registry.retold event :: (registry.follow event).retell events

/-- What a recalled state is does not matter to the registry. -/
@[simp] theorem follow_retold (event : Event) :
    registry.follow (other.retold event) = registry.follow event := by
  cases event <;> rfl

theorem gives_retell : ∀ {events : List Event} {registry : Registry},
    registry.Gives (registry.retell events)
  | [], _ => trivial
  | event :: events, registry => by
      refine ⟨?_, ?_⟩
      · cases event with
        | recalled session entity known => exact rfl
        | _ => exact trivial
      · rw [follow_retold]
        exact gives_retell

/-- Whatever is seen of events is the same, if only it does not depend on what is recalled. -/
theorem filterMap_retell {γ : Type} {view : Event → Option γ}
    (blind : ∀ session entity known state,
      view (.recalled session entity known) = view (.recalled session entity state)) :
    ∀ {events : List Event} {registry : Registry},
      (registry.retell events).filterMap view = events.filterMap view
  | [], _ => rfl
  | event :: events, registry => by
      have same : view (registry.retold event) = view event := by
        cases event with
        | recalled session entity known => exact blind _ _ _ _
        | _ => rfl
      rw [retell, List.filterMap_cons, List.filterMap_cons, same, filterMap_retell blind]

/-- The requests are the same, and so are their answers. -/
@[simp] theorem calls_retell (registry : Registry) (events : List Event) :
    calls (registry.retell events) = calls events :=
  filterMap_retell fun _ _ _ _ => rfl

/-- What is known under a key after events depends only on what was known under it before. -/
theorem find?_after_congr {key : StateKey} : ∀ {events : List Event} {first second : Registry},
    first.find? key = second.find? key →
    (first.after events).find? key = (second.after events).find? key
  | [], _, _, same => same
  | event :: events, first, second, same => by
      rw [after_cons, after_cons]
      refine find?_after_congr ?_
      cases event with
      | remembered session entity => rw [follow, follow, find?_insert, find?_insert, same]
      | recalled session entity known =>
          rw [follow, follow, find?_findOrInsert, find?_findOrInsert]
          by_cases here : KnownState.key ⟨session, entity⟩ = key
          · rw [if_pos here, if_pos here, findOrInsert_fst, findOrInsert_fst, here, same]
          · rw [if_neg here, if_neg here, same]
      | called call => exact same
      | told notice => exact same
      | gaveUp => exact same

/-- Under a key that no event is about, nothing changes. -/
theorem find?_after_of_none {key : StateKey} : ∀ {events : List Event} {registry : Registry},
    lastKnown key events = none → (registry.after events).find? key = registry.find? key
  | [], _, _ => rfl
  | event :: events, registry, untouched => by
      rw [lastKnown.cons, Option.or_eq_none_iff] at untouched
      obtain ⟨rest, here⟩ := untouched
      rw [after_cons, find?_after_of_none rest]
      cases event with
      | remembered session entity =>
          have apart : KnownState.key ⟨session, entity⟩ ≠ key := by
            intro same
            simp [Event.state?, same] at here
          rw [follow, find?_insert, if_neg (Ne.symm apart)]
      | recalled session entity known =>
          have apart : KnownState.key ⟨session, entity⟩ ≠ key := by
            intro same
            simp [Event.state?, same] at here
          rw [follow, find?_findOrInsert, if_neg apart]
      | called call => rfl
      | told notice => rfl
      | gaveUp => rfl

end Registry

/-! ## Plans -/

/-- What comes last comes last in both lists. -/
theorem subset_append {ι : Type} {first second : List ι} (more : first ⊆ second) (last : List ι) :
    first ++ last ⊆ second ++ last :=
  List.append_subset.mpr ⟨List.subset_append_of_subset_left last more, List.subset_append_right _ _⟩

namespace Plan

variable {α β : Type}

/-- After the given events, each state that the plan recalls is that of an entity that has been
found, and what follows depends only on the desired entity laid over it. -/
def Overlays : Plan α → List Event → Prop
  | .done _, _ => True
  | .call request next, past =>
      ∀ exchange, (next exchange).Overlays (past ++ [.called ⟨request, exchange⟩])
  | .note notice next, past => next.Overlays (past ++ (Event.ofNotice? notice).toList)
  | .remember session entity next, past => next.Overlays (past ++ [.remembered session entity])
  | .recall session entity next, past =>
      (∃ visit : Visit, visit.FoundIn past entity ∧ ∀ known other,
        visit.desired.laidOver known = visit.desired.laidOver other → next known = next other) ∧
      ∀ known, (next known).Overlays (past ++ [.recalled session entity known])
  | .batch _ next, past => ∀ result, (next result).Overlays past

namespace Overlays

/-- What happens besides does not matter. -/
theorem mono {plan : Plan α} : ∀ {past later : List Event}, plan.Overlays past → past ⊆ later →
    plan.Overlays later := by
  induction plan with
  | done outcome => exact fun _ _ => trivial
  | call request next ih =>
      intro past later overlays more exchange
      exact ih exchange (overlays exchange) (subset_append more _)
  | note notice next ih =>
      intro past later overlays more
      exact ih overlays (subset_append more _)
  | remember session entity next ih =>
      intro past later overlays more
      exact ih overlays (subset_append more _)
  | «recall» session entity next ih =>
      intro past later overlays more
      obtain ⟨⟨visit, found, depends⟩, goesOn⟩ := overlays
      exact ⟨⟨visit, found.mono more, depends⟩, fun known =>
        ih known (goesOn known) (subset_append more _)⟩
  | batch group next ih => exact fun overlays more result => ih result (overlays result) more

/-- A plan without batches that recalls nothing. -/
theorem of_solitary {plan : Plan α} : plan.Solitary False → ∀ past, plan.Overlays past := by
  induction plan with
  | done outcome => exact fun _ _ => trivial
  | call request next ih => exact fun solitary past exchange => ih exchange (solitary exchange) _
  | note notice next ih => exact fun solitary past => ih solitary.of_note _
  | remember session entity next ih => exact fun solitary past => ih solitary _
  | «recall» session entity next => exact fun solitary => solitary.1.elim
  | batch group next => exact fun solitary => solitary.elim

theorem bind {continuation : α → Plan β} {plan : Plan α} : ∀ {past : List Event},
    plan.Overlays past →
    (∀ value later, past ⊆ later → (continuation value).Overlays later) →
    (plan.bind continuation).Overlays past := by
  induction plan with
  | done outcome =>
      intro past _ after
      cases outcome with
      | value value => exact after value past (List.Subset.refl _)
      | failed failure => trivial
      | broken cause => trivial
  | call request next ih =>
      intro past overlays after exchange
      exact ih exchange (overlays exchange) fun value later more =>
        after value later (List.Subset.trans (List.subset_append_left _ _) more)
  | note notice next ih =>
      intro past overlays after
      exact ih overlays fun value later more =>
        after value later (List.Subset.trans (List.subset_append_left _ _) more)
  | remember session entity next ih =>
      intro past overlays after
      exact ih overlays fun value later more =>
        after value later (List.Subset.trans (List.subset_append_left _ _) more)
  | «recall» session entity next ih =>
      intro past overlays after
      obtain ⟨⟨visit, found, depends⟩, goesOn⟩ := overlays
      refine ⟨⟨visit, found, fun known other same => ?_⟩, fun known => ?_⟩
      · exact congrArg (Plan.bind · continuation) (depends known other same)
      · exact ih known (goesOn known) fun value later more =>
          after value later (List.Subset.trans (List.subset_append_left _ _) more)
  | batch group next ih => exact fun overlays after result => ih result (overlays result) after

/-- Nothing is recalled before what follows. -/
theorem before {plan : Plan α} {continuation : α → Plan β} {past : List Event}
    (solitary : plan.Solitary False)
    (after : ∀ value later, past ⊆ later → (continuation value).Overlays later) :
    (plan >>= continuation).Overlays past :=
  (of_solitary solitary past).bind after

theorem forEach {ι : Type} {action : ι → Plan Unit} : ∀ {items : List ι},
    (∀ item ∈ items, ∀ past, (action item).Overlays past) →
    ∀ past, (Plan.forEach action items).Overlays past
  | [], _, _ => trivial
  | item :: items, each, past => by
      obtain ⟨first, rest⟩ := List.forall_mem_cons.mp each
      exact (first past).bind fun _ later _ => forEach rest later

end Overlays

end Plan

namespace Run

variable {run : Run} {β : Type} {past : List Event}

theorem overlays_get_bind {path : String} {continuation : Except CallFailure Response → Plan β}
    (after : ∀ exchange later, past ⊆ later → .called ⟨⟨.get, path, none⟩, exchange⟩ ∈ later →
      (continuation (run.access.received ⟨.get, path, none⟩ exchange)).Overlays later) :
    (run.access.get path >>= continuation).Overlays past := by
  rw [Access.get, Access.exchange, bind_assoc]
  refine .before (Access.solitary_trace _) fun _ later more => ?_
  rw [bind_assoc]
  intro exchange
  have asked : Event.called ⟨⟨.get, path, none⟩, exchange⟩
      ∈ later ++ [.called ⟨⟨.get, path, none⟩, exchange⟩] := by simp
  have kept := List.Subset.trans more (List.subset_append_left later
    [.called ⟨⟨.get, path, none⟩, exchange⟩])
  cases exchange with
  | lost cause => exact after _ _ kept asked
  | answered response =>
      change ((run.access.trace _ >>= fun _ => pure (.ok response)) >>= continuation).Overlays _
      rw [bind_assoc]
      exact .before (Access.solitary_trace _) fun _ last further =>
        after (.answered response) last (List.Subset.trans kept further) (further asked)

theorem overlays_lookupPath_bind {visit : Visit} {continuation : Option String → Plan β}
    (unable : ∀ later, past ⊆ later → (continuation none).Overlays later)
    (able : ∀ path later, lookupAddress? visit.blueprint visit.lineage visit.desired = some path →
      past ⊆ later → (continuation (some path)).Overlays later) :
    (lookupPath visit.blueprint visit.lineage visit.desired >>= continuation).Overlays past := by
  unfold lookupPath
  unfold lookupAddress? at able
  cases given : visit.blueprint.lookupUri? with
  | none => exact unable past (List.Subset.refl _)
  | some template =>
      rw [given] at able
      simp only [resolve]
      cases resolved : Template.resolve visit.lineage visit.desired template with
      | path uri =>
          exact able uri past (by simp [resolved, Template.Resolution.path?]) (List.Subset.refl _)
      | unidentified uri =>
          change ((Plan.log _ >>= fun _ => pure none) >>= continuation).Overlays past
          rw [bind_assoc]
          exact .before (.log _) fun _ later more => unable later more
      | unfilled uri => trivial

/-- What has been found is updated, and what is sent depends on the desired entity laid over what is
known. -/
theorem overlays_settleExisting {visit : Visit} {state : Entity} {uri : String}
    (found : visit.desired.updates = true → visit.FoundIn past state) :
    (run.settleExisting visit.blueprint visit.lineage visit.desired state uri).Overlays past := by
  unfold settleExisting
  split
  · refine .before (solitary_substitute _ _) fun _ later _ => ?_
    exact .of_solitary ((solitary_reportExisting _ _).bind fun _ => .pure _) later
  · split
    · rename_i flagged
      refine ⟨⟨visit, found flagged, fun known other same => ?_⟩, fun known => ?_⟩
      · -- what is known is used in nothing but the desired entity laid over it
        exact congrArg (fun merged => Plan.log (.existingUpdated run.label visit.desired.type
          merged.label) >>= fun _ => run.update visit.blueprint visit.lineage merged) same
      · exact .of_solitary ((Plan.Solitary.log _).bind fun _ => solitary_update _) _
    · exact .of_solitary ((Plan.Solitary.log _).bind fun _ => .pure _) past

theorem overlays_settle {visit : Visit} (begun : .told (.begun visit) ∈ past) :
    (visit.settle run).Overlays past := by
  refine overlays_lookupPath_bind (fun later _ => ?_) fun path later address more => ?_
  · simp only
    split
    · exact .of_solitary ((solitary_reportMissing _).bind fun _ => .pure _) later
    · exact .of_solitary (solitary_create visit.desired) later
  · refine .before (solitary_observe _) fun _ later further => ?_
    refine overlays_get_bind fun exchange last asked called => ?_
    cases exchange with
    | lost cause => trivial
    | answered response =>
        refine .before (solitary_observe _) fun _ last remaining => ?_
        unfold settleAnswered
        split
        · rename_i status
          split
          · trivial
          · rename_i value spelled
            rw [map_eq_pure_bind]
            refine .bind (overlays_settleExisting fun flagged => ?_) fun _ _ _ => trivial
            exact ⟨remaining (asked (further (more begun))), flagged, path, response, value,
              address, remaining called, status, spelled, rfl⟩
        · split
          · split
            · exact .of_solitary ((solitary_reportMissing _).bind fun _ => .pure _) last
            · exact .of_solitary (solitary_create visit.desired) last
          · trivial

theorem overlays_descend (blueprint : Blueprint) (parent : Entity) (lineage : Lineage)
    (past : List Event) : (run.descend blueprint parent lineage).Overlays past := by
  unfold descend
  split
  · trivial
  · refine .forEach (fun declared _ past => ?_) past
    unfold childrenOfType
    split
    · trivial
    · trivial
    · refine .before (solitary_logSkipped _ _) fun _ later _ => ?_
      unfold children
      split
      · trivial
      · refine .before (.log _) fun _ later _ result => ?_
        obtain ⟨failures, timedOut⟩ := result
        cases timedOut with
        | true => trivial
        | false =>
            cases failures with
            | nil => trivial
            | cons failure failures => trivial

/-- **Whatever the handling of an entity recalls, it recalls to lay an entity over it.** -/
theorem overlays_reconcile (visit : Visit) (past : List Event) :
    (run.reconcile visit.blueprint visit.lineage visit.desired).Overlays past := by
  change ((visit.settle run).bind _).Overlays (past ++ [.told (.begun visit)])
  refine (overlays_settle (by simp)).bind fun settled later _ => ?_
  cases settled with
  | none => trivial
  | some settled =>
      change Plan.Overlays (do
        if (visit.placed settled).hasChildren then
          run.descend visit.blueprint (visit.placed settled) (visit.below settled)
        pure (some (visit.placed settled))) (later ++ [.remembered run.session settled])
      split
      · exact (overlays_descend _ _ _ _).bind fun _ _ _ => trivial
      · trivial

theorem overlays_roots (blueprint : Blueprint) : ∀ (entities : List Entity) (past : List Event),
    (run.roots blueprint entities).Overlays past
  | [], _ => trivial
  | root :: rest, past => by
      refine (overlays_reconcile ⟨blueprint, .empty, root⟩ past).bind fun _ later _ => ?_
      exact (overlays_roots blueprint rest later).bind fun _ _ _ => trivial

theorem overlays_document (type text : String) (past : List Event) :
    (run.document type text).Overlays past := by
  rw [document_eq]
  exact .before (solitary_opening type text) fun opened later _ =>
    overlays_roots opened.1 opened.2 later

theorem overlays_models (documents : List (String × String)) (past : List Event) :
    (run.models documents).Overlays past := by
  refine Plan.Overlays.bind (.forEach (fun named _ past => ?_) past) fun _ _ _ => trivial
  refine .before (.log _) fun _ later _ => ?_
  exact (overlays_document _ _ later).bind fun _ _ _ => trivial

end Run

/-! ## Stages -/

namespace Stage

variable {run : Run} {α : Type} {past : List Event}

/-- Each task of the tree has yet to do what `Plan.Overlays` says. -/
inductive Overlays (past : List Event) : {α : Type} → Stage ChildTask α → Prop
  | active {α : Type} {plan : Plan α} (overlays : plan.Overlays past) : Overlays past (.active plan)
  | asleep {α : Type} {wake : Nat} {plan : Plan α} (overlays : plan.Overlays past) :
      Overlays past (.asleep wake plan)
  | finished {α : Type} (outcome : Outcome α) : Overlays past (.finished outcome)
  | leading {α : Type} {crew : Crew ChildTask} {next : BatchResult → Plan α}
      (goesOn : ∀ result, (next result).Overlays past)
      (members : ∀ member ∈ crew.members, Overlays past member.task.stage) :
      Overlays past (.leading crew next)

/-- What happens besides does not matter. -/
theorem Overlays.mono {stage : Stage ChildTask α} {later : List Event}
    (overlays : stage.Overlays past) (more : past ⊆ later) : stage.Overlays later := by
  induction overlays with
  | active overlays => exact .active (overlays.mono more)
  | asleep overlays => exact .asleep (overlays.mono more)
  | finished outcome => exact .finished outcome
  | leading goesOn _ ih => exact .leading (fun result => (goesOn result).mono more) ih

/-- **A step leaves the tasks as they should be.** -/
theorem Step.overlays {stage later : Stage ChildTask α} {event : Option Event}
    (step : Step run stage event later) (overlays : stage.Overlays past) :
    later.Overlays (past ++ event.toList) := by
  induction step with
  | finish outcome => exact .finished outcome
  | call request exchange next =>
      cases overlays with
      | active overlays => exact .active (overlays exchange)
  | send request exchange next wake =>
      cases overlays with
      | active overlays => exact .asleep (overlays exchange)
  | wake time plan =>
      cases overlays with
      | asleep overlays => exact .active (overlays.mono (List.subset_append_left _ _))
  | tell notice next =>
      cases overlays with
      | active overlays => exact .active overlays
  | remember session entity next =>
      cases overlays with
      | active overlays => exact .active overlays
  | «recall» session entity known next =>
      cases overlays with
      | active overlays => exact .active (overlays.2 known)
  | skip group next nobody =>
      cases overlays with
      | active overlays => exact .active ((overlays _).mono (List.subset_append_left _ _))
  | lead group next now somebody =>
      cases overlays with
      | active overlays =>
          exact .leading (fun result => (overlays result).mono (List.subset_append_left _ _))
            (List.forall_mem_nil _)
  | enlist crew next child rest waiting free =>
      cases overlays with
      | leading goesOn members =>
          refine Overlays.mono (.leading goesOn ?_) (List.subset_append_left past _)
          refine List.forall_mem_append.mpr ⟨members, List.forall_mem_singleton.mpr ?_⟩
          exact .active (Run.overlays_reconcile ⟨crew.batch.blueprint, crew.batch.lineage, child⟩ _)
  | gather crew next started ended =>
      cases overlays with
      | leading goesOn members =>
          refine Overlays.mono (.leading goesOn ?_) (List.subset_append_left past _)
          unfold Crew.gather
          split
          · exact members
          · exact members
  | join crew next started through gathered =>
      cases overlays with
      | leading goesOn members =>
          exact .active ((goesOn _).mono (List.subset_append_left _ _))
  | giveUp crew next =>
      cases overlays with
      | leading goesOn members =>
          exact .active ((goesOn _).mono (List.subset_append_left _ _))
  | member crew next index label stage later event found step ih =>
      cases overlays with
      | leading goesOn members =>
          refine .leading (fun result => (goesOn result).mono (List.subset_append_left _ _)) ?_
          intro member inside
          rcases List.mem_or_eq_of_mem_set inside with other | rfl
          · exact (members member other).mono (List.subset_append_left _ _)
          · exact ih (members _ (List.mem_of_getElem? found))

/-- A step is taken with another registry too, if it lays over the same. -/
theorem Step.retell {registry other : Registry} {stage later : Stage ChildTask α}
    {event : Option Event} (step : Step run stage event later) (overlays : stage.Overlays past)
    (gives : registry.Gives event.toList)
    (agree : ∀ session entity known, event = some (.recalled session entity known) →
      ∀ visit : Visit, visit.FoundIn past entity →
        visit.desired.laidOver (registry.findOrInsert session entity).1
          = visit.desired.laidOver (other.findOrInsert session entity).1) :
    Step run stage (event.map other.retold) later := by
  induction step with
  | finish outcome => exact .finish outcome
  | call request exchange next => exact .call request exchange next
  | send request exchange next wake => exact .send request exchange next wake
  | wake time plan => exact .wake time plan
  | tell notice next =>
      have same : (Event.ofNotice? notice).map other.retold = Event.ofNotice? notice := by
        cases notice <;> rfl
      rw [same]
      exact .tell notice next
  | remember session entity next => exact .remember session entity next
  | «recall» session entity known next =>
      cases overlays with
      | active overlays =>
          obtain ⟨⟨visit, found, depends⟩, _⟩ := overlays
          obtain rfl : known = (registry.findOrInsert session entity).1 := gives.1
          have same := depends _ _ (agree session entity _ rfl visit found)
          rw [same]
          exact .recall session entity _ next
  | skip group next nobody => exact .skip group next nobody
  | lead group next now somebody => exact .lead group next now somebody
  | enlist crew next child rest waiting free => exact .enlist crew next child rest waiting free
  | gather crew next started ended => exact .gather crew next started ended
  | join crew next started through gathered => exact .join crew next started through gathered
  | giveUp crew next => exact .giveUp crew next
  | member crew next index label stage later event found step ih =>
      cases overlays with
      | leading _ members =>
          have inside := members _ (List.mem_of_getElem? found)
          exact .member crew next index label stage later _ found (ih inside gives agree)

/-- **A run is told again with another registry**, if both registries recall states over which the
entities that have been found lie the same. -/
theorem Steps.retell {stage last : Stage ChildTask α} {events : List Event}
    (steps : Steps run stage events last) : ∀ {past : List Event} {registry other : Registry},
    stage.Overlays past → registry.Gives events →
    (∀ before session entity known after,
      events = before ++ .recalled session entity known :: after →
      ∀ visit : Visit, visit.FoundIn (past ++ before) entity →
        visit.desired.laidOver ((registry.after before).findOrInsert session entity).1
          = visit.desired.laidOver ((other.after before).findOrInsert session entity).1) →
    Steps run stage (other.retell events) last := by
  induction steps with
  | refl stage => exact fun _ _ _ => .refl stage
  | @head first second last event events step _ ih =>
      intro past registry other overlays gives agree
      have goesOn := step.overlays overlays
      cases event with
      | none =>
          have silent : Step run first none second := step
          refine .head silent (ih goesOn gives ?_)
          intro before session entity known after same visit found
          exact agree before session entity known after same visit (by simpa using found)
      | some event =>
          have here : Step run first (some (other.retold event)) second := by
            refine step.retell overlays ⟨gives.1, trivial⟩ ?_
            intro session entity known same visit found
            obtain rfl := Option.some.inj same
            exact agree [] session entity known events rfl visit (by simpa using found)
          refine .head here (ih goesOn gives.2 ?_)
          intro before session entity known after same visit found
          refine agree (event :: before) session entity known after ?_ visit (by simpa using found)
          exact congrArg (event :: ·) same

end Stage

end DesiredState
