import DesiredState.Proofs.Entity
import DesiredState.Proofs.Run.Protocol
import DesiredState.Proofs.Schedule.Memory

/-!
# What an update is made of

An entity that is found and is to be updated is not laid over what was found, but over what the run
knows of it: the state that the registry holds under the type and the identity of what was found.
That is the state of the last entity of this type and identity that was put in place or recalled in
the run, and what was found if there is none. Each field of the update, and its address, are
computed from the model, the ancestors and this state (`Visit.Renews`).

**Why it matters.** Two entities of one type have one identity if they have one name and neither has
a uuid, even if they are found at different addresses. Then the second of them is updated with the
fields of the first one, as the namesakes at the end show.
-/

set_option autoImplicit false

namespace DesiredState

namespace Visit

/-- The state of an entity whose lookup holds a value. -/
def found (visit : Visit) (value : Json) : Entity := .ofRemote value visit.desired.className

/-- The field that refers to the parent. -/
def parentField? (visit : Visit) : Option String := visit.blueprint.parentLink.bind ParentLink.name

/-- The fields are those of an update of what is known of the entity. -/
structure Composes (visit : Visit) (known : Entity) (fields : NameMap Json) : Prop where
  /-- The field that refers to the parent has the value of the ancestor, whatever the model says. -/
  linked : ∀ link field, visit.blueprint.parentLink = some link → link.name = some field →
    ∃ value, link.value field visit.lineage visit.desired = .ok value ∧
      fields.find? field = some value
  given : ∀ name value, visit.parentField? ≠ some name → visit.desired.field? name = some value →
    value.isNull = false → fields.find? name = some value
  /-- What the model leaves open is as it was known. -/
  kept : ∀ name, visit.parentField? ≠ some name →
    (∀ value, visit.desired.field? name = some value → value.isNull = true) →
    fields.find? name = known.field? name

/-- The request updates what is known of the entity. -/
structure Renews (visit : Visit) (known : Entity) (request : Request) : Prop where
  flagged : visit.desired.updates = true
  method : request.method = visit.blueprint.updateMethod
  /-- It goes to where the entity would be looked up. -/
  path : ∃ template, visit.blueprint.lookupUri? = some template ∧
    Template.resolve visit.lineage (visit.desired.laidOver known) template = .path request.path
  body : ∃ fields, request.body = some (.ofMap fields) ∧ visit.Composes known fields

/-- The value that a field takes from an ancestor does not depend on the entity that has the field,
which only stands in the failures. -/
theorem value_congr {link : ParentLink} {field : String} {lineage : Lineage} {value : Json}
    {first : Entity} (second : Entity) (found : link.value field lineage first = .ok value) :
    link.value field lineage second = .ok value :=
  ParentLink.value_eq_ok_iff.mpr (ParentLink.value_eq_ok_iff.mp found)

/-- Away from the field that refers to the parent, an entity that is linked has the fields it
had. -/
theorem field?_of_linked {visit : Visit} {entity sender : Entity}
    (links : Run.linked visit.blueprint visit.lineage entity = .ok sender) {name : String}
    (other : visit.parentField? ≠ some name) : sender.field? name = entity.field? name := by
  rcases Run.linked_cases links with ⟨field, reference, value, linking, _, rfl⟩ | ⟨_, rfl⟩
  · have differs : name ≠ field := by
      rintro rfl
      exact other (by rw [parentField?, linking]; rfl)
    exact (Entity.field?_setField entity field name value).trans (if_neg differs)
  · rfl

/-- An entity that is laid over what is known and linked to its parent has the fields of an
update. -/
theorem composes_of_linked {visit : Visit} {known sender : Entity}
    (links : Run.linked visit.blueprint visit.lineage (visit.desired.laidOver known)
      = .ok sender) : visit.Composes known sender.fields := by
  have laid := Entity.field?_laidOver visit.desired known
  refine ⟨?_, ?_, ?_⟩
  · rintro ⟨_, reference⟩ field linking rfl
    obtain ⟨value, found, set⟩ := Run.value_of_linked linking links
    exact ⟨value, value_congr _ found, set⟩
  · intro name value other given something
    refine (field?_of_linked links other).trans ?_
    rw [laid, given, Option.filter_some]
    simp [something]
  · intro name other nothing
    refine (field?_of_linked links other).trans ?_
    rw [laid]
    cases given : visit.desired.field? name with
    | none => rfl
    | some value =>
        rw [Option.filter_some]
        simp [nothing value given]

/-- What is submitted as an update updates what is known. -/
theorem renews_of_submission {visit : Visit} {known sender : Entity} {template uri : String}
    (flagged : visit.desired.updates = true) (given : visit.blueprint.lookupUri? = some template)
    (ready : (visit.sending (visit.desired.laidOver known)).submission .update
      visit.blueprint.updateMethod template = .ok (uri, sender)) :
    visit.Renews known ⟨visit.blueprint.updateMethod, uri, some sender.body⟩ := by
  obtain ⟨resolved, links, _⟩ := of_submission ready
  exact ⟨flagged, rfl, ⟨template, given, resolved⟩, sender.fields, rfl, composes_of_linked links⟩

end Visit

namespace Run

variable {run : Run} {visit : Visit}

/-! ## The updates of one entity -/

/-- The write of an update is all that is done for it. -/
theorem Renewal.of_call {events : List Event} {outcome : Outcome (Option Entity)}
    {template : String} {write : Call} {others : List Call}
    (renewal : Renewal run visit template events outcome) (sent : calls events = write :: others) :
    events = [.called write] ∧ ∃ uri sender,
      visit.submission .update visit.blueprint.updateMethod template = .ok (uri, sender) ∧
      write.request = ⟨visit.blueprint.updateMethod, uri, some sender.body⟩ := by
  cases renewal with
  | unready _ => nomatch sent
  | written ready _ =>
      cases sent
      exact ⟨rfl, _, _, ready, rfl⟩
  | refused ready _ =>
      cases sent
      exact ⟨rfl, _, _, ready, rfl⟩

/-- A create sends nothing after it has been answered with the status of something found. -/
theorem Creation.not_found {events : List Event} {outcome : Outcome (Option Entity)}
    {lookup : Request} {response : Response} {write : Call} {others : List Call}
    (creation : Creation run visit events outcome) (status : response.status = foundStatus) :
    calls events ≠ ⟨lookup, .answered response⟩ :: write :: others := by
  intro sent
  cases creation with
  | unready _ => nomatch sent
  | written _ _ => nomatch sent
  | refused _ _ _ => nomatch sent
  | rejected _ invalid _ =>
      obtain ⟨first, _⟩ := List.cons.inj sent
      cases first
      rw [status] at invalid
      nomatch invalid

/-- What is done for an entity that is found and then written: the state that is recalled in between
is the one that the write updates. -/
theorem Protocol.of_found {events : List Event} {outcome : Outcome (Option Entity)}
    (protocol : Protocol run visit events outcome) {lookup : Request} {response : Response}
    {write : Call} {others : List Call}
    (sent : calls events = ⟨lookup, .answered response⟩ :: write :: others)
    (status : response.status = foundStatus) :
    ∃ value known, response.json? = some value ∧ visit.Renews known write.request ∧
      events = [.called ⟨lookup, .answered response⟩,
        .recalled run.session (visit.found value) known, .called write] := by
  cases protocol with
  | unfilled _ _ => nomatch sent
  | unasked _ creation => exact absurd sent (creation.not_found status)
  | lost _ _ => nomatch sent
  | unexpected _ _ _ => nomatch sent
  | undecodable _ _ _ => nomatch sent
  | missing _ missing _ =>
      obtain ⟨first, _⟩ := List.cons.inj sent
      cases first
      rw [status] at missing
      nomatch missing
  | kept _ _ _ _ => nomatch sent
  | @updated path template _ value known renewed _ _ _ spelled flagged given renewal =>
      obtain ⟨first, later⟩ := List.cons.inj sent
      obtain ⟨rfl, uri, sender, ready, asked⟩ :=
        renewal.of_call (show calls renewed = write :: others from later)
      cases first
      refine ⟨value, known, spelled, ?_, rfl⟩
      rw [asked]
      exact Visit.renews_of_submission flagged given ready

/-- Part of the way too, the state has been recalled before the write is sent. -/
theorem Protocol.of_found_append {own more : List Event} {outcome : Outcome (Option Entity)}
    (protocol : Protocol run visit (own ++ more) outcome) {lookup : Request} {response : Response}
    {write : Call} {others : List Call}
    (sent : calls own = ⟨lookup, .answered response⟩ :: write :: others)
    (status : response.status = foundStatus) :
    ∃ value known, response.json? = some value ∧ visit.Renews known write.request ∧
      own = [.called ⟨lookup, .answered response⟩,
        .recalled run.session (visit.found value) known, .called write] := by
  have all : calls (own ++ more)
      = ⟨lookup, .answered response⟩ :: write :: (others ++ calls more) := by
    rw [calls_append, sent]
    rfl
  obtain ⟨value, known, spelled, renews, whole⟩ := protocol.of_found all status
  refine ⟨value, known, spelled, renews, ?_⟩
  have part : own <+: [.called ⟨lookup, .answered response⟩,
      .recalled run.session (visit.found value) known] ++ [.called write] := ⟨more, whole⟩
  rcases List.prefix_concat_iff.mp part with same | shorter
  · exact same
  · -- a shorter beginning has one call only
    have few : (calls own).length ≤ 1 := (shorter.filterMap Event.call?).length_le
    rw [sent, List.length_cons, List.length_cons] at few
    omega

end Run

/-! ## The updates of a run -/

/-- A history is split where a task has done something. -/
theorem History.split_own {history : History} {origin : Origin} {first second : List Event}
    {event : Event} (own : history.own origin = first ++ event :: second) :
    ∃ before after, history = before ++ (origin, event) :: after ∧
      History.own before origin = first ∧ History.own after origin = second := by
  obtain ⟨before, rest, rfl, earlier, later⟩ := List.filterMap_eq_append_iff.mp own
  obtain ⟨passed, ⟨place, other⟩, after, rfl, elsewhere, here, last⟩ :=
    List.filterMap_eq_cons_iff.mp later
  have nothing : History.own passed origin = [] := List.filterMap_eq_nil_iff.mpr elsewhere
  by_cases same : place = origin
  · rw [if_pos same] at here
    cases here
    subst same
    refine ⟨before ++ passed, after, by rw [List.append_assoc], ?_, last⟩
    rw [History.own_append, nothing, List.append_nil]
    exact earlier
  · rw [if_neg same] at here
    nomatch here

/-- The event comes when a task is through with its own entity: what is in place is remembered, or
the children are given up. -/
def Event.isClosing : Event → Bool
  | .remembered _ _ => true
  | .gaveUp => true
  | _ => false

/-- Nothing is asked in the end. -/
theorem calls_of_closing {events : List Event}
    (closes : ∀ event ∈ events, event.isClosing = true) : calls events = [] := by
  refine List.filterMap_eq_nil_iff.mpr fun event member => ?_
  have closing := closes event member
  cases event with
  | called call => nomatch closing
  | _ => rfl

namespace Account

variable {run : Run} {account : Account}

/-- What the task of an entity has done itself is the beginning of what its plan yields, and then
the entity in place may have been remembered. -/
theorem Sound.settling (sound : account.Sound run) {visit : Visit}
    (entity : account.task = .entity visit) :
    account.own = [] ∨ ∃ own closing more outcome,
      account.own = .told (.begun visit) :: (own ++ closing) ∧
      (∀ event ∈ closing, event.isClosing = true) ∧
      (visit.settle run).Yields (own ++ more) outcome := by
  have goesOn : ∀ {own : List Event} {ended : Option (Outcome (Option Entity))},
      (visit.settle run).Takes run (.ofEvents own .idle) ended →
      ∃ more outcome, (visit.settle run).Yields (own ++ more) outcome :=
    fun settles => settles.yields_own (Run.solitary_settle visit.desired)
  rcases sound.form with ⟨_, _, stops⟩ | ⟨groups, _, handsOut, _, _⟩
  · rw [entity] at stops
    generalize account.own = own at stops ⊢
    generalize account.fate = fate at stops
    cases stops with
    | unbegun _ => exact .inl rfl
    | @unsettled _ own _ settles _ =>
        obtain ⟨more, outcome, yields⟩ := goesOn settles
        exact .inr ⟨own, [], more, outcome, by rw [List.append_nil], List.forall_mem_nil _, yields⟩
    | undeclared settles _ _ =>
        obtain ⟨more, outcome, yields⟩ := goesOn settles
        exact .inr ⟨_, _, more, outcome, rfl, List.forall_mem_singleton.mpr rfl, yields⟩
  · rw [entity] at handsOut
    generalize account.own = own at handsOut ⊢
    cases handsOut with
    | entity settles _ =>
        obtain ⟨more, outcome, yields⟩ := goesOn settles
        exact .inr ⟨_, _, more, outcome, rfl, List.forall_mem_singleton.mpr rfl, yields⟩

/-- In a run that is not dry and has no observer, the task has begun to follow the protocol. -/
theorem Sound.protocol (wet : run.dry = false) (unobserved : run.observer = none)
    (sound : account.Sound run) {visit : Visit} (entity : account.task = .entity visit) :
    account.own = [] ∨ ∃ own closing more outcome,
      account.own = .told (.begun visit) :: (own ++ closing) ∧
      (∀ event ∈ closing, event.isClosing = true) ∧
      Run.Protocol run visit (own ++ more) outcome := by
  rcases sound.settling entity with nothing | ⟨own, closing, more, outcome, all, closes, yields⟩
  · exact .inl nothing
  · exact .inr ⟨own, closing, more, outcome, all, closes,
      Run.protocol_of_settle wet unobserved yields⟩

/-- A task that is not that of an entity asks for what it may ask for in a dry run. -/
theorem Sound.within_or_entity (sound : account.Sound run) :
    ((calls account.own).map (·.request)).Sublist (account.task.reads run) ∨
      ∃ visit, account.task = .entity visit := by
  rcases sound.form with ⟨_, _, stops⟩ | ⟨groups, _, goesOn, _, _⟩
  · generalize account.task = task at stops ⊢
    generalize account.own = own at stops ⊢
    generalize account.fate = fate at stops
    cases stops with
    | @unopened type text _ _ opens _ =>
        exact .inl ((Run.within_opening type text).sublist_own opens)
    | unbegun visit => exact .inr ⟨visit, rfl⟩
    | unsettled _ _ => exact .inr ⟨_, rfl⟩
    | undeclared _ _ _ => exact .inr ⟨_, rfl⟩
  · generalize account.task = task at goesOn ⊢
    generalize account.own = own at goesOn ⊢
    cases goesOn with
    | catalog documents => exact .inl (List.nil_sublist _)
    | @document type text _ _ _ opens =>
        exact .inl ((Run.within_opening type text).sublist_own opens)
    | entity _ _ => exact .inr ⟨_, rfl⟩

/-- A task that asks more than once is that of an entity, and the run is not dry. -/
theorem Sound.entity_of_calls (sound : account.Sound run) (many : 2 ≤ (calls account.own).length) :
    run.dry = false ∧ ∃ visit, account.task = .entity visit := by
  have short : ¬ ((calls account.own).map (·.request)).Sublist (account.task.reads run) := by
    intro within
    have few : (account.task.reads run).length ≤ 1 := by
      cases account.task with
      | catalog documents => exact Nat.zero_le 1
      | document type text => exact Nat.le_refl 1
      | entity visit =>
          rw [Task.reads, List.length_map]
          exact Option.length_toList_le
    have length := within.length_le
    rw [List.length_map] at length
    omega
  constructor
  · by_contra dry
    exact short (sound.within (by simpa using dry))
  · exact sound.within_or_entity.resolve_left short

/-- **What is done for an entity that is found and then written.** -/
theorem Sound.own_of_found (unobserved : run.observer = none) (sound : account.Sound run)
    (ordered : account.task.Ordered) {origin : Origin} {lookup : Request} {response : Response}
    {write : Call} {others : List Call}
    (sent : calls (account.history.own origin) = ⟨lookup, .answered response⟩ :: write :: others)
    (status : response.status = Run.foundStatus) :
    ∃ part visit value known closing,
      account.part? origin = some part ∧ part.task = .entity visit ∧
      response.json? = some value ∧ visit.Renews known write.request ∧
      account.history.own origin
        = [.told (.begun visit), .called ⟨lookup, .answered response⟩]
          ++ .recalled run.session (visit.found value) known :: .called write :: closing ∧
      ∀ event ∈ closing, event.isClosing = true := by
  obtain ⟨part, found⟩ := sound.part_of_own ordered (sent ▸ List.mem_cons_self)
  have sounds := (sound.of_part? ordered found).1
  have own : calls part.own = ⟨lookup, .answered response⟩ :: write :: others := by
    rw [← sound.calls_own ordered found, sent]
  obtain ⟨wet, visit, entity⟩ := sounds.entity_of_calls (by rw [own]; simp)
  rcases sounds.protocol wet unobserved entity with none |
    ⟨did, closing, more, outcome, all, closes, protocol⟩
  · rw [none] at own
    nomatch own
  · have asked : calls did = ⟨lookup, .answered response⟩ :: write :: others := by
      rw [← own, all, calls_cons, calls_append, calls_of_closing closes, List.append_nil]
      rfl
    obtain ⟨value, known, spelled, renews, rfl⟩ := protocol.of_found_append asked status
    obtain ⟨gaveUp, same, quiet⟩ := sound.own ordered found
    refine ⟨part, visit, value, known, closing ++ gaveUp, found, entity, spelled, renews, ?_, ?_⟩
    · rw [same, all]
      simp
    · refine List.forall_mem_append.mpr ⟨closes, ?_⟩
      rcases quiet with rfl | rfl
      · exact List.forall_mem_nil _
      · exact List.forall_mem_singleton.mpr rfl

/-- An entity without child types does everything itself. -/
theorem Sound.alone (sound : account.Sound run) {visit : Visit}
    (entity : account.task = .entity visit) (childless : visit.blueprint.childTypes = []) :
    account.history.own [] = account.history.events := by
  have stays : ∀ history : History, account.history = account.own.map stay ++ history →
      history = [] → account.history.own [] = account.history.events := by
    rintro history same rfl
    rw [same, List.append_nil, History.own_stay, History.events_stay]
  rcases sound.form with ⟨_, same, _⟩ | ⟨groups, history, goesOn, sequel, same⟩
  · exact stays [] (by rw [same, List.append_nil]) rfl
  · refine stays history same ?_
    have nobody : groups = [] := by
      rw [entity] at goesOn
      generalize account.own = own at goesOn
      cases goesOn with
      | entity _ _ => rw [Task.broods, childless, List.map_nil]
    subst nobody
    generalize account.gangs = gangs at sequel
    generalize account.fate = fate at sequel
    cases sequel with
    | pending _ => rfl
    | through => rfl

end Account

namespace Run

/-- The task at the end of the way has found its entity, and what it has sent then is an update of
what the run knew of the entity: the state that was left by the last event about its type and
identity, and the state that was found if there was none. -/
def UpdatesKnown (run : Run) (account : Account) (origin : Origin) (lookup : Call)
    (response : Response) (write : Call) : Prop :=
  ∃ part visit value known before after,
    account.part? origin = some part ∧ part.task = .entity visit ∧
    response.json? = some value ∧
    account.history = before ++ (origin, .recalled run.session (visit.found value) known) :: after ∧
    calls (History.own before origin) = [lookup] ∧ calls (History.own after origin) = [write] ∧
    known = (lastKnown (KnownState.key ⟨run.session, visit.found value⟩) before.events).getD
      (visit.found value) ∧
    visit.Renews known write.request

/-- The events are those of an account of the task in which each task that has found its entity has
sent nothing then but an update of what the run knew. -/
def KeepsKnown (run : Run) (task : Task) (events : List Event) : Prop :=
  ∃ account : Account, account.task = task ∧ account.Sound run ∧ account.history.events = events ∧
    ∀ origin lookup response write others,
      calls (account.history.own origin) = ⟨lookup, .answered response⟩ :: write :: others →
      response.status = foundStatus →
      UpdatesKnown run account origin ⟨lookup, .answered response⟩ response write

variable {run : Run}

/-- What a task has recalled was known before. -/
theorem updatesKnown_of_calls (unobserved : run.observer = none) {account : Account}
    (sound : account.Sound run) (ordered : account.task.Ordered)
    (gives : Registry.empty.Gives account.history.events) {origin : Origin} {lookup : Request}
    {response : Response} {write : Call} {others : List Call}
    (sent : calls (account.history.own origin) = ⟨lookup, .answered response⟩ :: write :: others)
    (status : response.status = foundStatus) :
    UpdatesKnown run account origin ⟨lookup, .answered response⟩ response write := by
  obtain ⟨part, visit, value, known, closing, found, entity, spelled, renews, own, closes⟩ :=
    sound.own_of_found unobserved ordered sent status
  obtain ⟨before, after, history, earlier, later⟩ := History.split_own own
  refine ⟨part, visit, value, known, before, after, found, entity, spelled, history, ?_, ?_, ?_,
    renews⟩
  · rw [earlier]
    rfl
  · rw [later, calls_cons, calls_of_closing closes]
    rfl
  · rw [history, History.events_append, History.events_cons] at gives
    rw [gives.recalled, Registry.find?_after _ (Registry.gives_append.mp gives).1,
      Registry.find?_empty, Option.or_none]

/-- **An update is made from what the run knows of its entity.** Whatever a run without an observer
is answered and in whatever order its tasks act, if it begins with an empty registry, then an entity
that is found is sent nothing afterwards but an update of the state that the registry holds under
the type and the identity of what was found. -/
theorem updates_what_is_known (unobserved : run.observer = none) :
    (∀ documents events (stage : Stage ChildTask (List (String × String))),
      Stage.Steps run (.active (run.models documents)) events stage →
      Registry.empty.Gives events → KeepsKnown run (.catalog documents) events) ∧
    (∀ type text events (stage : Stage ChildTask (List Entity)),
      Stage.Steps run (.active (run.document type text)) events stage →
      Registry.empty.Gives events → KeepsKnown run (.document type text) events) ∧
    ∀ visit events (stage : Stage ChildTask (Option Entity)), visit.blueprint.Ordered →
      Stage.Steps run (.active (run.reconcile visit.blueprint visit.lineage visit.desired)) events
        stage →
      Registry.empty.Gives events → KeepsKnown run (.entity visit) events := by
  have keeps : ∀ {task : Task} {events : List Event} {fate : Fate}, task.Ordered →
      Accounts run task events fate → Registry.empty.Gives events →
      KeepsKnown run task events := by
    rintro task events fate ordered ⟨account, rfl, _, sound, rfl⟩ gives
    exact ⟨account, rfl, sound, rfl, fun _ _ _ _ _ sent status =>
      updatesKnown_of_calls unobserved sound ordered gives sent status⟩
  refine ⟨?_, ?_, ?_⟩
  · intro documents events stage steps gives
    obtain ⟨course, takes, orders⟩ := steps.takes
    have ordered : (Task.catalog documents).Ordered := trivial
    exact keeps ordered (accounts_of_models takes orders) gives
  · intro type text events stage steps gives
    obtain ⟨course, takes, orders⟩ := steps.takes
    have ordered : (Task.document type text).Ordered := trivial
    exact keeps ordered (accounts_of_document takes orders) gives
  · intro visit events stage sorted steps gives
    obtain ⟨course, takes, orders⟩ := steps.takes
    have ordered : (Task.entity visit).Ordered := sorted
    exact keeps ordered (accounts_of_reconcile takes orders) gives

end Run

/-! ## Things that are updated -/

namespace Sample

/-- A thing to be updated whose kind is left open. -/
def renewable : Visit where
  blueprint := contested.blueprint
  lineage := .empty
  desired := ⟨"Thing", ⟨[("kind", .null), ("name", .string "a"), ("note", .string "mine")],
    by decide⟩, .empty, true, false⟩

theorem ordered_renewable : renewable.blueprint.Ordered := .mk .nil (List.forall_mem_nil _)

/-- The thing as it is found. -/
def stale : Response where
  status := 200
  body := some
    "\x7b\"kind\":\"theirs\",\"name\":\"a\",\"note\":\"old\",\"size\":3\x7d"
  location := none

/-- There is this thing at each path, and whatever is sent is accepted. -/
def holding (_ : Request) (state : Unit) : Exchange × Unit := (.answered stale, state)

/-- The handling of the thing. -/
def renewal : RunResult ((String → Unit) × List Call) (Option Entity) :=
  (Engine.create ⟨"/blueprints", 2, 1000, "sample"⟩ none false).execute
    ⟨⟨0⟩, .direct, .recorded holding⟩ 20
    (·.reconcile renewable.blueprint renewable.lineage renewable.desired) (fun _ => (), [])

/-- The thing is found, and then it is sent with what the model leaves open. -/
theorem renewal_stands : (inPlace? renewal).isSome = true ∧
    renewal.server.2.reverse.map (·.exchange) = [.answered stale, .answered stale] ∧
    renewal.server.2.reverse.map (fun call => call.request.body.map Json.print)
      = [none, some
        "\x7b\"kind\":\"theirs\",\"name\":\"a\",\"note\":\"mine\",\"size\":3\x7d"] := by
  decide +kernel

/-- The update of the thing is made from what was found. -/
theorem renewable_updates_known : ∃ events placed lookup write,
    Stage.Steps (trial false) (.active ((trial false).reconcile renewable.blueprint
      renewable.lineage renewable.desired)) events (.finished (.value (some placed))) ∧
    calls events = [⟨lookup, .answered stale⟩, write] ∧
    write.request.body.map Json.print = some
      "\x7b\"kind\":\"theirs\",\"name\":\"a\",\"note\":\"mine\",\"size\":3\x7d" ∧
    ∃ account : Account, account.history.events = events ∧
      Run.UpdatesKnown (trial false) account [] ⟨lookup, .answered stale⟩ stale write := by
  obtain ⟨there, exchanges, bodies⟩ := renewal_stands
  have unobserved : (trial false).observer = none := rfl
  obtain ⟨placed, inPlace⟩ := Option.isSome_iff_exists.mp there
  obtain ⟨events, steps, _, called, _, gives, _⟩ := Engine.execute_remembers _ _ _ _ _ _ _
    (rfl : _ = renewal) (outcome_of_inPlace inPlace)
  obtain ⟨account, entity, sound, rfl, keeps⟩ :=
    (Run.updates_what_is_known unobserved).2.2 _ _ _ ordered_renewable steps gives
  rw [← called] at exchanges bodies
  obtain ⟨⟨lookup, _⟩, others, all, rfl, exchanges⟩ := List.map_eq_cons_iff.mp exchanges
  obtain ⟨write, rest, rfl, _, exchanges⟩ := List.map_eq_cons_iff.mp exchanges
  obtain rfl := List.map_eq_nil_iff.mp exchanges
  rw [all] at bodies
  refine ⟨_, placed, lookup, write, steps, all, ?_, account, rfl, ?_⟩
  · exact (List.cons.inj (List.cons.inj bodies).2).1
  · refine keeps [] lookup stale write [] ?_ rfl
    rw [sound.alone entity rfl, all]

/-- The blueprint of things that are found by their kind and their name. -/
def classified : NameMap Json :=
  ⟨[("createUri", .string "/things/\x7bkind\x7d/\x7bname\x7d"),
    ("updateUri", .string "/things/\x7bkind\x7d/\x7bname\x7d")], by decide⟩

/-- A store with two things of one name, of different kinds and with different notes. -/
def paired : String → Held := fun path =>
  if path = "/blueprints/Thing" then some classified
  else if path = "/things/x/a" then
    some ⟨[("kind", .string "x"), ("name", .string "a"), ("note", .string "first")], by decide⟩
  else if path = "/things/y/a" then
    some ⟨[("kind", .string "y"), ("name", .string "a"), ("note", .string "second")], by decide⟩
  else none

/-- Both things, to be updated. -/
def namesakes : String :=
  "[\x7b\"kind\":\"x\",\"name\":\"a\",\"_update\":true\x7d,"
    ++ "\x7b\"kind\":\"y\",\"name\":\"a\",\"_update\":true\x7d]"

/-- The note in a value. -/
def note? (value : Json) : Option String :=
  ((value.members?.getD .empty).find? "note").bind Json.text?

/-- The note of what a call has found. -/
def foundNote? (call : Call) : Option String :=
  match call.exchange with
  | .answered response =>
      if response.status = Run.foundStatus then response.json?.bind note? else none
  | .lost _ => none

/-- What has found a note was answered with a value that has it. -/
theorem answered_of_foundNote {call : Call} {note : String} (found : foundNote? call = some note) :
    ∃ response value, call.exchange = .answered response ∧ response.status = Run.foundStatus ∧
      response.json? = some value ∧ note? value = some note := by
  unfold foundNote? at found
  split at found
  · rename_i response answered
    obtain ⟨status, found⟩ := Option.ite_none_right_eq_some.mp found
    obtain ⟨value, spelled, noted⟩ := Option.bind_eq_some_iff.mp found
    exact ⟨response, value, answered, status, spelled, noted⟩
  · nomatch found

/-- The second thing is found with its own note, and it is sent with that of the first one. -/
theorem namesakes_stand : Outcome.isValue (attempt false paired namesakes).outcome = true ∧
    ((attempt false paired namesakes).server.2.reverse.map fun call =>
        (call.request.method, call.request.path))
      = [(.get, "/blueprints/Thing"), (.get, "/things/x/a"), (.post, "/things/x/a"),
        (.get, "/things/y/a"), (.post, "/things/y/a")] ∧
    (attempt false paired namesakes).server.2.reverse.map foundNote?
      = [none, some "first", some "first", some "second", some "first"] ∧
    ((attempt false paired namesakes).server.2.reverse.map fun call =>
        call.request.body.bind note?)
      = [none, none, some "first", none, some "first"] ∧
    ∃ visit ∈ (attempt false paired namesakes).notices.filterMap Notice.visit?,
      visit.desired.updates = true ∧ visit.parentField? = none ∧
      (visit.desired.field? "note").isNone = true ∧ visit.blueprint.updateMethod = .post ∧
      Run.lookupAddress? visit.blueprint visit.lineage visit.desired = some "/things/y/a" := by
  decide +kernel

/-- An update of what was found would send the note that was found. -/
theorem note_of_renews {visit : Visit} {value : Json} {request : Request}
    (renews : visit.Renews (visit.found value) request) (unlinked : visit.parentField? = none)
    (leftOpen : visit.desired.field? "note" = none) : request.body.bind note? = note? value := by
  obtain ⟨fields, body, composes⟩ := renews.body
  have kept := composes.kept "note" (by rw [unlinked]; simp) (by rw [leftOpen]; simp)
  rw [body, Option.bind_some, note?, Json.members?_ofMap, Option.getD_some, kept]
  rfl

/-- Two things of one name are updated that are found at different addresses. The second one is
found with a note of its own, on which the model says nothing, but the first one's note is sent:
the update is not one of what was found. -/
theorem second_takes_first_note : ∃ events, ∃ roots : List Entity,
    ∃ visit ∈ visits events, ∃ lookup write response value,
    Stage.Steps (trial false) (.active ((trial false).document "Thing" namesakes)) events
      (.finished (.value roots)) ∧
    Registry.empty.Gives events ∧
    (calls events).drop 3 = [lookup, write] ∧
    Run.lookupAddress? visit.blueprint visit.lineage visit.desired = some "/things/y/a" ∧
    (lookup.request.method, lookup.request.path) = (.get, "/things/y/a") ∧
    lookup.exchange = .answered response ∧ response.status = Run.foundStatus ∧
    response.json? = some value ∧ note? value = some "second" ∧
    visit.desired.updates = true ∧ visit.desired.field? "note" = none ∧
    (write.request.method, write.request.path) = (visit.blueprint.updateMethod, "/things/y/a") ∧
    write.request.body.bind note? = some "first" ∧
    ¬ visit.Renews (visit.found value) write.request := by
  obtain ⟨value, requests, found, bodies, visit, begun, flagged, unlinked, leftOpen, method,
    address⟩ := namesakes_stand
  have nothing : visit.desired.field? "note" = none := Option.isNone_iff_eq_none.mp leftOpen
  obtain ⟨roots, ended⟩ := Outcome.value_of_isValue value
  obtain ⟨events, steps, _, called, seen, gives, _⟩ :=
    Engine.execute_remembers _ _ _ _ _ _ _ (rfl : _ = attempt false paired namesakes) ended
  rw [← called] at requests found bodies
  have requests := congrArg (List.drop 3) requests
  have found := congrArg (List.drop 3) found
  have bodies := congrArg (List.drop 3) bodies
  rw [← List.map_drop] at requests found bodies
  obtain ⟨lookup, others, last, looked, requests⟩ := List.map_eq_cons_iff.mp requests
  obtain ⟨write, none, rfl, wrote, requests⟩ := List.map_eq_cons_iff.mp requests
  obtain rfl := List.map_eq_nil_iff.mp requests
  rw [last] at found bodies
  obtain ⟨response, value, answered, status, spelled, second⟩ :=
    answered_of_foundNote (List.cons.inj found).1
  have first : write.request.body.bind note? = some "first" :=
    (List.cons.inj (List.cons.inj bodies).2).1
  refine ⟨events, roots, visit, seen ▸ begun, lookup, write, response, value, steps, gives, last,
    address, looked, answered, status, spelled, second, flagged, nothing, ?_, first, ?_⟩
  · rw [method]
    exact wrote
  · intro renews
    have same := note_of_renews renews unlinked nothing
    rw [first, second] at same
    exact absurd same (by decide)

end Sample

end DesiredState
