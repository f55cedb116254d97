import DesiredState.Proofs.Run.Foresight
import DesiredState.Proofs.Schedule.Retrace

/-!
# Runs on a store between two others

Let it be foreseen what becomes of the entities of a model. A run of the model on a store that
is between the first one and the last one, each path holding what one of them holds, then only
reads, or writes what the last one holds (`custody`), and after each step the store is between
the two again. When nothing is disturbed and no batch is given up, every task ends with a value.
-/

set_option autoImplicit false

namespace DesiredState

namespace Run

/-- Only entities whose fate is foreseen are handed out, and they are read, or written as they
will be held in the end; the answers are those of a store between the two, or disturbed. -/
def custody (assigns : String → String → Prop) (start final : String → Held)
    (disturbed : Prop) : Contract where
  asks request := (request.method = .get ∧ request.body = none) ∨
    start request.path = none ∧ request.method.isWrite = true ∧ ∃ sent stored,
      request.body = some (.ofMap sent) ∧ Completes assigns request.path sent stored ∧
      final request.path = some stored
  hears request exchange :=
    (∃ held next, (held = start request.path ∨ held = final request.path) ∧
      Stored assigns request held exchange next) ∨ disturbed ∧ exchange.Troubled
  begins _ := True
  accepts group child := child.Calm ∧ group.blueprint.Mirrored ∧
    Foreseen assigns start final group.blueprint group.lineage child
  strict := ¬ disturbed

/-- Where something is created, one uuid may be assigned. -/
def Sole (assigns : String → String → Prop) (start final : String → Held) : Prop :=
  ∀ path uuid another, start path = none → final path ≠ none →
    assigns path uuid → assigns path another → uuid = another

variable {assigns : String → String → Prop} {start final : String → Held} {disturbed : Prop}
  {run : Run} {blueprint : Blueprint} {lineage : Lineage} {desired : Entity} {uri : String}
  {fields : NameMap Json}

theorem keeps_observe {contract : Contract} (unobserved : run.observer = none) (moment : Moment) :
    (run.observe moment).Keeps contract fun _ => True := by
  rw [observe, unobserved]
  exact trivial

theorem keeps_resolve {contract : Contract} {entity : Entity} {template : String}
    (filled : (Template.resolve lineage entity template).path? = some uri) :
    (resolve lineage entity template).Keeps contract (· = some uri) := by
  unfold resolve
  cases resolved : Template.resolve lineage entity template with
  | path known =>
      rw [resolved] at filled
      exact congrArg some (Option.some.inj filled)
  | unidentified rest =>
      rw [resolved] at filled
      nomatch filled
  | unfilled rest =>
      rw [resolved] at filled
      nomatch filled

theorem keeps_lookupPath {contract : Contract} (mirrored : blueprint.Mirrored)
    (address : Visit.address? ⟨blueprint, lineage, desired⟩ = some uri) :
    (lookupPath blueprint lineage desired).Keeps contract (· = some uri) := by
  cases mirrored with
  | mk same _ =>
      rw [lookupPath, same]
      exact keeps_resolve address

theorem keeps_linkParent {contract : Contract} {entity : Entity}
    (links : linked blueprint lineage desired = .ok entity) :
    (linkParent blueprint lineage desired).Keeps contract (· = entity) := by
  unfold linked at links
  unfold linkParent
  cases linking : blueprint.parentLink with
  | none =>
      rw [linking] at links
      exact Except.ok.inj links
  | some link =>
      obtain ⟨name, reference⟩ := link
      cases name with
      | none =>
          rw [linking] at links
          exact Except.ok.inj links
      | some field =>
          rw [linking] at links
          cases found : ParentLink.value ⟨some field, reference⟩ field lineage desired with
          | error failure =>
              simp only [found] at links
              nomatch links
          | ok value =>
              simp only [found] at links ⊢
              exact Except.ok.inj links

theorem keeps_prepare {contract : Contract} (unobserved : run.observer = none) {entity : Entity}
    (links : linked blueprint lineage desired = .ok entity) :
    (run.prepare blueprint lineage desired).Keeps contract (· = entity) := by
  refine (keeps_linkParent links).bind ?_
  intro linked same
  unfold substitute
  rw [unobserved]
  exact same

/-! ## Creating and looking up -/

/-- A failure is allowed where requests may be disturbed. -/
theorem keeps_fail {α : Type} {promise : α → Prop} (may : disturbed) (failure : Failure) :
    (Plan.fail failure : Plan α).Keeps (custody assigns start final disturbed) promise :=
  fun strict => strict may

/-- What may be told of a write: the object that will be held, or that it was disturbed. -/
def WriteTold (fields : NameMap Json) (disturbed : Prop) (result : Except CallFailure Json) :
    Prop :=
  result = .ok (.ofMap fields) ∨
    disturbed ∧ ∃ failure, result = .error failure ∧ failure.isValidation = false

/-- What may be told of a lookup: the object that is held, its absence if there is none at the
start, or that it was disturbed. -/
def LookupTold (fields : NameMap Json) (absent disturbed : Prop)
    (result : Except CallFailure Response) : Prop :=
  (∃ response, result = .ok response ∧ (response.status = foundStatus ∧ response.Shows fields ∨
    response.status = CallFailure.missingStatus ∧ absent)) ∨
  disturbed ∧ ∀ response, result = .ok response →
    response.isSuccess = false ∧ response.status ≠ CallFailure.missingStatus

theorem told_of_write (sole : Sole assigns start final) (access : Access) {entity : Entity}
    {method : Method} (absent : start uri = none) (held : final uri = some fields)
    (completes : Completes assigns uri entity.fields fields) {exchange : Exchange}
    (hears : (custody assigns start final disturbed).hears ⟨method, uri, some entity.body⟩
      exchange) :
    WriteTold fields disturbed (access.written method uri entity.body exchange) := by
  rcases hears with ⟨_, _, _, stored⟩ | ⟨may, troubled⟩
  · obtain ⟨sent, object, response, body, also, _, rfl, success, shows_⟩ := stored.of_write
    obtain rfl := Json.ofMap_inj body
    have present : final uri ≠ none := by
      rw [held]
      exact Option.some_ne_none fields
    obtain rfl := completes.unique (fun uuid another => sole uri uuid another absent present) also
    exact .inl (Access.written_of_shows success shows_)
  · exact .inr ⟨may, Access.written_of_troubled troubled⟩

theorem told_of_lookup (access : Access) (held : final uri = some fields)
    (origin : start uri = some fields ∨ start uri = none) {exchange : Exchange}
    (hears : (custody assigns start final disturbed).hears ⟨.get, uri, none⟩ exchange) :
    LookupTold fields (start uri = none) disturbed
      (access.received ⟨.get, uri, none⟩ exchange) := by
  rcases hears with ⟨known, next, between, stored⟩ | ⟨may, troubled⟩
  · have here : known = some fields ∨ known = none ∧ start uri = none := by
      rcases between with rfl | rfl
      · exact origin.imp id fun absent => ⟨absent, absent⟩
      · exact .inl held
    obtain ⟨_, response, rfl, answer⟩ := stored.of_get
    refine .inl ⟨response, rfl, ?_⟩
    rcases answer with ⟨found, rfl, status, shows_⟩ | ⟨rfl, status⟩
    · rcases here with same | ⟨same, _⟩
      · cases same
        exact .inl ⟨status, shows_⟩
      · nomatch same
    · rcases here with same | ⟨_, absent⟩
      · nomatch same
      · exact .inr ⟨status, absent⟩
  · refine .inr ⟨may, fun response received => ?_⟩
    cases exchange with
    | lost cause => nomatch received
    | answered other =>
        cases received
        exact ⟨troubled.1, troubled.2.1⟩

theorem keeps_submitCreate (unobserved : run.observer = none) (sole : Sole assigns start final)
    {entity : Entity} (writes : blueprint.createMethod.isWrite = true) (absent : start uri = none)
    (held : final uri = some fields) (completes : Completes assigns uri entity.fields fields) :
    (run.submitCreate blueprint lineage entity uri).Keeps (custody assigns start final disturbed)
      (· = some (.ofRemote (.ofMap fields) entity.className)) := by
  refine (keeps_log _).bind ?_
  intro _ _
  have asks : (custody assigns start final disturbed).asks
      ⟨blueprint.createMethod, uri, some entity.body⟩ :=
    .inr ⟨absent, writes, entity.fields, fields, rfl, completes, held⟩
  have write : (run.access.write blueprint.createMethod uri entity.body).Keeps
      (custody assigns start final disturbed) (WriteTold fields disturbed) :=
    Access.keeps_write writes asks fun _ => told_of_write sole run.access absent held completes
  refine write.bind ?_
  intro result told
  rcases told with rfl | ⟨may, failure, rfl, valid⟩
  · exact (keeps_observe unobserved _).bind fun _ _ => .pure_eq _
  · simp only [valid, Bool.false_eq_true, if_false]
    exact keeps_fail may _

/-- An entity whose address holds nothing is created as it is foreseen. -/
theorem keeps_create (wet : run.dry = false) (unobserved : run.observer = none)
    (sole : Sole assigns start final) {entity : Entity}
    (address : Visit.address? ⟨blueprint, lineage, desired⟩ = some uri)
    (links : linked blueprint lineage desired = .ok entity)
    (writes : blueprint.createMethod.isWrite = true) (absent : start uri = none)
    (held : final uri = some fields) (completes : Completes assigns uri entity.fields fields) :
    (run.create blueprint lineage desired).Keeps (custody assigns start final disturbed)
      (· = some (.ofRemote (.ofMap fields) desired.className)) := by
  unfold create
  rw [wet]
  refine (keeps_resolve address).bind ?_
  intro path filled
  rw [filled]
  refine (keeps_prepare unobserved links).bind ?_
  intro sender same
  rw [same]
  refine (keeps_observe unobserved _).bind ?_
  intro _ _
  rw [if_pos writes, ← (linked_parts links).1]
  exact keeps_submitCreate unobserved sole writes absent held completes

/-- **Settling an entity whose fate is foreseen.** -/
theorem keeps_settle (wet : run.dry = false) (unobserved : run.observer = none)
    (sole : Sole assigns start final) (mirrored : blueprint.Mirrored)
    (still : desired.updates = false)
    (address : Visit.address? ⟨blueprint, lineage, desired⟩ = some uri)
    (held : final uri = some fields)
    (origin : start uri = some fields ∨ start uri = none ∧
      ∃ entity, linked blueprint lineage desired = .ok entity ∧
        blueprint.createMethod.isWrite = true ∧ Completes assigns uri entity.fields fields) :
    (run.settle blueprint lineage desired).Keeps (custody assigns start final disturbed)
      (· = some (.ofRemote (.ofMap fields) desired.className)) := by
  refine (keeps_lookupPath mirrored address).bind ?_
  intro path known
  rw [known]
  refine (keeps_observe unobserved _).bind ?_
  intro _ _
  have asks : (custody assigns start final disturbed).asks ⟨.get, uri, none⟩ := .inl ⟨rfl, rfl⟩
  have lookup : (run.access.get uri).Keeps (custody assigns start final disturbed)
      (LookupTold fields (start uri = none) disturbed) :=
    Access.keeps_get asks fun _ => told_of_lookup run.access held (origin.imp id And.left)
  refine lookup.bind ?_
  intro result told
  rcases told with ⟨response, rfl, answer⟩ | ⟨may, other⟩
  · refine (keeps_observe unobserved _).bind ?_
    intro _ _
    unfold settleAnswered
    rcases answer with ⟨status, shows_⟩ | ⟨status, absent⟩
    · rw [if_pos status, shows_]
      have kept : (run.settleExisting blueprint lineage desired
          (.ofRemote (.ofMap fields) desired.className) uri).Keeps
            (custody assigns start final disturbed)
            (· = .ofRemote (.ofMap fields) desired.className) := by
        unfold settleExisting
        rw [wet, still]
        exact (keeps_log _).bind fun _ _ => .pure_eq _
      simp only [map_eq_pure_bind]
      refine kept.bind ?_
      intro entity same
      rw [same]
      exact .pure_eq _
    · have notFound : response.status ≠ foundStatus := by
        rw [status]
        decide
      rw [if_neg notFound, if_pos status, wet]
      rcases origin with before | ⟨_, entity, links, writes, completes⟩
      · cases absent.symm.trans before
      · exact keeps_create wet unobserved sole address links writes absent held completes
  · cases result with
    | error failure => exact keeps_fail may _
    | ok response =>
        refine (keeps_observe unobserved _).bind ?_
        intro _ _
        obtain ⟨failed, notMissing⟩ := other response rfl
        have notFound : response.status ≠ foundStatus := by
          intro found
          rw [Response.isSuccess, found] at failed
          cases failed
        unfold settleAnswered
        rw [if_neg notFound, if_neg notMissing]
        exact keeps_fail may _

/-- **Every task under custody keeps its contract.** -/
theorem keeps_custody (wet : run.dry = false) (unobserved : run.observer = none)
    (sole : Sole assigns start final) (mirrored : blueprint.Mirrored) (calm : desired.Calm)
    (foreseen : Foreseen assigns start final blueprint lineage desired) :
    (run.reconcile blueprint lineage desired).Keeps (custody assigns start final disturbed)
      fun _ => True := by
  cases foreseen with
  | mk uri fields address held origin declared each =>
      have settles : (run.settle blueprint lineage desired).Keeps
          (custody assigns start final disturbed)
          (· = some (.ofRemote (.ofMap fields) desired.className)) :=
        keeps_settle wet unobserved sole mirrored calm.updates_eq_false address held origin
      refine keeps_reconcile trivial settles ?_ ?_
      · intro settled same _
        cases same
        exact declared
      · intro settled same batch below child _ member
        cases same
        refine ⟨calm_of_offspring calm member rfl, mirrored.of_offspring member, ?_⟩
        rw [below]
        exact each _ member

theorem keeps_fetchBlueprint {type : String}
    (here : start (run.settings.blueprintUri type) = some fields)
    (kept : final (run.settings.blueprintUri type) = some fields)
    (reads : Blueprint.read (.ofMap fields) = .ok blueprint) :
    (run.fetchBlueprint type).Keeps (custody assigns start final disturbed) (· = blueprint) := by
  have asks : (custody assigns start final disturbed).asks
      ⟨.get, run.settings.blueprintUri type, none⟩ := .inl ⟨rfl, rfl⟩
  have lookup : (run.access.get (run.settings.blueprintUri type)).Keeps
      (custody assigns start final disturbed)
      (LookupTold fields (start (run.settings.blueprintUri type) = none) disturbed) :=
    Access.keeps_get asks fun _ => told_of_lookup run.access kept (.inl here)
  refine (keeps_log _).bind fun _ _ => lookup.bind fun result told => ?_
  rcases told with ⟨response, rfl, ⟨status, shows_⟩ | ⟨_, absent⟩⟩ | ⟨may, other⟩
  · have success : response.isSuccess = true := by
      rw [Response.isSuccess, status]
      rfl
    have spelled : response.json? = some (.ofMap fields) := shows_
    simp only [success, spelled, reads, Bool.not_true, Bool.false_eq_true, if_false]
    exact .pure_eq _
  · cases here.symm.trans absent
  · cases result with
    | error failure => exact keeps_fail may _
    | ok response =>
        simp only [(other response rfl).1, Bool.not_false, if_true]
        exact keeps_fail may _

/-- A document whose entities are foreseen keeps its contract. -/
theorem keeps_document_custody (wet : run.dry = false) (unobserved : run.observer = none)
    (sole : Sole assigns start final) {type text : String} {nodes : List Json}
    {config : NameMap Json} (free : Document.FreeOfUpdates text) (mirrored : blueprint.Mirrored)
    (spelled : Document.nodes? text = some nodes)
    (foresees : ForeseesDocument assigns start final (run.settings.blueprintUri type) config
      blueprint (Document.entities (blueprint.rootClassName type) nodes)) :
    (run.document type text).Keeps (custody assigns start final disturbed) fun _ => True := by
  refine keeps_document (fun _ => unobserved)
    (keeps_fetchBlueprint foresees.found foresees.kept foresees.reads) (fun _ => ?_) ?_
  · rw [spelled]
    rfl
  · intro fetched same others also root member
    cases same
    cases spelled.symm.trans also
    exact keeps_custody wet unobserved sole mirrored (.of_entities (free nodes spelled) member)
      (foresees.each root member)

/-! ## Stores on the way -/

/-- Each path holds what the one or the other store holds. -/
def Between (start final store : String → Held) : Prop :=
  ∀ path, store path = start path ∨ store path = final path

/-- The answers are those of a store; if requests may be disturbed, other exchanges may come back
whether the store applied the request or not. -/
def Answering.Keeps (answering : Answering Held) (assigns : String → String → Prop)
    (disturbed : Prop) : Prop :=
  ∀ ⦃request : Request⦄ ⦃held : Held⦄ ⦃exchange : Exchange⦄ ⦃next : Held⦄,
    answering request held exchange next →
      Stored assigns request held exchange next ∨ disturbed ∧ exchange.Troubled ∧
        (next = held ∨ ∃ answer, Stored assigns request held answer next)

theorem keeps_stored : Answering.Keeps (Stored assigns) assigns False := fun _ _ _ _ => .inl

theorem keeps_disturbed : Answering.Keeps (Disturbed assigns) assigns True := by
  intro request held exchange next disturbed
  cases disturbed with
  | answered stored => exact .inl stored
  | before troubled => exact .inr ⟨trivial, troubled, .inl rfl⟩
  | after troubled stored => exact .inr ⟨trivial, troubled, .inr ⟨_, stored⟩⟩

/-- A request that is allowed leaves its path as it is, or as it will be held. -/
theorem next_of_stored (sole : Sole assigns start final) {request : Request}
    {held next : Held} {exchange : Exchange}
    (asks : (custody assigns start final disturbed).asks request)
    (stored : Stored assigns request held exchange next) :
    next = held ∨ next = final request.path := by
  obtain ⟨method, path, body⟩ := request
  rcases asks with ⟨rfl, rfl⟩ | ⟨absent, _, sent, object, rfl, completes, kept⟩
  · exact .inl stored.of_get.1
  · obtain ⟨other, another, _, body, also, rfl, _⟩ := stored.of_write
    obtain rfl := Json.ofMap_inj body
    have present : final path ≠ none := by
      rw [kept]
      exact Option.some_ne_none object
    have same := completes.unique (fun uuid one => sole path uuid one absent present) also
    exact .inr (same ▸ kept.symm)

/-- **One request under custody.** Its answer may be relied on, and the store stays between. -/
theorem custody_step (sole : Sole assigns start final) {answering : Answering Held}
    (serves : Answering.Keeps answering assigns disturbed) {store : String → Held}
    (between : Between start final store) {call : Call} {next : Held}
    (asks : (custody assigns start final disturbed).asks call.request)
    (answers : answering call.request (store call.request.path) call.exchange next) :
    (custody assigns start final disturbed).hears call.request call.exchange ∧
      Between start final (Function.update store call.request.path next) := by
  have known : next = store call.request.path ∨ next = final call.request.path := by
    rcases serves answers with stored | ⟨_, _, same | ⟨_, stored⟩⟩
    · exact next_of_stored sole asks stored
    · exact .inl same
    · exact next_of_stored sole asks stored
  constructor
  · rcases serves answers with stored | ⟨may, troubled, _⟩
    · exact .inl ⟨_, next, between call.request.path, stored⟩
    · exact .inr ⟨may, troubled⟩
  · intro path
    by_cases here : path = call.request.path
    · subst here
      rw [Function.update_self]
      rcases known with same | last
      · rw [same]
        exact between call.request.path
      · exact .inr last
    · rw [Function.update_of_ne here]
      exact between path

/-- **A run under custody**, as far as it has come. -/
theorem custody_run (sole : Sole assigns start final) {answering : Answering Held}
    (serves : Answering.Keeps answering assigns disturbed) {events : List Event}
    (allowed : ∀ before event later, events = before ++ event :: later →
      (∀ earlier ∈ before, (custody assigns start final disturbed).Fine earlier) →
      (custody assigns start final disturbed).Allowed event)
    (patient : ¬ disturbed → .gaveUp ∉ events) {last : String → Held} :
    ∀ {rest before : List Event} {store : String → Held}, events = before ++ rest →
      (∀ earlier ∈ before, (custody assigns start final disturbed).Fine earlier) →
      Between start final store → Served answering store (calls rest) last →
      (∀ event ∈ events, (custody assigns start final disturbed).Fine event) ∧
        Between start final last := by
  intro rest
  induction rest with
  | nil =>
      intro before store whole fine between served
      cases served
      rw [List.append_nil] at whole
      exact ⟨whole ▸ fine, between⟩
  | cons event rest ih =>
      intro before store whole fine between served
      have onward : (custody assigns start final disturbed).Fine event →
          ∀ {store : String → Held}, Between start final store →
          Served answering store (calls rest) last → _ := fun here store between served =>
        @ih (before ++ [event]) store (by rw [whole, List.append_assoc]; rfl)
          (List.forall_mem_append.mpr ⟨fine, List.forall_mem_singleton.mpr here⟩) between served
      cases event with
      | called call =>
          have asks : (custody assigns start final disturbed).asks call.request :=
            allowed before _ rest whole fine
          rw [calls_cons] at served
          cases served with
          | cons _ next answers served =>
              obtain ⟨hears, kept⟩ := custody_step sole serves between asks answers
              exact onward hears kept served
      | gaveUp =>
          have lax : (custody assigns start final disturbed).Fine .gaveUp := fun strict =>
            patient strict (whole ▸ List.mem_append_right _ List.mem_cons_self)
          exact onward lax between served
      | told notice => exact onward trivial between served
      | remembered session entity => exact onward trivial between served
      | recalled session entity known => exact onward trivial between served

/-- **The run of a document under custody.** What it has done could be relied on and was allowed,
the store is between the two, and a task that has ended has ended as promised. -/
theorem document_under_custody (wet : run.dry = false) (unobserved : run.observer = none)
    (sole : Sole assigns start final) {type text : String} {nodes : List Json}
    {config : NameMap Json} (free : Document.FreeOfUpdates text) (mirrored : blueprint.Mirrored)
    (spelled : Document.nodes? text = some nodes)
    (foresees : ForeseesDocument assigns start final (run.settings.blueprintUri type) config
      blueprint (Document.entities (blueprint.rootClassName type) nodes))
    {answering : Answering Held} (serves : Answering.Keeps answering assigns disturbed)
    {events : List Event} {stage : Stage ChildTask (List Entity)} {store last : String → Held}
    (steps : Stage.Steps run (.active (run.document type text)) events stage)
    (patient : ¬ disturbed → .gaveUp ∉ events) (between : Between start final store)
    (served : Served answering store (calls events) last) :
    (∀ event ∈ events, (custody assigns start final disturbed).Fine event) ∧
      (∀ event ∈ events, (custody assigns start final disturbed).Allowed event) ∧
      Between start final last ∧
      ∀ outcome, stage.outcome? = some outcome →
        (Plan.done outcome).Keeps (custody assigns start final disturbed) fun _ => True := by
  obtain ⟨course, takes, orders⟩ := steps.takes
  have keeps :
      (run.document type text).Keeps (custody assigns start final disturbed) fun _ => True :=
    keeps_document_custody wet unobserved sole free mirrored spelled foresees
  have tasks : ∀ group child, (custody assigns start final disturbed).accepts group child →
      (run.childTask group child).Keeps (custody assigns start final disturbed) fun _ => True :=
    fun group child accepted =>
      keeps_custody wet unobserved sole accepted.2.1 accepted.1 accepted.2.2
  have allowed : ∀ before event later, events = before ++ event :: later →
      (∀ earlier ∈ before, (custody assigns start final disturbed).Fine earlier) →
      (custody assigns start final disturbed).Allowed event := by
    rintro before event later rfl fine
    exact takes.allowed tasks keeps orders fine
  obtain ⟨fine, left⟩ := custody_run sole serves allowed patient (List.nil_append events).symm
    (List.forall_mem_nil _) between served
  refine ⟨fine, fun event member => ?_, left, fun outcome ended => ?_⟩
  · obtain ⟨before, later, rfl⟩ := List.append_of_mem member
    apply allowed before event later rfl
    intro earlier here
    exact fine earlier (List.mem_append_left _ here)
  · exact takes.ends tasks ended keeps fun event member =>
      fine event (orders.perm_inTurn.mem_iff.mpr member)

end Run

end DesiredState
