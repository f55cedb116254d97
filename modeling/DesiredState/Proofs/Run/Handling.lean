import DesiredState.Proofs.Blueprint.Ordered
import DesiredState.Proofs.Run.Own

/-!
# What a handled entity and its descendants have done

The handling of an entity that ends well has a fixed form: the entity is begun and settled, it
is remembered, and then one batch after another forks into the handling of its children
(`Handles`). The inversion is done once (`takes_reconcile`, `takes_roots`, `takes_document`);
what holds of a completed run is proved from it by induction on the handling.
-/

set_option autoImplicit false

namespace DesiredState

/-! ## Broods -/

/-- The children of an entity with their blueprints, batch after batch. -/
def Blueprint.offspring (blueprint : Blueprint) (parent : Entity) : List (Blueprint × Entity) :=
  blueprint.childTypes.flatMap fun declared =>
    (Document.entities (Run.childClassName parent declared.1 declared.2)
      ((parent.children.find? declared.1).getD [])).map (declared.2, ·)

/-- The handling of one child, which ended well. -/
structure Branch where
  blueprint : Blueprint
  child : Entity
  course : Course
  result : Option Entity

/-- The batches one after another. -/
def Course.forks (broods : List (List Branch)) : Course :=
  broods.foldr (fun brood rest => .fork (brood.map (·.course)) rest) .idle

/-- The courses of roots one after another. -/
def Course.chain (branches : List Branch) : Course :=
  branches.foldr (fun branch rest => branch.course.append rest) .idle

theorem Course.forks_append (broods others : List (List Branch)) :
    Course.forks (broods ++ others) = (Course.forks broods).append (Course.forks others) := by
  induction broods with
  | nil => rfl
  | cons brood broods ih => exact congrArg (Course.fork _) ih

@[simp] theorem Course.inTurn_forks (broods : List (List Branch)) :
    (Course.forks broods).inTurn = broods.flatten.flatMap fun branch => branch.course.inTurn := by
  induction broods with
  | nil => rfl
  | cons brood broods ih =>
      change Course.allInTurn _ ++ (Course.forks broods).inTurn = _
      rw [ih, Course.allInTurn_eq_flatMap, List.flatten_cons, List.flatMap_append, List.flatMap_map]

@[simp] theorem Course.inTurn_chain (branches : List Branch) :
    (Course.chain branches).inTurn = branches.flatMap fun branch => branch.course.inTurn := by
  induction branches with
  | nil => rfl
  | cons branch branches ih =>
      rw [List.flatMap_cons, ← ih]
      exact Course.inTurn_append _ branch.course

namespace Run

/-! ## The form of a handling -/

/-- The entity has been handled with the course, and nobody failed. -/
inductive Handles (run : Run) : Blueprint → Lineage → Entity → Course → Option Entity → Prop
  /-- The create was rejected and skipped. -/
  | skipped {blueprint : Blueprint} {lineage : Lineage} {desired : Entity} (own : List Event)
      (alone : visits own = []) (calm : .gaveUp ∉ own)
      (settles : (run.settle blueprint lineage desired).Sends (calls own) none) :
      Handles run blueprint lineage desired
        (.act (.told (.begun ⟨blueprint, lineage, desired⟩)) (.ofEvents own .idle)) none
  | settled {blueprint : Blueprint} {lineage : Lineage} {desired : Entity} (own : List Event)
      (settled : Entity) (broods : List (List Branch)) (alone : visits own = [])
      (calm : .gaveUp ∉ own)
      (settles : (run.settle blueprint lineage desired).Sends (calls own) (some settled))
      (declared : undeclared? blueprint { settled with children := desired.children } = none)
      (whole : broods.flatten.map (fun branch => (branch.blueprint, branch.child))
        = blueprint.offspring { settled with children := desired.children })
      (each : ∀ branch ∈ broods.flatten, Handles run branch.blueprint
        (lineage.insert desired.type { settled with children := desired.children })
        branch.child branch.course branch.result) :
      Handles run blueprint lineage desired
        (.act (.told (.begun ⟨blueprint, lineage, desired⟩))
          (.ofEvents own (.act (.remembered run.session settled) (.forks broods))))
        (some { settled with children := desired.children })

variable {run : Run} {course : Course}

/-! ## Batches -/

/-- A member that contributes no failure has ended with a value. -/
theorem value_of_failure?_eq_none {part : Part} (through : part.outcome.isSome)
    (fine : part.failure? = none) : ∃ result, part.outcome = some (.value result) := by
  obtain ⟨child, course, outcome⟩ := part
  cases outcome with
  | none => simp at through
  | some outcome =>
      cases outcome with
      | value result => exact ⟨result, rfl⟩
      | failed failure => simp [Part.failure?, Outcome.forget, Crew.failureOf] at fine
      | broken cause => simp [Part.failure?, Outcome.forget, Crew.failureOf] at fine

/-- A batch that goes on without failures has handled all its children. -/
theorem branches_of_parts (blueprint : Blueprint) :
    ∀ {parts : List Part}, (∀ part ∈ parts, part.outcome.isSome) →
      parts.filterMap Part.failure? = [] →
      ∃ brood : List Branch, brood.map (·.course) = parts.map (·.course) ∧
        brood.map (fun branch => (branch.blueprint, branch.child))
          = parts.map (fun part => (blueprint, part.child)) ∧
        ∀ branch ∈ brood, branch.blueprint = blueprint ∧
          ⟨branch.child, branch.course, some (.value branch.result)⟩ ∈ parts
  | [], _, _ => ⟨[], rfl, rfl, List.forall_mem_nil _⟩
  | part :: parts, through, fine => by
      obtain ⟨here, there⟩ := List.forall_mem_cons.mp through
      rw [List.filterMap_eq_nil_iff] at fine
      obtain ⟨first, others⟩ := List.forall_mem_cons.mp fine
      obtain ⟨result, ended⟩ := value_of_failure?_eq_none here first
      obtain ⟨brood, courses, children, members⟩ :=
        branches_of_parts blueprint there (List.filterMap_eq_nil_iff.mpr others)
      refine ⟨⟨blueprint, part.child, part.course, result⟩ :: brood, by simp [courses],
        by simp [children], List.forall_mem_cons.mpr ⟨⟨rfl, ?_⟩, fun branch member =>
          ⟨(members branch member).1, List.mem_cons_of_mem _ (members branch member).2⟩⟩⟩
      rw [← ended]
      exact List.mem_cons_self

/-- A plan that forks into broods, whose branches are handled under the lineage. -/
def Breeds (run : Run) (lineage : Lineage) (children : List (Blueprint × Entity))
    (course : Course) : Prop :=
  ∃ broods : List (List Branch), course = .forks broods ∧
    broods.flatten.map (fun branch => (branch.blueprint, branch.child)) = children ∧
    ∀ branch ∈ broods.flatten,
      (run.reconcile branch.blueprint lineage branch.child).Takes run branch.course
        (some (.value branch.result))

theorem Breeds.none (run : Run) (lineage : Lineage) : Breeds run lineage [] .idle :=
  ⟨[], rfl, rfl, List.forall_mem_nil _⟩

theorem Breeds.append {lineage : Lineage} {first second : List (Blueprint × Entity)}
    {before after : Course} (left : Breeds run lineage first before)
    (right : Breeds run lineage second after) :
    Breeds run lineage (first ++ second) (before.append after) := by
  obtain ⟨broods, rfl, whole, each⟩ := left
  obtain ⟨others, rfl, also, every⟩ := right
  refine ⟨broods ++ others, (Course.forks_append broods others).symm, ?_, ?_⟩
  · rw [List.flatten_append, List.map_append, whole, also]
  · rw [List.flatten_append]
    exact List.forall_mem_append.mpr ⟨each, every⟩

/-- A batch that ends well has handled its children, if there are any. -/
theorem takes_children {batch : Batch}
    (takes : (run.children batch).Takes run course (some (.value ()))) :
    Breeds run batch.lineage (batch.children.map (batch.blueprint, ·)) course := by
  unfold children at takes
  split at takes
  · rename_i nobody
    obtain ⟨rfl, _⟩ := takes.of_done
    rw [List.isEmpty_iff.mp nobody]
    exact Breeds.none run _
  · rename_i somebody
    obtain ⟨result, first, second, rfl, before, after⟩ := takes.of_log_bind.of_bind
    cases before with
    | skip _ _ nobody => exact absurd (List.isEmpty_iff.mpr nobody) somebody
    | join _ _ parts failures whole each through told ended =>
        obtain ⟨rfl, same⟩ := ended.of_done
        cases same
        have nothing : failures = [] := by
          cases failures with
          | nil => rfl
          | cons failure failures => nomatch after
        obtain rfl := nothing
        obtain ⟨rfl, _⟩ := after.of_done
        obtain ⟨brood, courses, children, members⟩ :=
          branches_of_parts batch.blueprint through (List.nil_perm.mp told)
        refine ⟨[brood], ?_, ?_, ?_⟩
        · rw [← courses]
          rfl
        · rw [← whole, List.map_map, List.flatten_singleton]
          exact children
        · intro branch member
          rw [List.flatten_singleton] at member
          obtain ⟨same, inside⟩ := members branch member
          rw [same]
          exact each _ inside
    | giveUp _ _ parts failures whole each ended =>
        obtain ⟨rfl, same⟩ := ended.of_done
        cases same
        nomatch after

/-! ## Descending -/

theorem takes_forEach {ι : Type} {action : ι → Plan Unit} {lineage : Lineage}
    {children : ι → List (Blueprint × Entity)}
    (each : ∀ item course, (action item).Takes run course (some (.value ())) →
      Breeds run lineage (children item) course) :
    ∀ {items : List ι} {course : Course},
      (Plan.forEach action items).Takes run course (some (.value ())) →
      Breeds run lineage (items.flatMap children) course
  | [], course, takes => by
      obtain ⟨rfl, _⟩ := takes.of_done
      exact Breeds.none run lineage
  | item :: items, course, takes => by
      obtain ⟨_, first, second, rfl, before, after⟩ := takes.of_bind
      exact (each item first before).append (takes_forEach each after)

theorem solitary_logSkipped {recalls : Prop} (className : String) (nodes : List Json) :
    (logSkipped className nodes).Solitary recalls := by
  unfold logSkipped
  induction Document.skipped nodes with
  | nil => exact .pure ()
  | cons node skipped ih => exact ih

/-- Skipped nodes are logged and nothing else. -/
theorem takes_logSkipped {className : String} {nodes : List Json}
    (takes : (logSkipped className nodes).Takes run course (some (.value ()))) :
    course = .idle := by
  unfold logSkipped at takes
  generalize Document.skipped nodes = skipped at takes
  induction skipped generalizing course with
  | nil => exact takes.of_done.1
  | cons node skipped ih => exact ih takes.of_log_bind

theorem takes_childrenOfType {parent : Entity} {lineage : Lineage} {declared : String × Blueprint}
    (takes : (run.childrenOfType parent lineage declared).Takes run course (some (.value ()))) :
    Breeds run lineage
      ((Document.entities (childClassName parent declared.1 declared.2)
        ((parent.children.find? declared.1).getD [])).map (declared.2, ·)) course := by
  unfold childrenOfType at takes
  split at takes
  · rename_i absent
    obtain ⟨rfl, _⟩ := takes.of_done
    rw [absent]
    exact Breeds.none run lineage
  · rename_i absent
    obtain ⟨rfl, _⟩ := takes.of_done
    rw [absent]
    exact Breeds.none run lineage
  · rename_i nodes _ present
    obtain ⟨_, first, second, rfl, before, after⟩ := takes.of_bind
    rw [takes_logSkipped before, present]
    exact takes_children after

theorem takes_descend {blueprint : Blueprint} {parent : Entity} {lineage : Lineage}
    (takes : (run.descend blueprint parent lineage).Takes run course (some (.value ()))) :
    undeclared? blueprint parent = none ∧
      Breeds run lineage (blueprint.offspring parent) course := by
  unfold descend at takes
  split at takes
  · nomatch takes
  · rename_i declared
    exact ⟨declared, takes_forEach (fun item course => takes_childrenOfType) takes⟩

/-! ## The inversion -/

/-- An entity without children has no nodes of any type. -/
theorem nodes_eq_nil {parent : Entity} (childless : parent.hasChildren = false) (type : String) :
    (parent.children.find? type).getD [] = [] := by
  cases found : parent.children.find? type with
  | none => rfl
  | some nodes =>
      have entry := List.any_eq_false.mp childless _ (mem_of_lookupEntry found)
      simpa using entry

/-- An entity without children has no offspring. -/
theorem offspring_eq_nil {parent : Entity} (childless : parent.hasChildren = false)
    (blueprint : Blueprint) : blueprint.offspring parent = [] := by
  refine List.flatMap_eq_nil_iff.mpr ?_
  intro declared _
  rw [nodes_eq_nil childless]
  rfl

/-- Nothing is undeclared where nothing is given. -/
theorem undeclared?_eq_none {parent : Entity} (childless : parent.hasChildren = false)
    (blueprint : Blueprint) : undeclared? blueprint parent = none := by
  rw [undeclared?, Option.map_eq_none_iff, List.find?_eq_none]
  intro entry member
  have empty := List.any_eq_false.mp childless entry member
  simp_all

/-- A branch is shorter than the whole. -/
theorem length_branch_le {broods : List (List Branch)} {branch : Branch}
    (member : branch ∈ broods.flatten) :
    branch.course.inTurn.length ≤ (Course.forks broods).inTurn.length := by
  rw [Course.inTurn_forks, List.flatMap_def]
  have inside : branch.course.inTurn
      ∈ broods.flatten.map fun branch => branch.course.inTurn := List.mem_map_of_mem member
  exact (List.sublist_flatten_of_mem inside).length_le

/-- The part of a handling that comes after the entity is in place. -/
theorem takes_offspring {blueprint : Blueprint} {lineage : Lineage} {entity : Entity}
    {result : Option Entity}
    (takes : Plan.Takes run (do
      if entity.hasChildren then run.descend blueprint entity lineage
      pure (some entity)) course (some (.value result))) :
    result = some entity ∧ undeclared? blueprint entity = none ∧
      Breeds run lineage (blueprint.offspring entity) course := by
  split at takes
  · obtain ⟨_, first, second, rfl, before, after⟩ := takes.of_bind
    obtain ⟨rfl, same⟩ := after.of_done
    cases same
    rw [Course.append_idle]
    exact ⟨rfl, takes_descend before⟩
  · rename_i childless
    have childless : entity.hasChildren = false := by simpa using childless
    obtain ⟨rfl, same⟩ := takes.of_done
    cases same
    rw [offspring_eq_nil childless]
    exact ⟨rfl, undeclared?_eq_none childless blueprint, Breeds.none run lineage⟩

/-- **The form of a completed handling.** -/
theorem takes_reconcile {blueprint : Blueprint} {lineage : Lineage} {desired : Entity}
    {result : Option Entity}
    (takes : (run.reconcile blueprint lineage desired).Takes run course (some (.value result))) :
    Handles run blueprint lineage desired course result := by
  obtain ⟨bound, enough⟩ : ∃ bound, course.inTurn.length < bound := ⟨_, Nat.lt_succ_self _⟩
  induction bound generalizing blueprint lineage desired course result with
  | zero => omega
  | succ bound ih =>
      obtain ⟨rest, rfl, later⟩ := takes.of_tell_bind
      obtain ⟨settled, first, second, rfl, before, after⟩ := later.of_bind
      obtain ⟨own, rfl, alone, calm, settles⟩ := before.sends (solitary_settle desired)
      cases settled with
      | none =>
          obtain ⟨rfl, same⟩ := after.of_done
          cases same
          rw [Course.ofEvents_append]
          exact .skipped own alone calm settles
      | some settled =>
          obtain ⟨others, rfl, goesOn⟩ := after.of_remember_bind
          obtain ⟨ends, declared, broods, rfl, whole, each⟩ := takes_offspring goesOn
          cases ends
          rw [Course.ofEvents_append]
          refine .settled own settled broods alone calm settles declared whole ?_
          intro branch member
          refine ih (each branch member) ?_
          have shorter := length_branch_le member
          simp only [Event.ofNotice?, Course.after, Course.ofEvents_append, Course.inTurn,
            Course.idle_append, Course.inTurn_ofEvents, List.length_cons,
            List.length_append] at enough
          omega

/-- The roots of a document are handled in order. -/
theorem takes_roots {blueprint : Blueprint} :
    ∀ {entities results : List Entity} {course : Course},
      (run.roots blueprint entities).Takes run course (some (.value results)) →
      ∃ branches : List Branch, course = .chain branches ∧
        branches.map (·.child) = entities ∧ results = branches.filterMap (·.result) ∧
        ∀ branch ∈ branches,
          Handles run blueprint .empty branch.child branch.course branch.result
  | [], results, course, takes => by
      obtain ⟨rfl, same⟩ := takes.of_done
      cases same
      exact ⟨[], rfl, rfl, rfl, List.forall_mem_nil _⟩
  | root :: entities, results, course, takes => by
      obtain ⟨result, first, rest, rfl, handled, later⟩ := takes.of_bind
      obtain ⟨others, second, third, rfl, following, last⟩ := later.of_bind
      obtain ⟨rfl, same⟩ := last.of_done
      cases same
      obtain ⟨branches, rfl, rfl, rfl, each⟩ := takes_roots following
      refine ⟨⟨blueprint, root, first, result⟩ :: branches, by simp [Course.chain], rfl, ?_,
        List.forall_mem_cons.mpr ⟨takes_reconcile handled, each⟩⟩
      cases result <;> rfl

/-! ## Documents -/

/-- The answer to the request for a blueprint, as it was decoded. -/
def Fetches (run : Run) (type : String) (sent : List Call) (blueprint : Blueprint) : Prop :=
  ∃ response value,
    sent = [⟨⟨.get, run.settings.blueprintUri type, none⟩, .answered response⟩] ∧
    response.isSuccess ∧ response.json? = some value ∧ Blueprint.read value = .ok blueprint

/-- A fetched blueprint declares each child type once. -/
theorem Fetches.ordered {type : String} {sent : List Call} {blueprint : Blueprint}
    (fetches : Fetches run type sent blueprint) : blueprint.Ordered := by
  obtain ⟨_, _, _, _, _, reads⟩ := fetches
  exact Blueprint.read_ordered reads

theorem solitary_fetchBlueprint {recalls : Prop} (type : String) :
    (run.fetchBlueprint type).Solitary recalls := by
  refine (Plan.Solitary.log _).bind fun _ => (Access.solitary_get _).bind fun result => ?_
  cases result with
  | error failure => exact .fail _
  | ok response =>
      simp only
      split
      · exact .fail _
      · split
        · exact .fail _
        · split
          · exact .pure _
          · exact .fail _

theorem sends_fetchBlueprint {type : String} {sent : List Call} {blueprint : Blueprint}
    (sends : (run.fetchBlueprint type).Sends sent blueprint) : Fetches run type sent blueprint := by
  obtain ⟨result, first, second, rfl, gets, goesOn⟩ :=
    Plan.sends_bind.mp (Plan.sends_log_bind.mp sends)
  obtain ⟨exchange, rfl, told⟩ := Access.sends_get.mp gets
  cases exchange with
  | lost cause =>
      rw [told] at goesOn
      exact goesOn.elim
  | answered response =>
      rw [told] at goesOn
      simp only [Access.received] at goesOn
      split at goesOn
      · exact goesOn.elim
      · rename_i success
        split at goesOn
        · exact goesOn.elim
        · rename_i value spelled
          split at goesOn
          · rename_i blueprint' reads
            obtain ⟨rfl, rfl⟩ := goesOn
            exact ⟨response, value, rfl, by simpa using success, spelled, reads⟩
          · exact goesOn.elim

theorem takes_readDocument {className text : String} {entities : List Entity}
    (takes : (readDocument className text).Takes run course (some (.value entities))) :
    ∃ nodes, Document.nodes? text = some nodes ∧
      entities = Document.entities className nodes ∧ course = .idle := by
  unfold readDocument at takes
  split at takes
  · nomatch takes
  · rename_i nodes spelled
    obtain ⟨_, _, _, rfl, skips, rest⟩ := takes.of_bind
    obtain ⟨rfl, same⟩ := rest.of_done
    cases same
    exact ⟨nodes, spelled, rfl, by rw [takes_logSkipped skips]; rfl⟩

/-- **The form of a completed document.** -/
theorem takes_document {type text : String} {results : List Entity}
    (takes : (run.document type text).Takes run course (some (.value results))) :
    ∃ own nodes blueprint, ∃ branches : List Branch,
      course = .ofEvents own (.chain branches) ∧ visits own = [] ∧ .gaveUp ∉ own ∧
      Document.nodes? text = some nodes ∧ Fetches run type (calls own) blueprint ∧
      branches.map (·.child) = Document.entities (blueprint.rootClassName type) nodes ∧
      results = branches.filterMap (·.result) ∧
      ∀ branch ∈ branches,
        Handles run blueprint .empty branch.child branch.course branch.result := by
  obtain ⟨_, _, _, rfl, observes, fetching⟩ := takes.of_bind
  obtain ⟨first, rfl, nobody, calm, none⟩ :=
    observes.sends (solitary_observe _ : Plan.Solitary False _)
  obtain ⟨blueprint, _, _, rfl, fetches, observing⟩ := fetching.of_bind
  obtain ⟨second, rfl, noOne, patient, fetched⟩ := fetches.sends
    (solitary_fetchBlueprint type : Plan.Solitary False _)
  obtain ⟨_, _, _, rfl, observed, reading⟩ := observing.of_bind
  obtain ⟨third, rfl, neither, quiet, nothing⟩ :=
    observed.sends (solitary_observe _ : Plan.Solitary False _)
  obtain ⟨entities, _, _, rfl, reads, rest⟩ := reading.of_bind
  obtain ⟨nodes, spelled, rfl, rfl⟩ := takes_readDocument reads
  obtain ⟨branches, rfl, whole, results, each⟩ := takes_roots rest.of_log_bind
  refine ⟨first ++ second ++ third, nodes, blueprint, branches, ?_, ?_, ?_, spelled, ?_, whole,
    results, each⟩
  · simp [Course.ofEvents_of_append]
  · simp [nobody, noOne, neither]
  · simp [calm, patient, quiet]
  · rw [calls_append, calls_append, sends_observe none, sends_observe nothing, List.nil_append,
      List.append_nil]
    exact sends_fetchBlueprint fetched

/-! ## Patience -/

/-- An entity that has been handled has given up no batch. -/
theorem Handles.patient {blueprint : Blueprint} {lineage : Lineage} {desired : Entity}
    {result : Option Entity} (handles : Handles run blueprint lineage desired course result) :
    .gaveUp ∉ course.inTurn := by
  induction handles with
  | skipped own _ calm _ => simpa using calm
  | settled own settled broods _ calm _ _ _ _ ih =>
      rw [Course.inTurn_act, Course.inTurn_ofEvents, Course.inTurn_act, Course.inTurn_forks]
      intro gave
      rcases List.mem_cons.mp gave with begun | later
      · nomatch begun
      · rcases List.mem_append.mp later with mine | below
        · exact calm mine
        · rcases List.mem_cons.mp below with remembered | inside
          · nomatch remembered
          · obtain ⟨branch, member, within⟩ := List.mem_flatMap.mp inside
            exact ih branch member within

/-- **A document that succeeds has given up no batch.** -/
theorem patient_of_takes {type text : String} {results : List Entity}
    (takes : (run.document type text).Takes run course (some (.value results))) :
    .gaveUp ∉ course.inTurn := by
  obtain ⟨own, _, _, branches, rfl, _, calm, _, _, _, _, each⟩ := takes_document takes
  rw [Course.inTurn_ofEvents, Course.inTurn_chain]
  intro gave
  rcases List.mem_append.mp gave with mine | inside
  · exact calm mine
  · obtain ⟨branch, member, within⟩ := List.mem_flatMap.mp inside
    exact (each branch member).patient within

end Run

end DesiredState
