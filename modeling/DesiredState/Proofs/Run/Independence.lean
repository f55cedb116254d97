import DesiredState.Proofs.Plan.Alike
import DesiredState.Proofs.Run.Record

/-!
# The outcome does not depend on the order of a run

Two runs of a document may put the steps of its tasks in different orders, and may admit
different numbers of children at once. When requests of different entities go to different
paths, the API answers by what happened at a path before, no batch is given up and no entity is
flagged for an update, both runs send the same requests, leave the API in the same state, begin
the same roots and end alike.

**Why.** Nothing that one child learns is seen by its siblings: each has a lineage of its own,
and what is remembered is asked for only by updates. So alike tasks force each other
(`Plan.Alike.determines`), and a member of a batch may be taken before the next one
(`Course.Apart.served_inTurn`).
-/

set_option autoImplicit false

namespace DesiredState

/-! ## Runs that admit different numbers of children -/

namespace Run

/-- The run with another limit on the children that are handled at once. -/
def withConcurrency (run : Run) (concurrency : Nat) : Run :=
  { run with settings := { run.settings with concurrency } }

section Concurrency

variable (run : Run) (concurrency : Nat)

theorem label_withConcurrency : (run.withConcurrency concurrency).label = run.label := rfl

theorem access_withConcurrency : (run.withConcurrency concurrency).access = run.access := rfl

theorem session_withConcurrency : (run.withConcurrency concurrency).session = run.session := rfl

theorem dry_withConcurrency : (run.withConcurrency concurrency).dry = run.dry := rfl

theorem observe_withConcurrency : (run.withConcurrency concurrency).observe = run.observe := rfl

theorem callFailure_withConcurrency :
    (run.withConcurrency concurrency).callFailure = run.callFailure := rfl

theorem submitCreate_withConcurrency :
    (run.withConcurrency concurrency).submitCreate = run.submitCreate := by
  funext blueprint lineage entity uri
  have recovers : (run.withConcurrency concurrency).recover = run.recover := rfl
  unfold submitCreate
  rw [label_withConcurrency, access_withConcurrency, observe_withConcurrency,
    callFailure_withConcurrency, recovers]

theorem create_withConcurrency : (run.withConcurrency concurrency).create = run.create := by
  funext blueprint lineage desired
  have prepares : (run.withConcurrency concurrency).prepare = run.prepare := rfl
  unfold create
  rw [dry_withConcurrency, observe_withConcurrency, prepares, submitCreate_withConcurrency]

theorem settleExisting_withConcurrency :
    (run.withConcurrency concurrency).settleExisting = run.settleExisting := by
  funext blueprint lineage desired remote uri
  have updates : (run.withConcurrency concurrency).update = run.update := rfl
  have substitutes : (run.withConcurrency concurrency).substitute = run.substitute := rfl
  unfold settleExisting
  rw [dry_withConcurrency, label_withConcurrency, session_withConcurrency, updates, substitutes]

/-- The limit does not matter for an entity by itself. -/
theorem settle_withConcurrency : (run.withConcurrency concurrency).settle = run.settle := by
  funext blueprint lineage desired
  unfold settle lookup settleAnswered
  rw [dry_withConcurrency, label_withConcurrency, access_withConcurrency, observe_withConcurrency,
    callFailure_withConcurrency, create_withConcurrency, settleExisting_withConcurrency]

end Concurrency

variable (run : Run) (first second : Nat)

/-- The children of a batch may be any calm entities. -/
def Gentle (_ : Batch) (child : Entity) : Prop := child.Calm

theorem children_alike {batch : Batch} (calm : ∀ child ∈ batch.children, child.Calm) :
    Plan.Alike Gentle ((run.withConcurrency first).children batch)
      ((run.withConcurrency second).children batch) := by
  unfold children
  split
  · exact .of_solitary (.pure _)
  · refine .note rfl (.batch batch calm fun one other alike => ?_)
    obtain ⟨failures, timedOut⟩ := one
    obtain ⟨others, late⟩ := other
    obtain ⟨all, same⟩ := alike
    obtain rfl : timedOut = late := same
    have failed : Failure.Alike
        (.batchFailed batch.type run.label batch.children.length failures timedOut)
        (.batchFailed batch.type run.label batch.children.length others timedOut) :=
      .batch _ _ _ _ all
    cases timedOut with
    | true => exact .note rfl (.done (.failed failed))
    | false =>
        cases failures with
        | nil =>
            obtain rfl : others = [] := List.eq_nil_of_length_eq_zero all.length_eq.symm
            exact .done (.value ())
        | cons failure failures =>
            cases others with
            | nil => nomatch all.length_eq
            | cons other others => exact .done (.failed failed)

/-- One thing after another is done alike if each is. -/
theorem forEach_alike {ι : Type} {accepts : Batch → Entity → Prop} {left right : ι → Plan Unit} :
    ∀ {items : List ι}, (∀ item ∈ items, Plan.Alike accepts (left item) (right item)) →
      Plan.Alike accepts (Plan.forEach left items) (Plan.forEach right items)
  | [], _ => .of_solitary (.pure _)
  | item :: items, each => by
      obtain ⟨first, rest⟩ := List.forall_mem_cons.mp each
      exact first.bind fun _ => forEach_alike rest

theorem descend_alike {blueprint : Blueprint} {parent : Entity} {lineage : Lineage}
    (calm : ∀ child ∈ blueprint.offspring parent, child.2.Calm) :
    Plan.Alike Gentle ((run.withConcurrency first).descend blueprint parent lineage)
      ((run.withConcurrency second).descend blueprint parent lineage) := by
  unfold descend
  split
  · exact .of_solitary (.fail _)
  · refine forEach_alike ?_
    intro declared inTypes
    unfold childrenOfType
    split
    · exact .of_solitary (.pure _)
    · exact .of_solitary (.pure _)
    · rename_i nodes _ present
      refine Plan.Alike.bind (fun _ => ?_) (.of_solitary (solitary_logSkipped _ _))
      refine run.children_alike first second ?_
      intro child member
      refine calm (declared.2, child) (List.mem_flatMap.mpr ⟨declared, inTypes, ?_⟩)
      rw [present]
      exact List.mem_map_of_mem member

/-- **A calm entity is handled alike.** -/
theorem reconcile_alike {blueprint : Blueprint} {lineage : Lineage} {desired : Entity}
    (calm : desired.Calm) :
    Plan.Alike Gentle ((run.withConcurrency first).reconcile blueprint lineage desired)
      ((run.withConcurrency second).reconcile blueprint lineage desired) := by
  refine Plan.Alike.bind (fun _ => Plan.Alike.bind (fun settled => ?_) ?_)
    (.note rfl (.done (.value ())))
  · cases settled with
    | none => exact .of_solitary (.pure _)
    | some settled =>
        refine Plan.Alike.bind (fun _ => ?_) (.remember _ _ (.done (.value ())))
        simp only
        split
        · refine Plan.Alike.bind (fun _ => .of_solitary (.pure _)) ?_
          exact run.descend_alike first second fun child member => calm_of_offspring calm member rfl
        · exact .of_solitary (.pure _)
  · have solitary : (run.settle blueprint lineage desired).Solitary False := by
      simpa only [calm.updates_eq_false, Bool.false_eq_true] using
        (solitary_settle desired : (run.settle blueprint lineage desired).Solitary _)
    rw [settle_withConcurrency, settle_withConcurrency]
    exact .of_solitary solitary

theorem roots_alike {blueprint : Blueprint} :
    ∀ {entities : List Entity}, (∀ entity ∈ entities, entity.Calm) →
      Plan.Alike Gentle ((run.withConcurrency first).roots blueprint entities)
        ((run.withConcurrency second).roots blueprint entities)
  | [], _ => .of_solitary (.pure _)
  | entity :: entities, calm => by
      obtain ⟨here, rest⟩ := List.forall_mem_cons.mp calm
      refine Plan.Alike.bind (fun settled => ?_) (run.reconcile_alike first second here)
      exact Plan.Alike.bind (fun others => .of_solitary (.pure _)) (roots_alike rest)

/-- A document without updates is handled alike. -/
theorem document_alike {type text : String} (free : Document.FreeOfUpdates text) :
    Plan.Alike Gentle ((run.withConcurrency first).document type text)
      ((run.withConcurrency second).document type text) := by
  refine Plan.Alike.bind (fun _ => ?_) (.of_solitary (run.solitary_observe _))
  refine Plan.Alike.bind (fun blueprint => ?_) (.of_solitary (run.solitary_fetchBlueprint type))
  refine Plan.Alike.bind (fun _ => ?_) (.of_solitary (run.solitary_observe _))
  unfold readDocument
  cases spelled : Document.nodes? text with
  | none => exact .of_solitary (.fail _)
  | some nodes =>
      simp only [bind_assoc, pure_bind]
      refine Plan.Alike.bind (fun _ => .note rfl ?_) (.of_solitary (solitary_logSkipped _ _))
      exact run.roots_alike first second fun entity => .of_entities (free nodes spelled)

/-! ## Roots -/

/-- Whether an event begins a root. -/
def beginsRoot : Event → Bool
  | .told (.begun visit) => visit.lineage.isEmpty
  | _ => false

/-- The roots that are begun, in order. -/
def rootsBegun (events : List Event) : List Visit :=
  (visits events).filter (·.lineage.isEmpty)

theorem rootsBegun_eq (events : List Event) :
    rootsBegun events = visits (events.filter beginsRoot) := by
  induction events with
  | nil => rfl
  | cons event events ih =>
      cases event with
      | told notice =>
          cases notice with
          | begun visit =>
              by_cases root : visit.lineage.isEmpty
              · simpa [rootsBegun, beginsRoot, root] using ih
              · simpa [rootsBegun, beginsRoot, root] using ih
          | moment moment => simpa [rootsBegun, beginsRoot] using ih
          | report report => simpa [rootsBegun, beginsRoot] using ih
          | event line => simpa [rootsBegun, beginsRoot] using ih
      | called call => simpa [rootsBegun, beginsRoot] using ih
      | remembered session entity => simpa [rootsBegun, beginsRoot] using ih
      | recalled session entity known => simpa [rootsBegun, beginsRoot] using ih
      | gaveUp => simpa [rootsBegun, beginsRoot] using ih

/-- Entities that may be begun, and batches whose children have ancestors. -/
def sheltered (begins : Visit → Prop) : Contract where
  asks _ := True
  hears _ _ := True
  begins := begins
  accepts group _ := group.lineage.isEmpty = false
  strict := False

theorem isEmpty_insert (lineage : Lineage) (type : String) (entity : Entity) :
    (lineage.insert type entity).isEmpty = false := by
  obtain ⟨entries⟩ := lineage
  cases entries with
  | nil => rfl
  | cons entry entries =>
      simp only [Lineage.insert, Lineage.put, Lineage.isEmpty]
      split <;> rfl

variable {run}

/-- The children of an entity have it as an ancestor. -/
theorem reconcile_sheltered {begins : Visit → Prop} {blueprint : Blueprint} {lineage : Lineage}
    {desired : Entity} (mayBegin : begins ⟨blueprint, lineage, desired⟩) :
    (run.reconcile blueprint lineage desired).Keeps (sheltered begins) fun _ => True := by
  have settles : (run.settle blueprint lineage desired).Keeps (sheltered begins) fun _ => True :=
    (solitary_settle desired).keeps (fun _ => trivial) id
  refine keeps_reconcile mayBegin settles (fun _ _ strict => strict.elim)
    fun settled _ batch below child _ _ => ?_
  change batch.lineage.isEmpty = false
  rw [below]
  exact isEmpty_insert _ _ _

theorem document_sheltered {type text : String} :
    (run.document type text).Keeps (sheltered fun _ => True) fun _ => True :=
  keeps_document (fun strict => strict.elim)
    (Plan.Solitary.keeps (solitary_fetchBlueprint type : Plan.Solitary False _) (fun _ => trivial)
      id)
    (fun strict => strict.elim) fun _ _ _ _ _ _ => reconcile_sheltered trivial

/-- No root is begun by the task of a child that has ancestors. -/
theorem no_root_below {batch : Batch} {child : Entity} (inside : batch.lineage.isEmpty = false)
    {course : Course} {ended : Option (Outcome (Option Entity))}
    (takes : (run.childTask batch child).Takes run course ended) {events : List Event}
    (orders : course.Orders events) : events.filter beginsRoot = [] := by
  refine List.filter_eq_nil_iff.mpr ?_
  intro event member root
  obtain ⟨before, later, rfl⟩ := List.append_of_mem member
  have allowed : (sheltered fun visit => visit.lineage.isEmpty = false).Allowed event := by
    refine takes.allowed (fun group other accepted => reconcile_sheltered accepted)
      (reconcile_sheltered inside) orders fun earlier _ => ?_
    cases earlier with
    | gaveUp => exact id
    | _ => exact trivial
  cases event with
  | told notice =>
      cases notice with
      | begun visit =>
          have below : visit.lineage.isEmpty = false := allowed
          rw [beginsRoot, below] at root
          cases root
      | moment moment => cases root
      | report report => cases root
      | event line => cases root
  | called call => cases root
  | remembered session entity => cases root
  | recalled session entity known => cases root
  | gaveUp => cases root

theorem undisputed_after {keep : Event → Bool} (event : Option Event) {course : Course}
    (undisputed : course.Undisputed keep) : (course.after event).Undisputed keep := by
  cases event with
  | none => exact undisputed
  | some event => exact undisputed

theorem membersUndisputed_of_none {keep : Event → Bool} :
    ∀ {courses : List Course}, (∀ course ∈ courses, course.inTurn.filter keep = [] ∧
      course.Undisputed keep) → Course.MembersUndisputed keep courses
  | [], _ => trivial
  | _ :: _, each => by
      obtain ⟨⟨none, inside⟩, rest⟩ := List.forall_mem_cons.mp each
      exact ⟨.inl none, inside, membersUndisputed_of_none rest⟩

/-- Members of batches that have ancestors do not dispute who begins a root. -/
theorem members_undisputed {group : Batch} {parts : List Part}
    (whole : parts.map (·.child) = group.children)
    (inside : ∀ child ∈ group.children, group.lineage.isEmpty = false)
    (each : ∀ part ∈ parts, (run.childTask group part.child).Takes run part.course part.outcome)
    (below : ∀ part ∈ parts, group.lineage.isEmpty = false →
      part.course.Undisputed beginsRoot) :
    Course.MembersUndisputed beginsRoot (parts.map (·.course)) := by
  refine membersUndisputed_of_none ?_
  intro course member
  obtain ⟨part, inParts, rfl⟩ := List.mem_map.mp member
  have ancestors := inside part.child (whole ▸ List.mem_map_of_mem inParts)
  exact ⟨no_root_below ancestors (each part inParts) (Course.orders_inTurn _),
    below part inParts ancestors⟩

/-- Roots are begun in one order only. -/
theorem undisputed_roots {α : Type} {plan : Plan α} {course : Course}
    {ended : Option (Outcome α)} (takes : plan.Takes run course ended) :
    ∀ {begins : Visit → Prop} {promise : α → Prop}, plan.Keeps (sheltered begins) promise →
      course.Undisputed beginsRoot := by
  induction takes with
  | pause plan => exact fun _ => trivial
  | done outcome => exact fun _ => trivial
  | call request exchange next _ ih => exact fun keeps => ih (keeps.2 exchange trivial)
  | note notice next _ ih => exact fun keeps => undisputed_after _ (ih keeps.of_note)
  | remember session entity next _ ih =>
      intro begins promise keeps
      exact (ih keeps : Course.Undisputed beginsRoot _)
  | «recall» session entity known next _ ih =>
      intro begins promise keeps
      exact (ih (keeps known) : Course.Undisputed beginsRoot _)
  | skip group next nobody _ ih => exact fun keeps => ih (keeps.2 _ fun _ => rfl)
  | fork group next parts whole each each_ih =>
      intro begins promise keeps
      refine ⟨members_undisputed whole keeps.1 each fun part member inside => ?_, trivial⟩
      exact each_ih part member (reconcile_sheltered inside :
        Plan.Keeps (sheltered fun visit => visit.lineage.isEmpty = false) _ _)
  | join group next parts failures whole each through told _ each_ih ih =>
      intro begins promise keeps
      refine ⟨members_undisputed whole keeps.1 each fun part member inside => ?_,
        ih (keeps.2 _ fun strict => strict.elim)⟩
      exact each_ih part member (reconcile_sheltered inside :
        Plan.Keeps (sheltered fun visit => visit.lineage.isEmpty = false) _ _)
  | giveUp group next parts failures whole each _ each_ih ih =>
      intro begins promise keeps
      refine ⟨members_undisputed whole keeps.1 each fun part member inside => ?_,
        ih (keeps.2 _ fun strict => strict.elim)⟩
      exact each_ih part member (reconcile_sheltered inside :
        Plan.Keeps (sheltered fun visit => visit.lineage.isEmpty = false) _ _)

/-! ## Independence -/

/-- However the events of a run of the document are shared out among its tasks, the requests of
different entities go to different paths. -/
def Separates (run : Run) (type text : String) (events : List Event)
    (outcome : Outcome (List Entity)) : Prop :=
  ∀ course, (run.document type text).Takes run course (some outcome) → course.Orders events →
    course.Apart

/-- A run that succeeds has given up no batch. -/
theorem patient_of_steps {run : Run} {type text : String} {events : List Event}
    {roots : List Entity} (steps : Stage.Steps run (.active (run.document type text)) events
      (.finished (.value roots))) : .gaveUp ∉ events := by
  obtain ⟨course, takes, orders⟩ := steps.takes
  exact fun gave => patient_of_takes takes (orders.perm_inTurn.mem_iff.mp gave)

/-- A completed run on a store, with types that are looked up where they are created, keeps the
requests of entities with different addresses apart. -/
theorem separates_of_served {run : Run} (plain : run.Plain) {type text : String}
    (free : Document.FreeOfUpdates text) {assigns : String → String → Prop}
    {start final : String → Held} (mirrored : MirroredAt start (run.settings.blueprintUri type))
    {events : List Event} {roots : List Entity}
    (served : Served (Stored assigns) start (calls events) final) (spread : Spread events) :
    run.Separates type text events (.value roots) := by
  intro course takes orders
  obtain ⟨_, _, _, _, _, established⟩ :=
    establishes_of_orders plain free mirrored takes orders served
  exact established.apart (nodup_addresses orders spread)

/-- **The outcome does not depend on the order.** -/
theorem outcome_independent_of_order {τ : Type} (respond : Request → τ → Exchange × τ) (run : Run)
    (first second : Nat) {type text : String} {events others : List Event}
    {outcome ended : Outcome (List Entity)} {state last after : String → τ}
    (free : Document.FreeOfUpdates text)
    (steps : Stage.Steps (run.withConcurrency first)
      (.active ((run.withConcurrency first).document type text)) events (.finished outcome))
    (alsoSteps : Stage.Steps (run.withConcurrency second)
      (.active ((run.withConcurrency second).document type text)) others (.finished ended))
    (patient : .gaveUp ∉ events) (alsoPatient : .gaveUp ∉ others)
    (separates : (run.withConcurrency first).Separates type text events outcome)
    (alsoSeparates : (run.withConcurrency second).Separates type text others ended)
    (served : Served (.ofRespond respond) state (calls events) last)
    (alsoServed : Served (.ofRespond respond) state (calls others) after) :
    (calls events).Perm (calls others) ∧ last = after ∧
      rootsBegun events = rootsBegun others ∧ outcome.Alike ended := by
  obtain ⟨course, takes, orders⟩ := steps.takes
  obtain ⟨other, alsoTakes, alsoOrders⟩ := alsoSteps.takes
  have apart := separates course takes orders
  have alsoApart := alsoSeparates other alsoTakes alsoOrders
  have calm : .gaveUp ∉ course.inTurn := fun gave => patient (orders.perm_inTurn.mem_iff.mpr gave)
  have alsoCalm : .gaveUp ∉ other.inTurn := fun gave =>
    alsoPatient (alsoOrders.perm_inTurn.mem_iff.mpr gave)
  obtain ⟨same, left, ends⟩ := Plan.Alike.determines (Answering.deterministic_ofRespond respond)
    (fun group child calm => run.reconcile_alike first second calm) takes rfl
    (run.document_alike first second free) calm alsoTakes alsoCalm
    (apart.served_inTurn orders served) (alsoApart.served_inTurn alsoOrders alsoServed)
  refine ⟨?_, left, ?_, ends⟩
  · have here : (calls events).Perm (calls course.inTurn) := orders.perm_inTurn.filterMap _
    have there : (calls others).Perm (calls other.inTurn) := alsoOrders.perm_inTurn.filterMap _
    rw [same] at here
    exact here.trans there.symm
  · rw [rootsBegun_eq, rootsBegun_eq,
      Course.filter_of_orders _ (undisputed_roots takes document_sheltered) orders,
      Course.filter_of_orders _ (undisputed_roots alsoTakes document_sheltered) alsoOrders, same]

end Run

namespace Sample

/-- A thing with two parts ends alike whether its parts are handled one by one or together. -/
theorem parts_one_by_one_or_together : ∃ events others, ∃ roots results : List Entity, ∃ last after,
    Stage.Steps (run 1) (.active ((run 1).document "Thing" family)) events
      (.finished (.value roots)) ∧
    Stage.Steps (run 2) (.active ((run 2).document "Thing" family)) others
      (.finished (.value results)) ∧
    Served (.ofRespond respond) shelf (calls events) last ∧
    Served (.ofRespond respond) shelf (calls others) after ∧
    (calls events).Perm (calls others) ∧ last = after ∧
    Run.rootsBegun events = Run.rootsBegun others ∧
    (Outcome.value roots).Alike (.value results) := by
  obtain ⟨events, roots, _, last, steps, stored, served, spread⟩ := succeeded stands_one
  obtain ⟨others, results, _, after, alsoSteps, alsoStored, alsoServed, alsoSpread⟩ :=
    succeeded (show stands (result respond 2) = true by decide +kernel)
  refine ⟨events, others, roots, results, last, after, steps, alsoSteps, served, alsoServed, ?_⟩
  exact Run.outcome_independent_of_order respond (run 1) 1 2 freeOfUpdates_family steps alsoSteps
    (Run.patient_of_steps steps) (Run.patient_of_steps alsoSteps)
    (Run.separates_of_served (plain_run 1) freeOfUpdates_family (mirroredAt_shelf _) stored spread)
    (Run.separates_of_served (plain_run 2) freeOfUpdates_family (mirroredAt_shelf _) alsoStored
      alsoSpread) served alsoServed

end Sample

end DesiredState
