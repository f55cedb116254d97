import DesiredState.Proofs.Run.Failing
import DesiredState.Proofs.Run.Inspection

/-!
# What reports list, and what updates change

A report lists the fields in which the desired entity differs from the remote one. An update does
not send the desired entity but lays it over the remote one, and it leaves a null of the desired
entity out. So a report lists the fields that an update would change, and besides them the fields
that are null in the desired entity and not in the remote one (`Entity.Alters`, `Entity.Blanks`).

**Why nulls stay listed.** A null is a value like any other for the comparison, while for the update
it leaves the field open. So after an update that the API has stored as it was sent, a dry run still
lists these fields. It also lists the field that refers to the parent if the model gives it another
value, since an update sends the value of the ancestor there.
-/

set_option autoImplicit false

namespace DesiredState

/-! ## A value says what it says -/

namespace Json

mutual

theorem agrees_self : ∀ value : Json, value.agrees value = true
  | .null => rfl
  | .bool value => beq_self_eq_true value
  | .number (.integer value) => beq_self_eq_true value
  | .number (.binary value) => by simp [agrees, Number.agrees, Binary64.same]
  | .string value => beq_self_eq_true value
  | .array items => itemsAgree_self items
  | .object members => membersAgree_self members

theorem itemsAgree_self : ∀ items : List Json, itemsAgree items items = true
  | [] => rfl
  | item :: items => by rw [itemsAgree, agrees_self item, itemsAgree_self items, Bool.true_and]

theorem membersAgree_self : ∀ members : List (String × Json), membersAgree members members = true
  | [] => rfl
  | (name, value) :: members => by
      rw [membersAgree, agrees_self value, membersAgree_self members, beq_self_eq_true,
        Bool.true_and, Bool.true_and]

end

theorem isNull_eq_false_iff {value : Json} : value.isNull = false ↔ value ≠ .null := by
  cases value <;> simp [isNull]

/-- Only null says the same as null. -/
theorem agrees_null_iff {value : Json} : value.agrees .null = true ↔ value = .null := by
  cases value <;> simp [agrees]

end Json

/-! ## The listed fields -/

namespace Report

@[simp] theorem holds_none (desired : Json) : holds none desired = false := rfl

@[simp] theorem holds_self (value : Json) : holds (some value) value = true :=
  value.agrees_self

theorem holds_null_iff {remote : Option Json} :
    holds remote .null = true ↔ remote = some .null := by
  cases remote with
  | none => simp
  | some value => exact Json.agrees_null_iff.trans (by simp)

/-- **The differences** are the desired fields whose value the remote entity does not hold. -/
theorem mem_differences {remote desired : Entity} {difference : FieldDifference} :
    difference ∈ differences remote desired ↔
      difference.remote = remote.field? difference.field ∧
      desired.field? difference.field = some difference.desired ∧
      holds (remote.field? difference.field) difference.desired = false := by
  unfold differences
  rw [List.mem_map]
  constructor
  · rintro ⟨⟨name, value⟩, member, rfl⟩
    obtain ⟨inFields, differs⟩ := List.mem_filter.mp member
    exact ⟨rfl, lookupEntry_of_mem desired.fields.ordered _ inFields, by simpa using differs⟩
  · obtain ⟨name, value, wanted⟩ := difference
    rintro ⟨same, given, differs⟩
    obtain rfl : value = remote.field? name := same
    exact ⟨(name, wanted), List.mem_filter.mpr ⟨mem_of_lookupEntry given, by simpa using differs⟩,
      rfl⟩

/-- The differences are listed in name order, none of them twice. -/
theorem differences_increase (remote desired : Entity) :
    ((differences remote desired).map (·.field)).Pairwise (· < ·) := by
  rw [differences, List.map_map, List.pairwise_map]
  exact desired.fields.ordered.filter _

end Report

namespace Entity

variable {desired remote : Entity} {name : String} {value : Json}

/-- Laying the desired entity over the remote one gives a field a value that it does not have. -/
def Alters (desired remote : Entity) (name : String) (value : Json) : Prop :=
  (desired.laidOver remote).field? name = some value ∧
    Report.holds (remote.field? name) value = false

/-- The desired entity has null where the remote one has another value or none. -/
def Blanks (desired remote : Entity) (name : String) : Prop :=
  desired.field? name = some .null ∧ remote.field? name ≠ some .null

/-- Where the desired entity says something, this is laid over the remote one. -/
theorem field?_laidOver_of_some (given : desired.field? name = some value) (some : value ≠ .null) :
    (desired.laidOver remote).field? name = value := by
  rw [field?_laidOver, given, Option.filter_some]
  simp [Json.isNull_eq_false_iff.mpr some]

/-- Where the desired entity says nothing, the remote one is seen. -/
theorem field?_laidOver_of_open
    (leftOpen : desired.field? name = none ∨ desired.field? name = some .null) :
    (desired.laidOver remote).field? name = remote.field? name := by
  rw [field?_laidOver]
  rcases leftOpen with missing | null
  · rw [missing]
    rfl
  · rw [null]
    rfl

theorem blanks_iff : desired.Blanks remote name ↔
    desired.field? name = some .null ∧ Report.holds (remote.field? name) .null = false :=
  and_congr_right fun _ => by rw [Bool.eq_false_iff, ne_eq, ne_eq, Report.holds_null_iff]

/-- A desired value that is not held remotely would be altered by an update, or is null. -/
theorem wanted_iff : (desired.field? name = some value ∧
      Report.holds (remote.field? name) value = false) ↔
    desired.Alters remote name value ∨ (desired.Blanks remote name ∧ value = .null) := by
  constructor
  · rintro ⟨given, differs⟩
    by_cases null : value = .null
    · subst null
      exact .inr ⟨blanks_iff.mpr ⟨given, differs⟩, rfl⟩
    · exact .inl ⟨field?_laidOver_of_some given null, differs⟩
  · rintro (⟨laid, differs⟩ | ⟨blank, rfl⟩)
    · refine ⟨?_, differs⟩
      -- what is left open has the remote value, which is held
      have closed : ¬ (desired.field? name = none ∨ desired.field? name = some .null) := by
        intro leftOpen
        rw [← field?_laidOver_of_open leftOpen, laid, Report.holds_self] at differs
        nomatch differs
      obtain ⟨missing, null⟩ := not_or.mp closed
      obtain ⟨wanted, given⟩ := Option.ne_none_iff_exists'.mp missing
      rw [field?_laidOver_of_some given fun same => null (given.trans (congrArg some same))] at laid
      rw [given, laid]
    · exact blanks_iff.mp blank

/-- Nothing is altered a second time. -/
theorem not_alters_again : ¬ desired.Alters (desired.laidOver remote) name value := by
  rintro ⟨laid, differs⟩
  have again : (desired.laidOver (desired.laidOver remote)).field? name
      = (desired.laidOver remote).field? name := by
    rw [field?_laidOver desired (desired.laidOver remote), field?_laidOver desired remote,
      ← Option.or_assoc, Option.or_self]
  rw [← again, laid, Report.holds_self] at differs
  nomatch differs

/-- What is null in the desired entity is blank over the merged entity as it is over the remote
one. -/
theorem blanks_laidOver_iff :
    desired.Blanks (desired.laidOver remote) name ↔ desired.Blanks remote name :=
  and_congr_right fun null => by rw [field?_laidOver_of_open (.inr null)]

end Entity

namespace Run

variable {run : Run} {α : Type} {events : List Event}

/-! ## What is asked and reported beside the observer -/

/-- What the observer is told is neither a call nor a report, and it may break off. -/
theorem yields_observe_bind {moment : Moment} {continuation : Unit → Plan α} {outcome : Outcome α}
    (yields : (run.observe moment >>= continuation).Yields events outcome) :
    (calls events = [] ∧ reports events = []) ∨
      ∃ rest, calls events = calls rest ∧ reports events = reports rest ∧
        (continuation ()).Yields rest outcome := by
  unfold observe at yields
  split at yields
  · exact .inr ⟨events, rfl, rfl, yields⟩
  · split at yields
    · obtain ⟨rfl, _⟩ := yields
      exact .inl ⟨rfl, rfl⟩
    · obtain ⟨rest, rfl, goesOn⟩ := yields
      exact .inr ⟨rest, rfl, rfl, goesOn⟩

/-- The observer leaves a flagged entity as it is. -/
theorem yields_substitute_bind {flagged : Bool} {entity : Entity}
    {continuation : Entity → Plan α} {outcome : Outcome α}
    (plain : flagged = true → run.Faithful)
    (yields : (run.substitute flagged entity >>= continuation).Yields events outcome) :
    (calls events = [] ∧ reports events = []) ∨
      ∃ rest, calls events = calls rest ∧ reports events = reports rest ∧
        (continuation entity).Yields rest outcome := by
  unfold substitute at yields
  split at yields
  · rename_i observer observed
    rw [bind_assoc] at yields
    have same : observer.substitute entity = entity := plain rfl observer observed entity
    rw [same] at yields
    exact yields_observe_bind yields
  · exact .inr ⟨events, rfl, rfl, yields⟩

/-! ## What an update sends, and what a dry run reports -/

variable {visit : Visit} {outcome : Outcome (Option Entity)} {remote : Entity} {lookup : Call}

/-- An entity that is linked to its parent is flagged as before. -/
theorem linked_substitutes {blueprint : Blueprint} {lineage : Lineage} {entity sender : Entity}
    (links : linked blueprint lineage entity = .ok sender) :
    sender.substitutes = entity.substitutes := by
  rcases linked_cases links with ⟨_, _, _, _, _, rfl⟩ | ⟨_, rfl⟩
  · rfl
  · rfl

/-- **A write is prepared**, and the observer leaves it as it is; or nothing is asked. -/
theorem yields_faithful_submission {α : Type} {outcome : Outcome α}
    (plain : visit.desired.substitutes = true → run.Faithful) {kind : WriteKind} {method : Method}
    {template : String} {moment : Entity → Moment} {continuation : String → Entity → Plan α}
    (yields : (do
      let uri ← required template (← resolve visit.lineage visit.desired template)
      let entity ← run.prepare visit.blueprint visit.lineage visit.desired
      run.observe (moment entity)
      if method.isWrite then continuation uri entity
      else Plan.fail (.methodUnusable entity.type kind method)).Yields events outcome) :
    calls events = [] ∨ ∃ uri sender rest,
      visit.submission kind method template = .ok (uri, sender) ∧ calls events = calls rest ∧
      (continuation uri sender).Yields rest outcome := by
  simp only [prepare, bind_assoc] at yields
  rcases yields_required_bind yields with ⟨_, _, rfl, _⟩ | ⟨uri, leads, links⟩
  · exact .inl rfl
  rcases yields_linkParent_bind links with ⟨_, _, rfl, _⟩ | ⟨sender, linked, replaces⟩
  · exact .inl rfl
  have leaves : sender.substitutes = true → run.Faithful := by
    rw [linked_substitutes linked]
    exact plain
  rcases yields_substitute_bind leaves replaces with ⟨silent, _⟩ | ⟨_, first, _, told⟩
  · exact .inl silent
  rcases yields_observe_bind told with ⟨silent, _⟩ | ⟨rest, second, _, sends⟩
  · exact .inl (first.trans silent)
  by_cases writes : method.isWrite = true
  · rw [if_pos writes] at sends
    refine .inr ⟨uri, sender, rest, ?_, first.trans second, sends⟩
    simp [Visit.submission, leads, linked, writes, bind, Except.bind, pure, Except.pure]
  · rw [if_neg writes] at sends
    obtain ⟨rfl, _⟩ := sends
    exact .inl (first.trans second)

/-- **What an update sends** is made of what is known, whoever observes it. -/
theorem renews_of_update (wet : run.dry = false)
    (plain : visit.desired.substitutes = true → run.Faithful)
    (flagged : visit.desired.updates = true) {template : String} {known : Entity}
    (given : visit.blueprint.lookupUri? = some template)
    (yields : (some <$> run.update visit.blueprint visit.lineage
      (visit.desired.laidOver known)).Yields events outcome)
    {write : Call} {others : List Call} (sent : calls events = write :: others) :
    visit.Renews known write.request := by
  have nothing : ∀ failure : Failure,
      some <$> (Plan.fail failure : Plan Entity) = (Plan.fail failure : Plan (Option Entity)) :=
    fun _ => rfl
  simp only [update, wet, Bool.false_eq_true, if_false, lookupPath, given,
    updateUri_of_lookupUri given, Option.getD_some, map_bind,
    apply_ite (fun plan : Plan Entity => some <$> plan), nothing] at yields
  rcases @yields_faithful_submission run _ (visit.sending (visit.desired.laidOver known)) _ _ plain
    _ _ _ _ _ yields with silent | ⟨uri, sender, rest, ready, same, submits⟩
  · cases silent.symm.trans sent
  · obtain ⟨_, _, writes⟩ := Visit.of_submission ready
    simp only [submitUpdate, map_bind] at submits
    obtain ⟨exchange, _, rfl, _⟩ :=
      (Access.yields_write_bind writes).mp (Plan.yields_log_bind.mp submits)
    obtain ⟨rfl, _⟩ := List.cons.inj (same.symm.trans sent)
    exact Visit.renews_of_submission flagged given ready

/-- **An entity that is found is settled with what was found**, unless the observer breaks off
before that. -/
theorem settleExisting_of_settle (looksUp : LooksUp visit lookup remote)
    (yields : (visit.settle run).Yields events outcome) {later : List Call}
    (sent : calls events = lookup :: later) :
    (later = [] ∧ reports events = []) ∨
      ∃ path rest, later = calls rest ∧ reports events = reports rest ∧
        visit.blueprint.lookupUri?.isSome = true ∧
        (some <$> run.settleExisting visit.blueprint visit.lineage visit.desired remote
          path).Yields rest outcome := by
  obtain ⟨path, response, value, rfl, address, status, spelled, rfl⟩ := looksUp
  obtain ⟨template, given, _⟩ := Option.bind_eq_some_iff.mp address
  rcases yields_lookupPath_bind yields with ⟨uri, also, looks⟩ | ⟨unable, _⟩ |
    ⟨_, _, _, _, rfl, _⟩
  · obtain rfl := Option.some.inj (address.symm.trans also)
    rcases yields_observe_bind looks with ⟨silent, _⟩ | ⟨asks, first, mute, asked⟩
    · nomatch silent.symm.trans sent
    · obtain ⟨exchange, rest, rfl, told⟩ := Access.yields_get_bind.mp asked
      obtain ⟨same, afterwards⟩ := List.cons.inj (first.symm.trans sent)
      cases same
      rcases yields_observe_bind told with ⟨silent, none⟩ | ⟨goesOn, second, quiet, settles⟩
      · exact .inl ⟨afterwards.symm.trans silent, mute.trans none⟩
      · refine .inr ⟨path, goesOn, afterwards.symm.trans second, mute.trans quiet, ?_, ?_⟩
        · rw [given]
          rfl
        · unfold settleAnswered at settles
          rw [if_pos status, spelled] at settles
          exact settles
  · nomatch unable.address_eq_none.symm.trans address
  · nomatch sent

/-- **What is sent for an entity that is found** is an update of what is known. -/
theorem renews_of_settle (wet : run.dry = false)
    (plain : visit.desired.substitutes = true → run.Faithful)
    (looksUp : LooksUp visit lookup remote) (yields : (visit.settle run).Yields events outcome)
    {write : Call} {others : List Call} (sent : calls events = lookup :: write :: others) :
    ∃ known, visit.Renews known write.request := by
  rcases settleExisting_of_settle looksUp yields sent with ⟨none, _⟩ |
    ⟨path, rest, later, _, addressed, settles⟩
  · cases none
  · obtain ⟨template, given⟩ := Option.isSome_iff_exists.mp addressed
    simp only [settleExisting, wet, Bool.false_eq_true, if_false] at settles
    by_cases flagged : visit.desired.updates = true
    · rw [if_pos flagged, map_bind] at settles
      obtain ⟨known, goesOn, rfl, renews⟩ := Plan.yields_recall_bind.mp settles
      rw [map_bind] at renews
      exact ⟨known, renews_of_update wet plain flagged given (Plan.yields_log_bind.mp renews)
        later.symm⟩
    · rw [if_neg flagged, map_bind] at settles
      obtain ⟨rfl, _⟩ := Plan.yields_log_bind.mp settles
      cases later

/-- **What a dry run reports of an entity that is found.** -/
theorem reports_of_settle (dry : run.dry = true)
    (plain : visit.desired.substitutes = true → run.Faithful)
    (looksUp : LooksUp visit lookup remote) (yields : (visit.settle run).Yields events outcome)
    {later : List Call} (sent : calls events = lookup :: later) :
    reports events = [] ∨ reports events = [.ofExisting remote visit.desired] := by
  rcases settleExisting_of_settle looksUp yields sent with ⟨_, none⟩ |
    ⟨path, rest, _, same, _, settles⟩
  · exact .inl none
  · simp only [settleExisting, dry, if_true, map_bind] at settles
    rcases yields_substitute_bind plain settles with ⟨_, silent⟩ | ⟨goesOn, _, quiet, reports⟩
    · exact .inl (same.trans silent)
    · rw [reportExisting, bind_assoc] at reports
      obtain ⟨told, rfl, ended⟩ := Plan.yields_log_bind.mp reports
      obtain ⟨rfl, _⟩ := ended
      exact .inr (same.trans quiet)

end Run

namespace Account

variable {run : Run} {account : Account} {origin : Origin} {visit : Visit} {remote : Entity}
  {later : List Call}

/-- Nothing is reported in the end. -/
theorem reports_of_closing {events : List Event}
    (closes : ∀ event ∈ events, event.isClosing = true) : reports events = [] := by
  refine List.filterMap_eq_nil_iff.mpr fun event member => ?_
  have closing := closes event member
  cases event with
  | told notice => nomatch closing
  | _ => rfl

/-- The first call of a task has found its entity, and others have come later. -/
structure Finds (account : Account) (run : Run) (origin : Origin) (visit : Visit)
    (remote : Entity) (later : List Call) : Prop where
  sound : account.Sound run
  ordered : account.task.Ordered
  /-- The task at the end of the way is that of the visit. -/
  task : ∃ part, account.part? origin = some part ∧ part.task = .entity visit
  found : ∃ lookup, Run.LooksUp visit lookup remote ∧
    calls (account.history.own origin) = lookup :: later

/-- A task that has found its entity has begun to settle it. -/
theorem Finds.yields (finds : account.Finds run origin visit remote later) :
    ∃ lookup own more outcome, Run.LooksUp visit lookup remote ∧ calls own = lookup :: later ∧
      reports own = reports (account.history.own origin) ∧
      (visit.settle run).Yields (own ++ more) outcome := by
  obtain ⟨part, there, entity⟩ := finds.task
  obtain ⟨lookup, looksUp, sent⟩ := finds.found
  have sounds := (finds.sound.of_part? finds.ordered there).1
  rw [finds.sound.calls_own finds.ordered there] at sent
  rw [finds.sound.reports_own finds.ordered there]
  rcases sounds.settling entity with nothing | ⟨own, closing, more, outcome, all, closes, yields⟩
  · rw [nothing] at sent
    nomatch sent
  · refine ⟨lookup, own, more, outcome, looksUp, ?_, ?_, yields⟩
    · rw [← sent, all, calls_cons, calls_append, calls_of_closing closes, List.append_nil]
      rfl
    · rw [all, reports_cons, reports_append, reports_of_closing closes, List.append_nil]
      rfl

end Account

/-- What is done for an entity without child types that is found. -/
theorem Run.finds_of_steps {run : Run} {visit : Visit} {events : List Event}
    {stage : Stage ChildTask (Option Entity)} (ordered : visit.blueprint.Ordered)
    (childless : visit.blueprint.childTypes = [])
    (steps : Stage.Steps run
      (.active (run.reconcile visit.blueprint visit.lineage visit.desired)) events stage)
    {remote : Entity} {lookup : Call} {later : List Call}
    (looksUp : Run.LooksUp visit lookup remote) (sent : calls events = lookup :: later) :
    ∃ account : Account, account.Finds run [] visit remote later ∧
      account.history.own [] = events := by
  obtain ⟨course, takes, orders⟩ := steps.takes
  obtain ⟨account, entity, _, sound, rfl⟩ := accounts_of_reconcile takes orders
  have alone := sound.alone entity childless
  refine ⟨account, ⟨sound, ?_, ⟨account, rfl, entity⟩, lookup, looksUp, ?_⟩, alone⟩
  · rw [entity]
    exact ordered
  · rw [alone, sent]

namespace Visit

/-- What a report still lists after an update was stored as it was sent: what the model leaves open
with a null, and the field that refers to the parent. -/
theorem listed_after_update {visit : Visit} {known : Entity} {request : Request} {stored : Json}
    (renews : visit.Renews known request) (body : request.body = some stored)
    {difference : FieldDifference}
    (listed : difference ∈ Report.differences (visit.found stored) visit.desired) :
    (visit.desired.Blanks (visit.found stored) difference.field ∧ difference.desired = .null) ∨
      visit.parentField? = some difference.field := by
  obtain ⟨fields, sent, composes⟩ := renews.body
  obtain rfl := Option.some.inj (body.symm.trans sent)
  obtain ⟨_, given, differs⟩ := Report.mem_differences.mp listed
  by_cases parent : visit.parentField? = some difference.field
  · exact .inr parent
  by_cases null : difference.desired = .null
  · rw [null] at given differs
    exact .inl ⟨Entity.blanks_iff.mpr ⟨given, differs⟩, null⟩
  · -- what is not null was sent and is there now
    have something : difference.desired.isNull = false := Json.isNull_eq_false_iff.mpr null
    have shown : (visit.found (.ofMap fields)).field? difference.field
        = fields.find? difference.field := by
      rw [found, Entity.field?, Entity.ofRemote, Json.members?_ofMap]
      rfl
    rw [shown, composes.given _ _ parent given something, Report.holds_self] at differs
    nomatch differs

end Visit

namespace Run

/-- **Reports list what updates change, and nulls.** For any remote and any desired entity the
differences are listed in name order and each once. A field is listed if the desired entity laid
over the remote one has another value there than the remote one, with this value, or if it is null
in the desired entity and not in the remote one, with null; and it is listed with its remote value.
Only fields of the second kind are listed against the merged entity. So if an update is stored as it
was sent, and a dry run then finds what was stored, the report lists only such fields and the one
that refers to the parent, as long as no observer replaces a flagged entity. -/
theorem reports_list_updates_and_nulls :
    (∀ remote desired : Entity,
      ((Report.differences remote desired).map (·.field)).Pairwise (· < ·) ∧
      (∀ difference, difference ∈ Report.differences remote desired ↔
        difference.remote = remote.field? difference.field ∧
        (desired.Alters remote difference.field difference.desired ∨
          (desired.Blanks remote difference.field ∧ difference.desired = .null))) ∧
      ∀ difference, difference ∈ Report.differences (desired.laidOver remote) desired ↔
        difference.remote = remote.field? difference.field ∧
        desired.Blanks remote difference.field ∧ difference.desired = .null) ∧
    ∀ (writer reader : Run) (made checked : Account) (place other : Origin)
      (updated verified : Visit) (remote : Entity) (write : Call) (later others : List Call)
      (stored : Json),
      writer.dry = false → reader.dry = true →
      made.Finds writer place updated remote (write :: later) →
      write.request.body = some stored →
      checked.Finds reader other verified (verified.found stored) others →
      verified.desired = updated.desired →
      (updated.desired.substitutes = true → writer.Faithful ∧ reader.Faithful) →
      ∀ report ∈ reports (checked.history.own other), ∃ differences,
        report = .difference updated.desired.type updated.desired.label differences ∧
        ∀ difference ∈ differences,
          (updated.desired.Blanks (updated.found stored) difference.field ∧
            difference.desired = .null) ∨
          updated.parentField? = some difference.field := by
  refine ⟨fun remote desired => ⟨Report.differences_increase remote desired, ?_, ?_⟩, ?_⟩
  · intro difference
    exact Report.mem_differences.trans (and_congr_right fun _ => Entity.wanted_iff)
  · intro difference
    refine Report.mem_differences.trans ?_
    rw [Entity.wanted_iff, or_iff_right Entity.not_alters_again, Entity.blanks_laidOver_iff]
    exact and_congr_left fun ⟨⟨null, _⟩, _⟩ => by rw [Entity.field?_laidOver_of_open (.inr null)]
  · intro writer reader made checked place other updated verified remote write later others stored
      wet dry makes body checks same plain report told
    obtain ⟨_, own, more, _, looksUp, sent, _, yields⟩ := makes.yields
    obtain ⟨known, renews⟩ := renews_of_settle wet (fun flagged => (plain flagged).1) looksUp yields
      (by rw [calls_append, sent, List.cons_append, List.cons_append])
    obtain ⟨_, reads, rest, _, again, asked, reported, settles⟩ := checks.yields
    rw [← reported] at told
    have all : report ∈ reports (reads ++ rest) := by
      rw [reports_append]
      exact List.mem_append_left _ told
    rcases reports_of_settle dry (by rw [same]; exact fun flagged => (plain flagged).2) again
      settles (by rw [calls_append, asked, List.cons_append]) with none | one
    · rw [none] at all
      nomatch all
    · rw [one] at all
      obtain rfl := List.mem_singleton.mp all
      have found : verified.found stored = updated.found stored := by
        rw [Visit.found, Visit.found, same]
      refine ⟨_, by rw [Report.ofExisting, same], ?_⟩
      rw [found]
      exact fun difference listed => Visit.listed_after_update renews body listed

end Run

/-! ## A thing that is updated and listed again -/

namespace Sample

/-- The remote thing has a note. -/
def annotated : Entity :=
  ⟨"Thing", ⟨[("name", .string "a"), ("note", .string "keep")], by decide⟩, .empty, false, false⟩

/-- In the desired thing the note is null. -/
def unannotated : Entity :=
  ⟨"Thing", ⟨[("name", .string "a"), ("note", .null)], by decide⟩, .empty, false, false⟩

/-- An update would keep the note, but it is listed, and against the merged thing it is listed
too. -/
theorem kept_note_listed :
    (unannotated.laidOver annotated).field? "note" = annotated.field? "note" ∧
    (⟨"note", some (.string "keep"), .null⟩ : FieldDifference)
      ∈ Report.differences annotated unannotated ∧
    (⟨"note", some (.string "keep"), .null⟩ : FieldDifference)
      ∈ Report.differences (unannotated.laidOver annotated) unannotated :=
  ⟨rfl, Report.mem_differences.mpr ⟨rfl, rfl, rfl⟩, Report.mem_differences.mpr ⟨rfl, rfl, rfl⟩⟩

/-- A thing with an owner, to be updated, in which the kind is null and another owner is given. -/
def relabelled : Visit where
  blueprint := ownerless.blueprint
  lineage := Lineage.empty.insert "Owner"
    ⟨"Owner", ⟨[("uuid", .string "u1")], by decide⟩, .empty, false, false⟩
  desired := ⟨"Thing", ⟨[("kind", .null), ("name", .string "a"), ("note", .string "mine"),
    ("owner", .string "me")], by decide⟩, .empty, true, false⟩

/-- The thing as it is sent. -/
def relabelledText : String :=
  "\x7b\"kind\":\"theirs\",\"name\":\"a\",\"note\":\"mine\",\"owner\":\"u1\",\"size\":3\x7d"

/-- The thing as it is found after it was stored as it was sent. -/
def restored : Response := ⟨200, some relabelledText, none⟩

/-- There is the stored thing at each path. -/
def restoring (_ : Request) (state : Unit) : Exchange × Unit := (.answered restored, state)

/-- The thing is updated, or compared in a dry run. -/
def relabelling (dry : Bool) : RunResult ((String → Unit) × List Call) (Option Entity) :=
  (Engine.create ⟨"/blueprints", 2, 1000, "sample"⟩ none dry).execute
    ⟨⟨0⟩, .direct, .recorded (if dry then restoring else holding)⟩ 20
    (·.reconcile relabelled.blueprint relabelled.lineage relabelled.desired) (fun _ => (), [])

/-- The value that is stored. -/
def restoredValue : Json := restored.json?.getD .null

/-- What shows of a call, apart from what is sent. -/
def outline (call : Call) : Method × String × Bool × Exchange :=
  (call.request.method, call.request.path, call.request.body.isNone, call.exchange)

/-- A call that reads. -/
theorem call_of_outline {call : Call} {path : String} {exchange : Exchange}
    (reads : outline call = (.get, path, true, exchange)) :
    call = ⟨⟨.get, path, none⟩, exchange⟩ := by
  obtain ⟨⟨method, target, body⟩, told⟩ := call
  simp only [outline, Prod.mk.injEq, Option.isNone_iff_eq_none] at reads
  obtain ⟨rfl, rfl, rfl, rfl⟩ := reads
  rfl

/-- Whether the value is sent with the call. -/
def carries (value : Json) (call : Call) : Bool := call.request.body.any value.same

theorem body_of_carries {value : Json} {call : Call} (same : carries value call = true) :
    call.request.body = some value := by
  unfold carries at same
  cases sent : call.request.body with
  | none =>
      rw [sent] at same
      nomatch same
  | some body =>
      rw [sent, Option.any_some] at same
      rw [Json.eq_of_same same]

/-- The thing is found at its path. -/
theorem relabelled_looked_up {response : Response} (status : response.status = Run.foundStatus)
    (spelled : response.json?.isSome = true) :
    Run.LooksUp relabelled ⟨⟨.get, "/things/a", none⟩, .answered response⟩
      (relabelled.found (response.json?.getD .null)) := by
  obtain ⟨value, there⟩ := Option.isSome_iff_exists.mp spelled
  refine ⟨"/things/a", response, value, rfl, by decide +kernel, status, there, ?_⟩
  rw [there, Option.getD_some]

theorem ordered_relabelled : relabelled.blueprint.Ordered := .mk .nil (List.forall_mem_nil _)

/-- The thing is looked up and sent with what is known of it. -/
theorem relabelling_updates : (inPlace? (relabelling false)).isSome = true ∧
    (relabelling false).server.2.reverse.map outline
      = [(.get, "/things/a", true, .answered stale), (.post, "/things/a", false, .answered stale)] ∧
    (relabelling false).server.2.reverse.map (carries restoredValue) = [false, true] := by
  decide +kernel

theorem relabelled_updated : ∃ made : Account, ∃ write : Call,
    made.Finds (trial false) [] relabelled (relabelled.found staleValue) [write] ∧
    write.request.body = some restoredValue := by
  obtain ⟨there, sent, bodies⟩ := relabelling_updates
  obtain ⟨placed, inPlace⟩ := Option.isSome_iff_exists.mp there
  obtain ⟨events, steps, _, called, _⟩ := Engine.execute_recorded _ _ _ _ _ _ _
    (rfl : _ = relabelling false) (outcome_of_inPlace inPlace)
  rw [← called] at sent bodies
  obtain ⟨lookup, rest, all, first, sent⟩ := List.map_eq_cons_iff.mp sent
  obtain ⟨write, none, rfl, _, sent⟩ := List.map_eq_cons_iff.mp sent
  obtain rfl := List.map_eq_nil_iff.mp sent
  rw [all] at bodies
  rw [call_of_outline first] at all
  have looksUp : Run.LooksUp relabelled ⟨⟨.get, "/things/a", none⟩, .answered stale⟩
      (relabelled.found staleValue) := relabelled_looked_up rfl (by decide +kernel)
  obtain ⟨made, finds, _⟩ := Run.finds_of_steps ordered_relabelled rfl steps looksUp all
  exact ⟨made, write, finds, body_of_carries (List.cons.inj (List.cons.inj bodies).2).1⟩

/-- The fields that a report lists. -/
def listedFields : Report → List String
  | .creation _ _ _ => []
  | .difference _ _ differences => differences.map (·.field)

/-- A dry run looks the thing up and reports on its kind and its owner. -/
theorem relabelling_compares : (inPlace? (relabelling true)).isSome = true ∧
    (relabelling true).server.2.reverse.map outline
      = [(.get, "/things/a", true, .answered restored)] ∧
    ((relabelling true).notices.filterMap Notice.report?).map listedFields
      = [["kind", "owner"]] := by
  decide +kernel

theorem relabelled_compared : ∃ checked : Account, ∃ report : Report,
    checked.Finds (trial true) [] relabelled (relabelled.found restoredValue) [] ∧
    reports (checked.history.own []) = [report] ∧ listedFields report = ["kind", "owner"] := by
  obtain ⟨there, sent, listed⟩ := relabelling_compares
  obtain ⟨placed, inPlace⟩ := Option.isSome_iff_exists.mp there
  obtain ⟨events, steps, _, called, _, told⟩ := Engine.execute_recorded _ _ _ _ _ _ _
    (rfl : _ = relabelling true) (outcome_of_inPlace inPlace)
  rw [← called] at sent
  rw [← told] at listed
  obtain ⟨lookup, none, all, only, sent⟩ := List.map_eq_cons_iff.mp sent
  obtain rfl := List.map_eq_nil_iff.mp sent
  obtain ⟨report, none, reported, fields, listed⟩ := List.map_eq_cons_iff.mp listed
  obtain rfl := List.map_eq_nil_iff.mp listed
  rw [call_of_outline only] at all
  have looksUp : Run.LooksUp relabelled ⟨⟨.get, "/things/a", none⟩, .answered restored⟩
      (relabelled.found restoredValue) := relabelled_looked_up rfl (by decide +kernel)
  obtain ⟨checked, finds, own⟩ := Run.finds_of_steps ordered_relabelled rfl steps looksUp all
  exact ⟨checked, report, finds, own ▸ reported, fields⟩

/-- The thing is updated and stored as it was sent, and then a dry run lists its kind and its
owner. -/
theorem relabelled_listed_again : ∃ made checked : Account, ∃ write : Call, ∃ differences,
    made.Finds (trial false) [] relabelled (relabelled.found staleValue) [write] ∧
    write.request.body = some restoredValue ∧
    checked.Finds (trial true) [] relabelled (relabelled.found restoredValue) [] ∧
    reports (checked.history.own []) = [.difference "Thing" "a" differences] ∧
    differences.map (·.field) = ["kind", "owner"] ∧
    ∀ difference ∈ differences,
      (relabelled.desired.Blanks (relabelled.found restoredValue) difference.field ∧
        difference.desired = .null) ∨ relabelled.parentField? = some difference.field := by
  obtain ⟨made, write, makes, body⟩ := relabelled_updated
  obtain ⟨checked, report, checks, reported, fields⟩ := relabelled_compared
  obtain ⟨differences, rfl, each⟩ := Run.reports_list_updates_and_nulls.2 (trial false) (trial true)
    made checked [] [] relabelled relabelled _ write [] [] restoredValue rfl rfl makes body checks
    rfl nofun report (by rw [reported]; exact List.mem_singleton_self report)
  exact ⟨made, checked, write, differences, makes, body, checks, reported, fields, each⟩

end Sample

end DesiredState
