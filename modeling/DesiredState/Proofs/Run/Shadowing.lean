import DesiredState.Proofs.Entity
import DesiredState.Proofs.Run.Realization
import DesiredState.Proofs.Template.Substitution

/-!
# Entities in a dry run and in a run

A dry run hands the children of an entity the desired fields laid over those that were found, or
the desired entity alone if it cannot be looked up (`Visit.supposed?`); a run hands them what the
API has answered. Where each placeholder of the lookup templates stands for the same in both
(`Account.Agrees`), a dry run asks for the same paths as a run that has succeeded, and reports the
entities that it has created (`Shadows.predicts`). They do so if the fields to which the templates
refer are kept by the entities that have them (`Sound.agrees`).

**Why shadows.** What the tasks of the dry run have as ancestors is known from the account of the
run that succeeded. So its account is compared with that one from an entity downwards
(`Account.Shadows`), before it is known whether the dry run succeeds.
-/

set_option autoImplicit false

namespace DesiredState

variable {start : String → Held}

/-! ## What is supposed to be in place -/

namespace Visit

/-- The visit with other ancestors. -/
def under (visit : Visit) (lineage : Lineage) : Visit := { visit with lineage }

/-- What a dry run takes to be in place of an entity: the desired fields laid over those that are
held at its address, the desired entity if it has no address, and nothing if nothing is held. -/
def supposed? (start : String → Held) (visit : Visit) : Option Entity :=
  match Run.lookupAddress? visit.blueprint visit.lineage visit.desired with
  | none => some visit.desired
  | some uri => (start uri).map fun fields =>
      visit.desired.laidOver (.ofRemote (.ofMap fields) visit.desired.className)

/-- The entity has an address, and nothing was held there. -/
def Absent (start : String → Held) (visit : Visit) : Prop :=
  ∃ uri, Run.lookupAddress? visit.blueprint visit.lineage visit.desired = some uri ∧
    start uri = none

variable {visit : Visit}

theorem supposed?_of_address {uri : String}
    (address : Run.lookupAddress? visit.blueprint visit.lineage visit.desired = some uri) :
    visit.supposed? start = (start uri).map fun fields =>
      visit.desired.laidOver (.ofRemote (.ofMap fields) visit.desired.className) := by
  rw [supposed?, address]

/-- What is supposed to be in place has the class of what is desired. -/
theorem className_of_supposed {supposed : Entity}
    (supposes : visit.supposed? start = some supposed) :
    supposed.className = visit.desired.className := by
  unfold supposed? at supposes
  split at supposes
  · rw [Option.some.inj supposes]
  · obtain ⟨fields, _, rfl⟩ := Option.map_eq_some_iff.mp supposes
    rfl

/-- A dry run supposes to be in place what its inspection leaves. -/
theorem Inspects.supposed_eq {own : List Event} {result : Option Entity}
    (inspects : visit.Inspects own result) (answered : AnsweredFrom start (calls own)) :
    visit.supposed? start = result := by
  cases inspects with
  | unaddressed unable => rw [supposed?, unable.address_eq_none]
  | @missing uri response address status =>
      have told : (Exchange.answered response).Tells (start uri) :=
        answered.told _ List.mem_cons_self rfl
      rw [supposed?_of_address address, told.eq_none status]
      rfl
  | @found uri response value address status spelled =>
      have told : (Exchange.answered response).Tells (start uri) :=
        answered.told _ List.mem_cons_self rfl
      obtain ⟨fields, held, shown⟩ := told.shown status
      obtain rfl := Option.some.inj (spelled.symm.trans shown)
      rw [supposed?_of_address address, held]
      rfl

end Visit

/-- A task with other ancestors. -/
def Task.under (lineage : Lineage) : Task → Task
  | .entity visit => .entity (visit.under lineage)
  | task => task

/-- Groups with another task for each of theirs. -/
def Task.instead (image : Task → Task) (groups : List (List (Waypoint × Task))) :
    List (List (Waypoint × Task)) :=
  groups.map fun group => group.map fun handed => (handed.1, image handed.2)

/-- The children of an entity are handed out with other ancestors. -/
theorem Task.broods_under {visit : Visit} {lineage : Lineage} {settled supposed : Entity}
    (sameClass : supposed.className = settled.className) :
    broods (visit.under lineage) supposed
      = instead (Task.under ((visit.under lineage).below supposed)) (broods visit settled) := by
  rw [instead, broods, broods, List.map_map]
  refine List.map_congr_left ?_
  intro declared _
  have children : ((visit.under lineage).placed supposed).childrenOf declared
      = (visit.placed settled).childrenOf declared := by
    simp only [Entity.childrenOf, Run.childClassName, Visit.placed, Visit.under, sameClass]
  rw [Function.comp_apply, brood, brood, children, List.map_map]
  rfl

/-! ## What is predicted -/

/-- The paths that were looked up. -/
def lookups (sent : List Call) : List String :=
  (sent.filter fun call => call.request.method = .get).map (·.request.path)

/-- The calls have created an entity: something was written, and nothing was found before. -/
def Created (sent : List Call) : Prop :=
  (∃ call ∈ sent, call.request.method.isWrite = true) ∧
    ∀ call ∈ sent, call.request.method = .get → ¬ call.Succeeded

/-- The events of a dry run say what the calls have done: the same paths were looked up, and the
one report is that of a creation if and only if something was created. -/
def Predicts (rehearsed : List Event) (sent : List Call) : Prop :=
  lookups (calls rehearsed) = lookups sent ∧
    ∃ report, reports rehearsed = [report] ∧ (report.isCreation = true ↔ Created sent)

theorem lookups_of_writes {sent : List Call}
    (writes : ∀ call ∈ sent, call.request.method.isWrite = true) : lookups sent = [] := by
  rw [lookups, List.map_eq_nil_iff, List.filter_eq_nil_iff]
  intro call member reading
  have write := writes call member
  rw [of_decide_eq_true reading] at write
  nomatch write

theorem lookups_cons (uri : String) (exchange : Exchange) {rest : List Call}
    (writes : ∀ call ∈ rest, call.request.method.isWrite = true) :
    lookups (⟨⟨.get, uri, none⟩, exchange⟩ :: rest) = [uri] := by
  exact congrArg (uri :: ·) (lookups_of_writes writes)

/-- A write after which nothing else comes, and before which nothing was found, is a creation. -/
theorem created_of_write {before : List Call} {create : Call}
    (nothing : ∀ call ∈ before, ¬ call.Succeeded) (writes : create.request.method.isWrite = true) :
    Created (before ++ [create]) := by
  refine ⟨⟨create, by simp, writes⟩, ?_⟩
  intro call member reading
  rcases List.mem_append.mp member with earlier | last
  · exact nothing call earlier
  · rw [List.mem_singleton.mp last] at reading
    rw [reading] at writes
    nomatch writes

/-- What is inspected says what was done for the entity, if it was looked up at one address. -/
theorem Visit.Inspects.predicts {visit again : Visit} {own : List Event} {result : Option Entity}
    {sent : List Call} (inspects : again.Inspects own result)
    (answered : AnsweredFrom start (calls own))
    (same : Run.lookupAddress? again.blueprint again.lineage again.desired
      = Run.lookupAddress? visit.blueprint visit.lineage visit.desired)
    (realizes : visit.Realizes start sent) : Predicts own sent := by
  cases inspects with
  | unaddressed unable =>
      rw [unable.address_eq_none] at same
      cases realizes with
      | found _ address _ _ _ => cases same.trans address
      | missing address _ _ _ => cases same.trans address
      | unaddressed _ writes =>
          have created : Created ([] ++ [_]) := created_of_write (List.forall_mem_nil _) writes
          refine ⟨(lookups_of_writes (List.forall_mem_singleton.mpr writes)).symm, _, rfl, ?_⟩
          exact ⟨fun _ => created, fun _ => rfl⟩
  | @missing uri response address status =>
      rw [address] at same
      have told : (Exchange.answered response).Tells (start uri) :=
        answered.told _ List.mem_cons_self rfl
      cases realizes with
      | found _ also held _ _ =>
          obtain rfl := Option.some.inj (same.trans also)
          cases held.symm.trans (told.eq_none status)
      | @missing _ lookup _ also _ missing writes =>
          obtain rfl := Option.some.inj (same.trans also)
          have unfound : ¬ Call.Succeeded ⟨⟨.get, uri, none⟩, .answered lookup⟩ := by
            rintro ⟨_, same, success⟩
            cases same
            rw [Response.isSuccess, missing] at success
            cases success
          have created : Created ([_] ++ [_]) :=
            created_of_write (List.forall_mem_singleton.mpr unfound) writes
          refine ⟨?_, _, rfl, fun _ => created, fun _ => rfl⟩
          exact (lookups_cons uri _ (List.forall_mem_singleton.mpr writes)).symm
      | unaddressed unable _ => cases same.trans unable.address_eq_none
  | @found uri response value address status spelled =>
      rw [address] at same
      have told : (Exchange.answered response).Tells (start uri) :=
        answered.told _ List.mem_cons_self rfl
      cases realizes with
      | @found _ _ lookup updates also _ found writes =>
          obtain rfl := Option.some.inj (same.trans also)
          refine ⟨(lookups_cons uri _ writes).symm, _, rfl, (by rintro ⟨⟩), fun created => ?_⟩
          have success : Call.Succeeded ⟨⟨.get, uri, none⟩, .answered lookup⟩ :=
            ⟨lookup, rfl, by rw [Response.isSuccess, found]; rfl⟩
          exact absurd success (created.2 _ List.mem_cons_self rfl)
      | missing also absent _ _ =>
          obtain rfl := Option.some.inj (same.trans also)
          obtain ⟨fields, held, _⟩ := told.shown status
          cases absent.symm.trans held
      | unaddressed unable _ => cases same.trans unable.address_eq_none

/-! ## What was handed out -/

namespace Account

namespace Sequel

variable {groups : List (List (Waypoint × Task))} {gangs : List (List (Waypoint × Account))}
  {history : History} {fate : Fate}

/-- A member was handed out. -/
theorem tag_mem (sequel : Sequel groups gangs history fate) {member : Waypoint × Account}
    (inside : member ∈ gangs.flatten) : tag member ∈ groups.flatten := by
  obtain ⟨gang, inGangs, inGang⟩ := List.mem_flatten.mp inside
  have group := sequel.handed.subset (List.mem_map_of_mem inGangs)
  exact List.mem_flatten.mpr ⟨_, group, List.mem_map_of_mem inGang⟩

/-- When all groups are through, each task of them was handed out. -/
theorem member_of_mem (sequel : Sequel groups gangs history .succeeded) {handed : Waypoint × Task}
    (inside : handed ∈ groups.flatten) : ∃ member ∈ gangs.flatten, tag member = handed := by
  generalize well : Fate.succeeded = fate at sequel
  induction sequel with
  | pending groups => nomatch well
  | through => nomatch inside
  | last closing _ _ _ short _ => exact absurd well.symm short
  | next same _ _ _ ih =>
      rw [List.flatten_cons]
      rcases List.mem_append.mp inside with here | there
      · rw [← same] at here
        obtain ⟨member, inGang, rfl⟩ := List.mem_map.mp here
        exact ⟨member, List.mem_append_left _ inGang, rfl⟩
      · obtain ⟨member, inGangs, rfl⟩ := ih there well
        exact ⟨member, List.mem_append_right _ inGangs, rfl⟩

section Instead

variable {image : Task → Task} {others : List (List (Waypoint × Account))} {also : History}

/-- What was handed out instead stands for a member, if all were handed out. -/
theorem member_of_instead (sequel : Sequel groups gangs history .succeeded)
    (handing : Sequel (Task.instead image groups) others also fate) {two : Waypoint × Account}
    (inside : two ∈ others.flatten) :
    ∃ one ∈ gangs.flatten, two.1 = one.1 ∧ two.2.task = image one.2.task := by
  have handed := handing.tag_mem inside
  rw [Task.instead, ← List.map_flatten] at handed
  obtain ⟨_, inGroups, same⟩ := List.mem_map.mp handed
  obtain ⟨one, inGangs, rfl⟩ := sequel.member_of_mem inGroups
  obtain ⟨place, task⟩ := Prod.mk.inj same
  exact ⟨one, inGangs, place.symm, task.symm⟩

/-- For each member another task was handed out instead, if all were. -/
theorem instead_of_member (sequel : Sequel groups gangs history fate)
    (handing : Sequel (Task.instead image groups) others also .succeeded)
    {one : Waypoint × Account} (inside : one ∈ gangs.flatten) :
    ∃ two ∈ others.flatten, two.1 = one.1 ∧ two.2.task = image one.2.task := by
  have handed : ((tag one).1, image (tag one).2) ∈ (Task.instead image groups).flatten := by
    rw [Task.instead, ← List.map_flatten]
    exact List.mem_map.mpr ⟨_, sequel.tag_mem inside, rfl⟩
  obtain ⟨two, also, same⟩ := handing.member_of_mem handed
  obtain ⟨place, task⟩ := Prod.mk.inj same
  exact ⟨two, also, place, task⟩

end Instead

/-- Groups fail since a member has failed, or since a crew was given up. -/
theorem failed (sequel : Sequel groups gangs history .failed) :
    .gaveUp ∈ history.events ∨ ∃ member ∈ gangs.flatten, member.2.fate = .failed := by
  generalize failed : Fate.failed = fate at sequel
  induction sequel with
  | pending groups => nomatch failed
  | through => nomatch failed
  | @last _ _ _ braid _ closing _ _ quiet _ cause =>
      rcases cause failed.symm with some | ⟨member, inGang, ill⟩
      · obtain rfl := quiet.resolve_left some
        exact .inl (by simp)
      · exact .inr ⟨member, by simpa using inGang, failed ▸ ill⟩
  | next _ _ _ _ ih =>
      rcases ih failed with gaveUp | ⟨member, inGangs, ill⟩
      · exact .inl (by simp [gaveUp])
      · exact .inr ⟨member, List.mem_append_right _ inGangs, ill⟩

end Sequel

/-- A child that was handed out has the entity in place as an ancestor. -/
theorem child_of_mem {visit : Visit} {settled : Entity} {gangs : List (List (Waypoint × Account))}
    {history : History} {fate : Fate}
    (sequel : Sequel (Task.broods visit settled) gangs history fate)
    {member : Waypoint × Account} (inside : member ∈ gangs.flatten) :
    ∃ declared ∈ visit.blueprint.childTypes, ∃ child,
      member.2.task = .entity ⟨declared.2, visit.below settled, child⟩ := by
  obtain ⟨group, inGroups, inGroup⟩ := List.mem_flatten.mp (sequel.tag_mem inside)
  obtain ⟨declared, inTypes, rfl⟩ := List.mem_map.mp inGroups
  obtain ⟨child, _, tagged⟩ := List.mem_map.mp inGroup
  exact ⟨declared, inTypes, child.1, (Prod.mk.inj tagged).2.symm⟩

namespace Sound

variable {run : Run} {account : Account}

/-- A dry run that is through has inspected its entity, and has handed out the children of what it
supposes to be in place. -/
theorem inspects (dry : run.dry = true) (unobserved : run.observer = none)
    (sound : account.Sound run) {visit : Visit} (entity : account.task = .entity visit)
    (well : account.fate = .succeeded) :
    ∃ mine result, visit.Inspects mine result ∧ calls account.own = calls mine ∧
      reports account.own = reports mine ∧ (result = none ∨ ∃ supposed history,
        result = some supposed ∧
        Sequel (Task.broods visit supposed) account.gangs history .succeeded) := by
  rcases sound.form with ⟨_, _, stops⟩ | ⟨_, history, goesOn, sequel, _⟩
  · rw [entity, well] at stops
    obtain ⟨mine, inspects, same, told⟩ := stops.inspects dry unobserved
    exact ⟨mine, none, inspects, same, told, .inl rfl⟩
  · rw [entity] at goesOn
    rw [well] at sequel
    obtain ⟨mine, supposed, inspects, same, told, rfl, _⟩ := goesOn.inspects dry unobserved
    exact ⟨mine, some supposed, inspects, same, told, .inr ⟨supposed, history, rfl, sequel⟩⟩

end Sound

/-! ## Ways to entities that were in place -/

/-- No entity that the way leads past was looked up where the store held nothing. -/
def Reached (start : String → Held) (account : Account) (origin : Origin) : Prop :=
  ∀ above parent visit, above <+: origin → above ≠ origin → account.part? above = some parent →
    parent.task = .entity visit → ¬ visit.Absent start

theorem Reached.of_member {run : Run} {account : Account} {member : Waypoint × Account}
    {rest : Origin} (reached : account.Reached start (member.1 :: rest))
    (sound : account.Sound run) (ordered : account.task.Ordered)
    (inside : member ∈ account.members) : member.2.Reached start rest := by
  intro above parent visit ahead apart found
  refine reached (member.1 :: above) parent visit (List.prefix_cons_inj _ |>.mpr ahead) ?_ ?_
  · exact fun same => apart (List.cons.inj same).2
  · rw [sound.part?_cons ordered inside]
    exact found

/-! ## Ancestors that agree -/

/-- With the lineage for the ancestors of the entity, each placeholder of a lookup template stands
for the same in both, at the entity and at all below it that a dry run reaches. -/
inductive Agrees (start : String → Held) : Account → Lineage → Prop
  | mk {account : Account} {visit : Visit} {lineage : Lineage}
      (entity : account.task = .entity visit)
      (here : ∀ template, visit.blueprint.lookupUri? = some template →
        visit.lineage.AgreeOn (Template.placeholders template.toList) lineage)
      (below : ∀ supposed, (visit.under lineage).supposed? start = some supposed →
        ∀ member ∈ account.members, Agrees start member.2 ((visit.under lineage).below supposed)) :
      Agrees start account lineage

end Account

namespace Lineage

variable {names : List String} {first second : Lineage}

/-- The ancestors of each type have the same values in the fields. -/
def AlikeIn (names : List String) (first second : Lineage) : Prop :=
  ∀ type ancestor other, first.find? type = some ancestor → second.find? type = some other →
    ∀ name ∈ names, ancestor.field? name = other.field? name

theorem alikeIn_empty (names : List String) : AlikeIn names empty empty :=
  fun _ _ _ found _ _ _ => nomatch found

/-- Lineages stay alike when each gets an ancestor of one type, and these are alike. -/
theorem AlikeIn.insert (alike : AlikeIn names first second) (type : String) {entity other : Entity}
    (same : ∀ name ∈ names, entity.field? name = other.field? name) :
    AlikeIn names (first.insert type entity) (second.insert type other) := by
  intro another one two found also name member
  rw [find?_insert] at found also
  split at found
  · rename_i here
    rw [if_pos here] at also
    cases found
    cases also
    exact same name member
  · rename_i elsewhere
    rw [if_neg elsewhere] at also
    exact alike another one two found also name member

end Lineage

namespace Visit

/-- The fields of ancestors to which the lookup template of the entity refers. -/
def references (visit : Visit) : List String :=
  visit.blueprint.lookupUri?.toList.flatMap fun template =>
    (Template.placeholders template.toList).filterMap fun content =>
      (Template.qualified? content).map fun parts => String.ofList parts.2

/-- The entity keeps a field as it is found: it is looked up and not flagged for an update, and the
model does not give it the field. -/
structure Keeps (visit : Visit) (name : String) : Prop where
  still : visit.desired.updates = false
  addressed : (Run.lookupAddress? visit.blueprint visit.lineage visit.desired).isSome
  unnamed : visit.desired.field? name = none

instance (visit : Visit) (name : String) : Decidable (visit.Keeps name) :=
  decidable_of_iff (visit.desired.updates = false ∧
      (Run.lookupAddress? visit.blueprint visit.lineage visit.desired).isSome ∧
      (visit.desired.field? name).isNone)
    ⟨fun checked => ⟨checked.1, checked.2.1, Option.isNone_iff_eq_none.mp checked.2.2⟩,
      fun keeps => ⟨keeps.still, keeps.addressed, Option.isNone_iff_eq_none.mpr keeps.unnamed⟩⟩

variable {visit : Visit} {lineage : Lineage}

/-- Ancestors that are alike in the fields to which the template refers agree on it. -/
theorem agreeOn_of_alikeIn {names : List String} (refers : ∀ name ∈ visit.references, name ∈ names)
    (alike : Lineage.AlikeIn names visit.lineage lineage) {template : String}
    (given : visit.blueprint.lookupUri? = some template) :
    visit.lineage.AgreeOn (Template.placeholders template.toList) lineage := by
  intro type ancestor other found also content member
  rw [Template.ancestorValue?_eq, Template.ancestorValue?_eq]
  cases parted : Template.qualified? content with
  | none => rw [Option.bind_none, Option.bind_none]
  | some parts =>
      have referred : String.ofList parts.2 ∈ visit.references := by
        rw [references, given]
        refine List.mem_flatMap.mpr ⟨template, List.mem_singleton_self _, ?_⟩
        exact List.mem_filterMap.mpr ⟨content, member, by rw [parted]; rfl⟩
      have same : ancestor.fields.find? (String.ofList parts.2)
          = other.fields.find? (String.ofList parts.2) :=
        alike type ancestor other found also _ (refers _ referred)
      rw [Option.bind_some, Option.bind_some, same]

/-- An entity has one address below ancestors that agree on its template. -/
theorem address_under (aligned : visit.lineage.Aligned lineage)
    (agree : ∀ template, visit.blueprint.lookupUri? = some template →
      visit.lineage.AgreeOn (Template.placeholders template.toList) lineage) :
    Run.lookupAddress? visit.blueprint lineage visit.desired
      = Run.lookupAddress? visit.blueprint visit.lineage visit.desired := by
  rw [Run.lookupAddress?, Run.lookupAddress?]
  cases given : visit.blueprint.lookupUri? with
  | none => rfl
  | some template =>
      rw [Option.bind_some, Option.bind_some,
        Template.resolve_congr aligned visit.desired (agree template given)]

/-- **A field that is kept** has one value in what is in place and in what is supposed there. -/
theorem Keeps.field?_eq {run : Run} (plain : run.Plain) {name : String} (keeps : visit.Keeps name)
    {settled supposed : Entity} {sent : List Call} (answered : AnsweredFrom start sent)
    (sends : (visit.settle run).Sends sent (some settled))
    (sameAddress : Run.lookupAddress? visit.blueprint lineage visit.desired
      = Run.lookupAddress? visit.blueprint visit.lineage visit.desired)
    (supposes : (visit.under lineage).supposed? start = some supposed) :
    settled.field? name = supposed.field? name := by
  obtain ⟨uri, address⟩ := Option.isSome_iff_exists.mp keeps.addressed
  have under : Run.lookupAddress? (visit.under lineage).blueprint (visit.under lineage).lineage
      (visit.under lineage).desired = some uri := sameAddress.trans address
  rw [supposed?_of_address under] at supposes
  obtain ⟨fields, held, rfl⟩ := Option.map_eq_some_iff.mp supposes
  rw [Run.settled_of_held plain keeps.still address held answered sends, Entity.field?_laidOver]
  have unnamed : (visit.under lineage).desired.field? name = none := keeps.unnamed
  rw [unnamed, Option.filter_none, Option.none_or]
  rfl

end Visit

namespace Account

/-- **Ancestors agree if the fields to which the lookup templates refer are kept** by all entities
that were begun. -/
theorem Sound.agrees {run : Run} (plain : run.Plain) {names : List String} {account : Account}
    (sound : account.Sound run) :
    ∀ {visit : Visit} {lineage : Lineage}, account.task = .entity visit →
      visit.blueprint.Ordered → account.fate = .succeeded →
      AnsweredFrom start (calls account.history.events) →
      (∀ begun ∈ visits account.history.events,
        (∀ name ∈ begun.references, name ∈ names) ∧ ∀ name ∈ names, begun.Keeps name) →
      visit.lineage.Aligned lineage → visit.lineage.AlikeIn names lineage →
      account.Agrees start lineage := by
  induction sound with
  | @stopped task own fate stops =>
      rintro visit lineage rfl _ rfl _ kept _ alike
      rw [History.events_stay] at kept
      have begun : visit ∈ visits own := by
        generalize well : Fate.succeeded = fate at stops
        cases stops with
        | unbegun visit => nomatch well
        | unsettled _ _ => exact List.mem_cons_self
        | undeclared _ _ short => exact absurd well.symm short
      refine .mk rfl (fun template given => ?_) fun _ _ => List.forall_mem_nil _
      exact Visit.agreeOn_of_alikeIn (kept visit begun).1 alike given
  | @handing task own groups gangs history fate goesOn sequel each ih =>
      rintro visit lineage rfl ordered rfl answered kept aligned alike
      have whole := Sound.handing goesOn sequel each
      have alone := whole.answered_own answered
      obtain ⟨settled, begun, sends, _, rfl⟩ := goesOn.settled
      obtain ⟨refers, keeps⟩ := kept visit (by simp [begun])
      have agree : ∀ template, visit.blueprint.lookupUri? = some template →
          visit.lineage.AgreeOn (Template.placeholders template.toList) lineage :=
        fun template given => Visit.agreeOn_of_alikeIn refers alike given
      refine .mk rfl agree ?_
      intro supposed supposes member inside
      obtain ⟨gang, inGangs, inGang⟩ := List.mem_flatten.mp inside
      obtain ⟨declared, inTypes, child, entity⟩ := child_of_mem sequel inside
      have orders : member.2.task.Ordered := (whole.of_member ordered member inside).2
      rw [entity] at orders
      refine ih gang inGangs member inGang entity orders (sequel.succeeded member inside)
        (whole.answered_member ordered answered inside) ?_ (aligned.insert _ _ _) ?_
      · exact fun other inMember =>
          kept other (List.filterMap_subset _ (whole.events_member ordered inside) inMember)
      · refine alike.insert _ fun name known => ?_
        have same : settled.field? name = supposed.field? name :=
          (keeps name known).field?_eq plain alone sends (Visit.address_under aligned agree)
            supposes
        exact same

/-! ## Shadows -/

/-- The account of a dry run is about the entity that another account is about, which has
succeeded, and its ancestors agree with those. Either has read what the store held at the start. -/
structure Shadows (run rehearsing : Run) (start : String → Held) (account other : Account)
    (visit : Visit) (lineage : Lineage) : Prop where
  entity : account.task = .entity visit
  ordered : visit.blueprint.Ordered
  sound : account.Sound run
  well : account.fate = .succeeded
  answered : AnsweredFrom start (calls account.history.events)
  agrees : account.Agrees start lineage
  aligned : visit.lineage.Aligned lineage
  again : other.task = .entity (visit.under lineage)
  alsoSound : other.Sound rehearsing
  alsoAnswered : AnsweredFrom start (calls other.history.events)

namespace Shadows

variable {run rehearsing : Run} {account other : Account} {visit : Visit} {lineage : Lineage}

theorem task_ordered (shadows : Shadows run rehearsing start account other visit lineage) :
    account.task.Ordered := by
  rw [shadows.entity]
  exact shadows.ordered

theorem again_ordered (shadows : Shadows run rehearsing start account other visit lineage) :
    other.task.Ordered := by
  rw [shadows.again]
  exact shadows.ordered

/-- The ancestors agree on the template of the entity. -/
theorem agree (shadows : Shadows run rehearsing start account other visit lineage) :
    ∀ template, visit.blueprint.lookupUri? = some template →
      visit.lineage.AgreeOn (Template.placeholders template.toList) lineage := by
  obtain ⟨entity, here, _⟩ := shadows.agrees
  cases entity.symm.trans shadows.entity
  exact here

/-- The template of the entity is filled alike. -/
theorem resolve_eq (shadows : Shadows run rehearsing start account other visit lineage)
    {template : String} (given : visit.blueprint.lookupUri? = some template) :
    Template.resolve lineage visit.desired template
      = Template.resolve visit.lineage visit.desired template :=
  (Template.resolve_congr shadows.aligned visit.desired (shadows.agree template given)).symm

/-- The entity has one address in both. -/
theorem address_eq (shadows : Shadows run rehearsing start account other visit lineage) :
    Run.lookupAddress? visit.blueprint lineage visit.desired
      = Run.lookupAddress? visit.blueprint visit.lineage visit.desired :=
  Visit.address_under shadows.aligned shadows.agree

/-- An entity of which the dry run supposes nothing to be in place was not there at the start. -/
theorem absent (shadows : Shadows run rehearsing start account other visit lineage)
    (nothing : (visit.under lineage).supposed? start = none) : visit.Absent start := by
  unfold Visit.supposed? at nothing
  split at nothing
  · nomatch nothing
  · rename_i uri address
    exact ⟨uri, shadows.address_eq.symm.trans address, Option.map_eq_none_iff.mp nothing⟩

/-- What the run has done for the entity. -/
theorem realizes (plain : run.Plain)
    (shadows : Shadows run rehearsing start account other visit lineage) :
    visit.Realizes start (calls account.own) ∧ ∃ settled history,
      settled.className = visit.desired.className ∧
      Run.undeclared? visit.blueprint (visit.placed settled) = none ∧
      Sequel (Task.broods visit settled) account.gangs history .succeeded :=
  shadows.sound.realizes plain shadows.entity shadows.well
    (shadows.sound.answered_own shadows.answered)

/-- The lookup of the entity does not fail in the dry run. -/
theorem not_lookupFails (plain : run.Plain) (dry : rehearsing.dry = true)
    (shadows : Shadows run rehearsing start account other visit lineage) :
    ¬ (visit.under lineage).LookupFails (calls other.own) := by
  have told : ∀ request exchange, ⟨request, exchange⟩ ∈ calls other.own →
      ∃ held, exchange.Tells held := by
    intro request exchange member
    have asked := (shadows.alsoSound.within dry).subset (List.mem_map_of_mem member)
    have reading := (Task.reads_only rehearsing other.task _ asked).1
    exact ⟨_, (shadows.alsoSound.answered_own shadows.alsoAnswered).told _ member reading⟩
  intro fails
  cases fails with
  | unfilled given unfilled =>
      have stays := (shadows.resolve_eq given).symm.trans unfilled
      have given : visit.blueprint.lookupUri? = _ := given
      have nowhere : Run.lookupAddress? visit.blueprint visit.lineage visit.desired = none := by
        rw [Run.lookupAddress?, given, Option.bind_some, stays]
        rfl
      obtain ⟨realized, _⟩ := shadows.realizes plain
      generalize calls account.own = sent at realized
      cases realized with
      | found _ address _ _ _ => cases address.symm.trans nowhere
      | missing address _ _ _ => cases address.symm.trans nowhere
      | unaddressed unable _ =>
          obtain ⟨uri, unidentified⟩ := unable _ given
          cases stays.symm.trans unidentified
  | lost member =>
      obtain ⟨_, tells⟩ := told _ _ member
      cases tells
  | unexpected member notFound notMissing =>
      obtain ⟨_, tells⟩ := told _ _ member
      cases tells with
      | found status _ => exact notFound status
      | missing status => exact notMissing status
  | undecodable member status garbled =>
      obtain ⟨_, tells⟩ := told _ _ member
      obtain ⟨_, _, shown⟩ := tells.shown status
      cases garbled.symm.trans shown

/-- A dry run hands out the children that the run has handed out, with other ancestors. -/
theorem groups_eq (plain : run.Plain)
    (shadows : Shadows run rehearsing start account other visit lineage) {supposed : Entity}
    (supposes : (visit.under lineage).supposed? start = some supposed) :
    ∃ settled history, Sequel (Task.broods visit settled) account.gangs history .succeeded ∧
      Task.broods (visit.under lineage) supposed = Task.instead
        (Task.under ((visit.under lineage).below supposed)) (Task.broods visit settled) := by
  obtain ⟨_, settled, history, class_, _, sequel⟩ := shadows.realizes plain
  have sameClass : supposed.className = settled.className := by
    rw [class_, Visit.className_of_supposed supposes]
    rfl
  exact ⟨settled, history, sequel, Task.broods_under sameClass⟩

/-- The members that are about one child shadow each other in turn. -/
theorem member (shadows : Shadows run rehearsing start account other visit lineage)
    {supposed settled : Entity} {history : History}
    (supposes : (visit.under lineage).supposed? start = some supposed)
    (sequel : Sequel (Task.broods visit settled) account.gangs history .succeeded)
    {one two : Waypoint × Account} (inside : one ∈ account.members) (also : two ∈ other.members)
    (same : two.2.task = one.2.task.under ((visit.under lineage).below supposed)) :
    ∃ inner, Shadows run rehearsing start one.2 two.2 inner
      ((visit.under lineage).below supposed) := by
  obtain ⟨declared, _, child, entity⟩ := child_of_mem sequel inside
  obtain ⟨sounds, orders⟩ := shadows.sound.of_member shadows.task_ordered one inside
  obtain ⟨alsoSounds, _⟩ := shadows.alsoSound.of_member shadows.again_ordered two also
  have agrees : one.2.Agrees start ((visit.under lineage).below supposed) := by
    obtain ⟨known, _, below⟩ := shadows.agrees
    cases known.symm.trans shadows.entity
    exact below supposed supposes one inside
  rw [entity] at same orders
  refine ⟨_, entity, orders, sounds, sequel.succeeded one inside, ?_, agrees,
    shadows.aligned.insert _ _ _, same, alsoSounds, ?_⟩
  · exact shadows.sound.answered_member shadows.task_ordered shadows.answered inside
  · exact shadows.alsoSound.answered_member shadows.again_ordered shadows.alsoAnswered also

/-- Each member of the dry run shadows one of the run. -/
theorem of_member (plain : run.Plain)
    (shadows : Shadows run rehearsing start account other visit lineage)
    {supposed : Entity} (supposes : (visit.under lineage).supposed? start = some supposed)
    {history : History} {fate : Fate}
    (handing : Sequel (Task.broods (visit.under lineage) supposed) other.gangs history fate)
    {two : Waypoint × Account} (also : two ∈ other.members) :
    ∃ one ∈ account.members, ∃ inner, Shadows run rehearsing start one.2 two.2 inner
      ((visit.under lineage).below supposed) := by
  obtain ⟨settled, _, sequel, groups⟩ := shadows.groups_eq plain supposes
  rw [groups] at handing
  obtain ⟨one, inside, _, same⟩ := sequel.member_of_instead handing also
  exact ⟨one, inside, shadows.member supposes sequel inside also same⟩

/-- Each member of the run is shadowed by one of a dry run that is through. -/
theorem member_of (plain : run.Plain)
    (shadows : Shadows run rehearsing start account other visit lineage)
    {supposed : Entity} (supposes : (visit.under lineage).supposed? start = some supposed)
    {history : History}
    (handing : Sequel (Task.broods (visit.under lineage) supposed) other.gangs history .succeeded)
    {one : Waypoint × Account} (inside : one ∈ account.members) :
    ∃ two ∈ other.members, two.1 = one.1 ∧ ∃ inner, Shadows run rehearsing start one.2 two.2 inner
      ((visit.under lineage).below supposed) := by
  obtain ⟨settled, _, sequel, groups⟩ := shadows.groups_eq plain supposes
  rw [groups] at handing
  obtain ⟨two, also, place, same⟩ := sequel.instead_of_member handing inside
  exact ⟨two, also, place, shadows.member supposes sequel inside also same⟩

/-- **A dry run does not fail where the run has succeeded**, unless a crew is given up. -/
theorem not_failed (plain : run.Plain) (dry : rehearsing.dry = true)
    (unobserved : rehearsing.observer = none) {other : Account} (sound : other.Sound rehearsing) :
    ∀ {account : Account} {visit : Visit} {lineage : Lineage},
      Shadows run rehearsing start account other visit lineage →
      .gaveUp ∉ other.history.events → other.fate ≠ .failed := by
  induction sound with
  | @stopped task own fate stops =>
      rintro account visit lineage shadows _ rfl
      have fails := shadows.not_lookupFails plain dry
      obtain rfl : task = .entity (visit.under lineage) := shadows.again
      generalize ill : Fate.failed = fate at stops
      cases stops with
      | unbegun visit => nomatch ill
      | unsettled settles _ =>
          rcases Run.inspecting_own dry unobserved settles with ⟨_, _, cause⟩ |
            ⟨_, _, rfl | rfl⟩
          · exact fails (by simpa using cause ill.symm)
          · nomatch ill
          · nomatch ill
      | @undeclared _ _ settled _ _ unknown _ =>
          obtain ⟨_, _, _, _, declared, _⟩ := shadows.realizes plain
          have also : Run.undeclared? visit.blueprint (visit.placed settled) = none := declared
          have unknown : (Run.undeclared? visit.blueprint (visit.placed settled)).isSome := unknown
          rw [also] at unknown
          nomatch unknown
  | @handing task own groups gangs history fate goesOn sequel each ih =>
      rintro account visit lineage shadows patient rfl
      obtain rfl : task = .entity (visit.under lineage) := shadows.again
      obtain ⟨mine, supposed, inspects, same, _, rfl, _⟩ := goesOn.inspects dry unobserved
      have answered : AnsweredFrom start (calls mine) := by
        rw [← same]
        exact shadows.alsoSound.answered_own shadows.alsoAnswered
      have supposes := inspects.supposed_eq answered
      rcases sequel.failed with gaveUp | ⟨two, also, ill⟩
      · exact patient (by simp [gaveUp])
      · obtain ⟨gang, inGangs, inGang⟩ := List.mem_flatten.mp also
        obtain ⟨one, _, inner, deeper⟩ := shadows.of_member plain supposes sequel also
        refine ih gang inGangs two inGang deeper ?_ ill
        exact fun gaveUp =>
          patient (shadows.alsoSound.events_member shadows.again_ordered also gaveUp)

/-- A dry run that is through has taken the way to each entity of the run that it reaches. -/
theorem part (plain : run.Plain) (dry : rehearsing.dry = true)
    (unobserved : rehearsing.observer = none) : ∀ {origin : Origin} {account other part : Account}
      {visit : Visit} {lineage : Lineage},
      Shadows run rehearsing start account other visit lineage → other.fate = .succeeded →
      account.part? origin = some part → account.Reached start origin →
      ∃ deeper inner lower, other.part? origin = some deeper ∧ deeper.fate = .succeeded ∧
        Shadows run rehearsing start part deeper inner lower
  | [], _, other, _, visit, lineage, shadows, well, found, _ => by
      cases found
      exact ⟨other, visit, lineage, rfl, well, shadows⟩
  | place :: rest, account, other, _, visit, lineage, shadows, well, found, reached => by
      obtain ⟨one, inside, rfl, below⟩ := Sound.member_of_part? found
      obtain ⟨mine, result, inspects, same, _, goesOn⟩ :=
        shadows.alsoSound.inspects dry unobserved shadows.again well
      have answered : AnsweredFrom start (calls mine) := by
        rw [← same]
        exact shadows.alsoSound.answered_own shadows.alsoAnswered
      have supposes := inspects.supposed_eq answered
      rcases goesOn with rfl | ⟨supposed, history, rfl, handing⟩
      · have absent : visit.Absent start := shadows.absent supposes
        exact absurd absent (reached [] account visit List.nil_prefix (List.cons_ne_nil _ _).symm
          rfl shadows.entity)
      · obtain ⟨two, also, place, inner, closer⟩ :=
          shadows.member_of plain supposes handing inside
        have onward : one.2.Reached start rest :=
          reached.of_member shadows.sound shadows.task_ordered inside
        obtain ⟨deeper, inmost, lowest, there, through, closest⟩ :=
          part plain dry unobserved closer (handing.succeeded two also) below onward
        refine ⟨deeper, inmost, lowest, ?_, through, closest⟩
        rw [← place, shadows.alsoSound.part?_cons shadows.again_ordered also]
        exact there

/-- **What a dry run says of an entity.** It asks for the same path, and it reports that the entity
would be created if and only if it was created. -/
theorem predicts (plain : run.Plain) (dry : rehearsing.dry = true)
    (unobserved : rehearsing.observer = none)
    (shadows : Shadows run rehearsing start account other visit lineage)
    (well : other.fate = .succeeded) : Predicts other.own (calls account.own) := by
  obtain ⟨mine, result, inspects, same, told, _⟩ :=
    shadows.alsoSound.inspects dry unobserved shadows.again well
  have answered : AnsweredFrom start (calls mine) := by
    rw [← same]
    exact shadows.alsoSound.answered_own shadows.alsoAnswered
  rw [Predicts, same, told]
  exact inspects.predicts answered shadows.address_eq (shadows.realizes plain).1

end Shadows

end Account

end DesiredState
