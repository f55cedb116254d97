import DesiredState.Proofs.Entity
import DesiredState.Proofs.Run.Ancestry
import DesiredState.Proofs.Template.Substitution

/-!
# The ancestors that a path and a parent field are taken from

The path of a create and the field that refers to the parent may both be taken from a field of an
ancestor, named by its type. The template asks the types root first, and the first one fills in that
has a value. The parent field is that of the last type. Both compare types without regard to case,
and the template without regard to suffixes, while in the lineage types that are spelled differently
are different ones. So it depends on how the types are spelled whether both speak of one ancestor
(`Run.path_and_parent_ancestors`).

**Order and depth.** A type stands in the lineage where its outermost entity stood, so the last type
that matches holds the deepest entity that matches only if no other spelling has come in between
(`Lineage.last_ofChain`).

**Chains.** A lineage comes about link by link, each of them what one task above has put in place
(`Account.lineage_of_goesOn`). So an entity whose handling begins has the lineage of the chain of
the tasks above it (`Account.Sound.follows_of_begun`), whatever the observer did to their entities.
-/

set_option autoImplicit false

namespace DesiredState

/-! ## The last type that matches -/

namespace Lineage

variable {chain : List (String × Entity)} {matching : String → Bool} {deepest : String × Entity}

/-- The types of a lineage come in the order of the chain. -/
theorem names_sublist (chain : List (String × Entity)) :
    ((ofChain chain).entries.map (·.1)).Sublist (chain.map (·.1)) := by
  induction chain using List.reverseRecOn with
  | nil => exact List.Sublist.slnil
  | append_singleton chain link ih =>
      rw [ofChain_concat, insert, names_put, List.map_append, List.map_singleton]
      split
      · exact ih.trans (List.sublist_append_left _ _)
      · exact ih.append (List.Sublist.refl _)

/-- A type of a chain stands in the lineage. -/
theorem exists_entry {link : String × Entity} (member : link ∈ chain) :
    ∃ entry ∈ (ofChain chain).entries, entry.1 = link.1 := by
  have known : link.1 ∈ (ofChain chain).entries.map (·.1) := by
    rw [names_ofChain, List.mem_eraseDups]
    exact List.mem_map_of_mem member
  exact List.mem_map.mp known

/-- The deepest entity that matches is the deepest one of its type. -/
theorem deepest_of_matching
    (found : chain.reverse.find? (fun link => matching link.1) = some deepest) :
    chain.reverse.find? (·.1 = deepest.1) = some deepest := by
  obtain ⟨fits, below, above, whole, others⟩ := List.find?_eq_some_iff_append.mp found
  refine List.find?_eq_some_iff_append.mpr ⟨by simp, below, above, whole, fun link member => ?_⟩
  have passed := others link member
  by_contra same
  have same : link.1 = deepest.1 := by simpa using same
  rw [same, fits] at passed
  nomatch passed

/-- If nothing of another type that matches comes after what is of a type, the last that matches is
of this type. -/
theorem last_of_apart {entries : List (String × Entity)} {entry : String × Entity}
    (inside : entry ∈ entries) (fits : matching entry.1 = true)
    (apart : entries.Pairwise fun upper lower =>
      upper.1 = entry.1 → matching lower.1 = true → lower.1 = entry.1) :
    ∃ last, entries.reverse.find? (fun entry => matching entry.1) = some last ∧
      last.1 = entry.1 := by
  have inside := List.mem_reverse.mpr inside
  have apart := List.pairwise_reverse.mpr apart
  cases found : entries.reverse.find? (fun entry => matching entry.1) with
  | none => exact absurd fits (List.find?_eq_none.mp found entry inside)
  | some last =>
      refine ⟨last, rfl, ?_⟩
      obtain ⟨also, below, above, whole, others⟩ := List.find?_eq_some_iff_append.mp found
      rw [whole] at inside apart
      rcases List.mem_append.mp inside with behind | here
      · have passed := others entry behind
        rw [fits] at passed
        nomatch passed
      · rcases List.mem_cons.mp here with rfl | before
        · rfl
        · have order := (List.pairwise_cons.mp (List.pairwise_append.mp apart).2.1).1
          exact order entry before rfl also

/-- **The last type that matches holds the deepest entity that does**, unless a matching type of
another spelling comes after the first time of this entity's type. -/
theorem last_ofChain (found : chain.reverse.find? (fun link => matching link.1) = some deepest)
    (apart : chain.Pairwise fun upper lower =>
      upper.1 = deepest.1 → matching lower.1 = true → lower.1 = deepest.1) :
    (ofChain chain).entries.reverse.find? (fun entry => matching entry.1) = some deepest := by
  -- entries of the deepest entity's type are this entity
  have same : ∀ entry ∈ (ofChain chain).entries, entry.1 = deepest.1 → entry = deepest := by
    intro entry member type
    have found' := entry_ofChain entry member
    rw [type] at found'
    exact Option.some.inj (found'.symm.trans (deepest_of_matching found))
  obtain ⟨entry, inside, type⟩ := exists_entry
    (List.mem_reverse.mp (List.mem_of_find?_eq_some found))
  obtain rfl := same entry inside type
  have fits : matching entry.1 = true := by simpa using List.find?_some found
  have types : (chain.map (·.1)).Pairwise fun upper lower =>
      upper = entry.1 → matching lower = true → lower = entry.1 := List.pairwise_map.mpr apart
  obtain ⟨last, here, type⟩ :=
    last_of_apart inside fits (List.pairwise_map.mp (types.sublist (names_sublist chain)))
  rw [here, same last (List.mem_reverse.mp (List.mem_of_find?_eq_some here)) type]

end Lineage

/-! ## Types have no dots -/

namespace Text

/-- No other character has the dot as its lower-case letter. -/
theorem eq_dot_of_toLower {character : Char} (dot : character.toLower = '.') :
    character = '.' := by
  unfold Char.toLower at dot
  split at dot
  · rename_i letter
    -- a lower-case letter is above the dot
    have value : character.val + ('a'.val - 'A'.val) = '.'.val := congrArg Char.val dot
    have low : 'A'.val.toNat ≤ character.val.toNat := letter.1
    have high : character.val.toNat ≤ 'Z'.val.toNat := letter.2
    have number := congrArg UInt32.toNat value
    simp at number low high
    omega
  · exact dot

theorem dot_not_mem_of_sameLetters {left right : String}
    (same : sameLetters left right = true) (free : '.' ∉ left.toList) :
    '.' ∉ right.toList := by
  have lowered : left.toList.map Char.toLower = right.toList.map Char.toLower :=
    String.ofList_injective (by simpa [sameLetters, lower] using same)
  intro dotted
  have member : Char.toLower '.' ∈ left.toList.map Char.toLower :=
    lowered ▸ List.mem_map_of_mem dotted
  obtain ⟨character, inside, dot⟩ := List.mem_map.mp member
  exact free (eq_dot_of_toLower dot ▸ inside)

end Text

namespace ClassName

/-- A type has no dot. -/
theorem dot_not_mem_simple (className : String) :
    '.' ∉ (simple className).toList := by
  rw [simple, String.toList_ofList, lastSegment, List.mem_reverse]
  intro dotted
  simpa using List.mem_takeWhile_imp dotted

end ClassName

/-! ## The ancestor in a path -/

namespace Template

/-- A type without its suffix. -/
def bare (type : String) : String := String.ofList (stripSuffix type.toList)

/-- The value in a path of a field that an entity may have. -/
def shown? (entity : Entity) (field : String) : Option (List Char) :=
  (entity.field? field).bind render?

/-- The first entry fills in that has the type and a value. -/
theorem inAncestors?_of_qualified {lineage : Lineage} {content : List Char} {type field : String}
    (parts : qualified? content = some (type.toList, field.toList)) :
    inAncestors? lineage content = lineage.entries.findSome? fun entry =>
      if Text.sameLetters type (bare entry.1) then shown? entry.2 field else none := by
  rw [inAncestors?, parts, Option.bind_some]
  simp only [String.ofList_toList]
  rfl

end Template

namespace Lineage

open Template (bare shown?)

variable {chain : List (String × Entity)} {type field : String}

/-- The deepest entity of a chain whose type is the given one, ignoring case. -/
def deepest? (chain : List (String × Entity)) (type : String) : Option (String × Entity) :=
  chain.reverse.find? fun link => Text.sameLetters link.1 type

/-- After the first entity whose type is spelled like that of the deepest one, no other spelling of
the type comes. -/
def Steady (chain : List (String × Entity)) (type : String) : Prop :=
  ∀ deepest, deepest? chain type = some deepest → chain.Pairwise fun upper lower =>
    upper.1 = deepest.1 → Text.sameLetters lower.1 type = true → lower.1 = deepest.1

/-- The name could mean the type: it is the same ignoring case, with its suffix or without. -/
def Means (name type : String) : Prop :=
  Text.sameLetters name type = true ∨ Text.sameLetters type (bare name) = true

/-- All names on the chain that could mean the type are spelled alike. -/
def SpelledAlike (chain : List (String × Entity)) (type : String) : Prop :=
  ∀ one ∈ chain, ∀ other ∈ chain, Means one.1 type → Means other.1 type → one.1 = other.1

/-- Of the types, in the order of their outermost entities, the first one that matches without its
suffix and whose deepest entity has a value of the field; with this entity and its value. -/
structure Fills (chain : List (String × Entity)) (type field : String) (shown : List Char)
    (source : String × Entity) : Prop where
  deepest : chain.reverse.find? (·.1 = source.1) = some source
  fits : Text.sameLetters type (bare source.1) = true
  value : shown? source.2 field = some shown
  first : ∃ before after, (chain.map (·.1)).eraseDups = before ++ source.1 :: after ∧
    ∀ earlier ∈ before, Text.sameLetters type (bare earlier) = true →
      ∀ link, chain.reverse.find? (·.1 = earlier) = some link → shown? link.2 field = none

/-- The deepest entity of its type, which matches, with the value of the field. -/
structure Refers (chain : List (String × Entity)) (type field : String) (value : Json)
    (parent : String × Entity) : Prop where
  deepest : chain.reverse.find? (·.1 = parent.1) = some parent
  fits : Text.sameLetters parent.1 type = true
  value : parent.2.field? field = some value

/-- **What fills in a placeholder** in the lineage of a chain. -/
theorem fills_of_inAncestors {content shown : List Char}
    (parts : Template.qualified? content = some (type.toList, field.toList))
    (filled : Template.inAncestors? (ofChain chain) content = some shown) :
    ∃ source, Fills chain type field shown source := by
  rw [Template.inAncestors?_of_qualified parts] at filled
  obtain ⟨before, source, after, whole, here, others⟩ := List.findSome?_eq_some_iff.mp filled
  have inside : source ∈ (ofChain chain).entries := by
    rw [whole]
    exact List.mem_append_right _ List.mem_cons_self
  obtain ⟨fits, value⟩ := Option.ite_none_right_eq_some.mp here
  refine ⟨source, entry_ofChain source inside, fits, value, before.map (·.1), after.map (·.1),
    ?_, ?_⟩
  · rw [← names_ofChain, whole, List.map_append, List.map_cons]
  · rintro _ member fitting link deepest
    obtain ⟨entry, earlier, rfl⟩ := List.mem_map.mp member
    have stands : entry ∈ (ofChain chain).entries := by
      rw [whole]
      exact List.mem_append_left _ earlier
    obtain rfl := Option.some.inj ((entry_ofChain entry stands).symm.trans deepest)
    have nothing := others entry earlier
    rwa [if_pos fitting] at nothing

/-- **What a parent field takes its value from** in the lineage of a chain. -/
theorem refers_of_value {link : ParentLink} {own : String} {entity : Entity} {value : Json}
    (refers : (if link.reference.entity = FieldReference.parentSentinel then own
      else link.reference.entity) = type)
    (found : link.value own (ofChain chain) entity = .ok value) :
    ∃ parent, Refers chain type link.reference.field value parent ∧
      (ofChain chain).entries.reverse.find? (fun entry => Text.sameLetters entry.1 type)
        = some parent := by
  obtain ⟨ancestor, near, held, _⟩ := ParentLink.value_eq_ok_iff.mp found
  rw [refers] at near
  obtain ⟨parent, last, rfl⟩ := Option.map_eq_some_iff.mp near
  have inside := List.mem_reverse.mp (List.mem_of_find?_eq_some last)
  have fits : Text.sameLetters parent.1 type = true := by simpa using List.find?_some last
  exact ⟨parent, ⟨entry_ofChain parent inside, fits, held⟩, last⟩

/-- Names that are spelled alike do not alternate. -/
theorem SpelledAlike.steady (alike : SpelledAlike chain type) : Steady chain type := by
  intro deepest found
  have inside := List.mem_reverse.mp (List.mem_of_find?_eq_some found)
  have fits : Text.sameLetters deepest.1 type = true := by simpa using List.find?_some found
  refine List.pairwise_of_forall_mem_list ?_
  intro upper _ lower member _ fitting
  exact alike lower member deepest inside (.inl fitting) (.inl fits)

end Lineage

/-! ## The chain of an entity in a run -/

namespace Account

/-- What the task adds to the chain of those below it: the entity that it has put in place, under
the type of the desired one. -/
def link? (account : Account) : Option (String × Entity) :=
  match account.task with
  | .entity visit => account.placed?.map fun entity => (visit.desired.type, entity)
  | _ => none

/-- The chain of a task, root first: what the tasks above it add. -/
def chain (account : Account) (origin : Origin) : List (String × Entity) :=
  account.along link? origin

/-- The types of a chain have no dots. -/
theorem chain_undotted (account : Account) (origin : Origin) :
    ∀ link ∈ account.chain origin, '.' ∉ link.1.toList := by
  intro link member
  obtain ⟨depth, _, found⟩ := List.mem_filterMap.mp member
  obtain ⟨part, _, adds⟩ := Option.bind_eq_some_iff.mp found
  unfold link? at adds
  split at adds
  · rename_i visit _
    obtain ⟨entity, _, rfl⟩ := Option.map_eq_some_iff.mp adds
    exact ClassName.dot_not_mem_simple visit.desired.className
  · nomatch adds

variable {run : Run} {account : Account}

/-- **A task that hands out others adds its link to what they see**, and nothing else. -/
theorem lineage_of_goesOn {groups : List (List (Waypoint × Task))}
    (goesOn : account.task.GoesOn run account.own groups)
    {above : List (String × Entity)} (built : account.task.lineage = Lineage.ofChain above) :
    ∀ group ∈ groups, ∀ handed ∈ group,
      handed.2.lineage = Lineage.ofChain (above ++ account.link?.toList) := by
  obtain ⟨task, own, gangs, history, fate⟩ := account
  have goesOn : task.GoesOn run own groups := goesOn
  have built : task.lineage = Lineage.ofChain above := built
  cases goesOn with
  | catalog documents =>
      intro group member handed inside
      obtain ⟨named, _, rfl⟩ := List.mem_map.mp member
      rw [List.mem_singleton.mp inside]
      exact built.trans (by simp [link?])
  | document _ =>
      intro group member handed inside
      obtain ⟨root, _, rfl⟩ := List.mem_map.mp member
      rw [List.mem_singleton.mp inside]
      exact built.trans (by simp [link?])
  | @entity visit own settled settles _ =>
      intro group member handed inside
      obtain ⟨declared, _, rfl⟩ := List.mem_map.mp member
      obtain ⟨child, _, rfl⟩ := List.mem_map.mp inside
      have built : visit.lineage = Lineage.ofChain above := built
      have link : link? ⟨.entity visit, .told (.begun visit) :: (own ++
          [.remembered run.session settled]), gangs, history, fate⟩
          = some (visit.desired.type, visit.placed settled) := by
        simp only [link?, placed?_entity, Option.map_some]
      rw [link, Option.toList_some, Lineage.ofChain_concat, ← built]
      rfl

/-- **Each task sees the lineage of its chain.** -/
theorem Sound.lineage_chain : ∀ {origin : Origin} {account part : Account}
    {above : List (String × Entity)}, account.Sound run → account.task.Ordered →
    account.task.lineage = Lineage.ofChain above → account.part? origin = some part →
      part.task.lineage = Lineage.ofChain (above ++ account.chain origin)
  | [], _, _, above, _, _, built, found => by
      cases found
      exact built.trans (by simp [chain, along])
  | place :: rest, account, part, above, sound, ordered, built, found => by
      obtain ⟨member, inMembers, rfl, below⟩ := member_of_part? found
      obtain ⟨sounds, orders⟩ := sound.of_member ordered member inMembers
      obtain ⟨groups, goesOn, group, inGroups, handed⟩ := sound.goesOn_of_member inMembers
      have hands := lineage_of_goesOn goesOn built group inGroups (tag member) handed
      rw [lineage_chain sounds orders hands below, List.append_assoc, chain,
        chain, sound.along_cons link? ordered inMembers]

end Account

/-- The entity has the lineage of a chain, and no type on the chain has a dot. -/
structure Visit.Follows (visit : Visit) (chain : List (String × Entity)) : Prop where
  lineage : visit.lineage = Lineage.ofChain chain
  undotted : ∀ link ∈ chain, '.' ∉ link.1.toList

/-- **An entity whose handling begins follows the chain of the tasks above it.** -/
theorem Account.Sound.follows_of_begun {run : Run} {account : Account} (sound : account.Sound run)
    (ordered : account.task.Ordered) (rootless : account.task.lineage = .empty) {origin : Origin}
    {visit : Visit} (begun : (origin, Event.told (.begun visit)) ∈ account.history) :
    visit.Follows (account.chain origin) := by
  obtain ⟨part, found, entity⟩ := sound.task_of_begun ordered begun
  have built := @lineage_chain run origin account part [] sound ordered rootless found
  rw [entity] at built
  exact ⟨built, account.chain_undotted origin⟩

namespace Run

open Lineage (ofChain deepest? Steady SpelledAlike Fills Refers)

/-- What the parent field takes its value from is the deepest entity that matches, if the chain is
steady. -/
theorem deepest_of_steady {chain : List (String × Entity)} {type : String}
    {parent : String × Entity} (inside : parent ∈ chain)
    (fits : Text.sameLetters parent.1 type = true) (steady : Steady chain type)
    (last : (ofChain chain).entries.reverse.find? (fun entry => Text.sameLetters entry.1 type)
      = some parent) : deepest? chain type = some parent := by
  cases found : deepest? chain type with
  | none => exact absurd fits (List.find?_eq_none.mp found parent (List.mem_reverse.mpr inside))
  | some deepest =>
      have same := @Lineage.last_ofChain chain (Text.sameLetters · type) deepest found
        (steady deepest found)
      exact same.symm.trans last

/-- **The ancestors that the path and the parent field of a create speak of.** An entity whose
handling begins in a run follows the chain of the tasks above it. On such a chain, of any length and
any types, let a placeholder of a type and a field be filled in from the ancestors, and let the
parent field refer to the same type and field. The path has the value of the first type, in the
order of the outermost entities, that matches without its suffix and whose deepest entity has a
value. The parent field has that of the deepest entity of some type that matches, which is the
deepest entity at all that does if the chain is steady. If all names on the chain that could mean
the type are spelled alike, both have the value of the same entity, the deepest one whose type
matches. -/
theorem path_and_parent_ancestors :
    (∀ (run : Run) (account : Account) (origin : Origin) (visit : Visit), account.Sound run →
      account.task.Ordered → account.task.lineage = .empty →
      (origin, Event.told (.begun visit)) ∈ account.history →
        visit.Follows (account.chain origin)) ∧
    ∀ (visit : Visit) (chain : List (String × Entity)) (type own : String)
      (reference : FieldReference) (shown : List Char) (sender : Entity),
      visit.Follows chain →
      Template.inAncestors? visit.lineage (type.toList ++ '.' :: reference.field.toList)
        = some shown →
      visit.blueprint.parentLink = some ⟨some own, reference⟩ →
      (if reference.entity = FieldReference.parentSentinel then own else reference.entity) = type →
      linked visit.blueprint visit.lineage visit.desired = .ok sender →
        Template.fillAncestors visit.lineage visit.blueprint.createUri.toList
          = Template.fillPlaceholders (Template.inAncestors? visit.lineage)
            visit.blueprint.createUri.toList ∧
        ∃ source parent value, Fills chain type reference.field shown source ∧
          sender.field? own = some value ∧ Refers chain type reference.field value parent ∧
          (Steady chain type → deepest? chain type = some parent) ∧
          (SpelledAlike chain type → source = parent ∧ deepest? chain type = some parent) := by
  refine ⟨fun _ _ _ _ sound ordered rootless => sound.follows_of_begun ordered rootless, ?_⟩
  intro visit chain type own reference shown sender follows filled link refers links
  refine ⟨Template.fillAncestors_eq _ _, ?_⟩
  rw [follows.lineage] at filled links
  obtain ⟨value, found, set⟩ := value_of_linked link links
  obtain ⟨parent, refersTo, last⟩ := Lineage.refers_of_value refers found
  have parentInside := List.mem_reverse.mp (List.mem_of_find?_eq_some refersTo.deepest)
  -- the type has no dot since the parent's has none, so the placeholder is read as it is meant
  have free := Text.dot_not_mem_of_sameLetters refersTo.fits (follows.undotted parent parentInside)
  obtain ⟨source, fills⟩ :=
    Lineage.fills_of_inAncestors (Template.qualified?_eq_some_iff.mpr ⟨rfl, free⟩) filled
  have sourceInside := List.mem_reverse.mp (List.mem_of_find?_eq_some fills.deepest)
  have nearest (steady : Steady chain type) : deepest? chain type = some parent :=
    deepest_of_steady parentInside refersTo.fits steady last
  refine ⟨source, parent, value, fills, set, refersTo, nearest, fun alike =>
    ⟨?_, nearest alike.steady⟩⟩
  have spelled : source.1 = parent.1 := alike source sourceInside parent parentInside
    (.inr fills.fits) (.inl refersTo.fits)
  have one := fills.deepest
  rw [spelled] at one
  exact Option.some.inj (one.symm.trans refersTo.deepest)

end Run

/-! ## Devices of accounts -/

namespace Sample

open Lineage (ofChain deepest?)

/-- An account with a uuid, of a type that is spelled as given. -/
def account (type uuid : String) : String × Entity :=
  (type, ⟨type, ⟨[("uuid", .string uuid)], List.pairwise_singleton _ _⟩, .empty, false, false⟩)

/-- A device that is created under the account that it refers to. -/
def deviceOf (chain : List (String × Entity)) : Visit where
  blueprint := { Blueprint.blank with
    name := "Device"
    createUri := "/accounts/\x7bAccount.uuid\x7d/devices/\x7bname\x7d"
    parentLink := some ⟨some "owner", ⟨"Account", "uuid"⟩⟩ }
  lineage := ofChain chain
  desired := ⟨"Device", ⟨[("name", .string "d")], List.pairwise_singleton _ _⟩, .empty, false,
    false⟩

/-- An account below another one of its type, with a site in between. -/
def branches : List (String × Entity) :=
  [account "account" "u1", account "Site" "s", account "account" "u2"]

/-- The device is created under the nearest account and refers to it. -/
theorem device_of_nearest : ∃ source sender,
    Run.linked (deviceOf branches).blueprint (deviceOf branches).lineage (deviceOf branches).desired
      = .ok sender ∧
    deepest? branches "Account" = some source ∧
    Template.shown? source.2 "uuid" = some "u2".toList ∧
    sender.field? "owner" = source.2.field? "uuid" := by
  have alike : Lineage.SpelledAlike branches "Account" := by
    unfold Lineage.SpelledAlike Lineage.Means
    decide +kernel
  have filled : Template.inAncestors? (deviceOf branches).lineage
      ("Account".toList ++ '.' :: "uuid".toList) = some "u2".toList := by decide +kernel
  have follows : (deviceOf branches).Follows branches := ⟨rfl, by decide +kernel⟩
  obtain ⟨_, source, parent, value, fills, set, refers, _, same⟩ :=
    Run.path_and_parent_ancestors.2 (deviceOf branches) branches "Account" "owner"
      ⟨"Account", "uuid"⟩ "u2".toList _ follows filled rfl rfl rfl
  obtain ⟨rfl, nearest⟩ := same alike
  exact ⟨source, _, rfl, nearest, fills.value, set.trans refers.value.symm⟩

/-- An account below another one whose type is spelled differently. -/
def mixed : List (String × Entity) := [account "Account" "u1", account "account" "u2"]

/-- The device is created under the outer account and refers to the inner one. -/
theorem device_of_two : ∃ sender,
    Run.linked (deviceOf mixed).blueprint (deviceOf mixed).lineage (deviceOf mixed).desired
      = .ok sender ∧
    Template.resolve (deviceOf mixed).lineage (deviceOf mixed).desired
      (deviceOf mixed).blueprint.createUri = .path "/accounts/u1/devices/d" ∧
    Template.inAncestors? (deviceOf mixed).lineage "Account.uuid".toList = some "u1".toList ∧
    sender.field? "owner" = some (.string "u2") ∧
    ¬ ∃ link ∈ mixed, Template.shown? link.2 "uuid" = some "u1".toList ∧
      sender.field? "owner" = link.2.field? "uuid" := by
  refine ⟨_, rfl, by decide +kernel, by decide +kernel, rfl, ?_⟩
  rintro ⟨link, member, shown, value⟩
  rcases List.mem_cons.mp member with rfl | inner
  · have same : "u2" = "u1" := Json.string.inj (Option.some.inj value)
    exact absurd same (by decide)
  · rw [List.mem_singleton.mp inner] at shown
    exact absurd shown (by decide +kernel)

end Sample

end DesiredState
