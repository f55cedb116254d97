import DesiredState.Proofs.Plan.Contract
import DesiredState.Proofs.Run.Accounting
import DesiredState.Proofs.Run.Record
import Mathlib.Data.List.Nodup

/-!
# In what order a run proceeds

The tasks of a run act side by side only where they are children of one type under one parent.
Everything else has an order: documents come one after another and so do the roots of a document,
a child comes after the call that has put its parent in place, and the children of one type come
before those of the next one in name order. A task that comes later is begun only if those before
it have succeeded, so nothing follows a failure.

**Why accounts.** What an entity asks of the server does not say whose request it is. The account
of a run attributes each event to a task, and it is true of the run only if each task has done
what its plan does (`Account.Sound`); the order is then an order of origins
(`Origin.Precedes`). All statements are proved along an origin: the history below a waypoint is
the history of the member there (`Sound.under`).
-/

set_option autoImplicit false

namespace DesiredState

open Account

/-! ## Waypoints in order -/

namespace Waypoint

theorem Precedes.asymm {first second : Waypoint} (precedes : first.Precedes second) :
    ¬ second.Precedes first := by
  cases first with
  | document first =>
      cases second with
      | document second => exact Nat.lt_asymm precedes
      | root second => exact precedes.elim
      | child type second => exact precedes.elim
  | root first =>
      cases second with
      | document second => exact precedes.elim
      | root second => exact Nat.lt_asymm precedes
      | child type second => exact precedes.elim
  | child type first =>
      cases second with
      | document second => exact precedes.elim
      | root second => exact precedes.elim
      | child type second => exact String.lt_asymm precedes

theorem Precedes.ne {first second : Waypoint} (precedes : first.Precedes second) :
    first ≠ second := by
  rintro rfl
  exact precedes.asymm precedes

end Waypoint

/-- The groups of places are in order, and those in one group are different but on a level. -/
structure Arranged (places : List (List Waypoint)) : Prop where
  apart : places.Pairwise fun group other =>
    ∀ first ∈ group, ∀ second ∈ other, first.Precedes second
  distinct : ∀ group ∈ places, group.Nodup
  level : ∀ group ∈ places, ∀ first ∈ group, ∀ second ∈ group, ¬ first.Precedes second

namespace Arranged

theorem of_prefix {places all : List (List Waypoint)} (arranged : Arranged all)
    (ahead : places <+: all) : Arranged places where
  apart := arranged.apart.sublist ahead.sublist
  distinct group member := arranged.distinct group (ahead.subset member)
  level group member := arranged.level group (ahead.subset member)

theorem tail {group : List Waypoint} {places : List (List Waypoint)}
    (arranged : Arranged (group :: places)) : Arranged places where
  apart := (List.pairwise_cons.mp arranged.apart).2
  distinct other member := arranged.distinct other (List.mem_cons_of_mem _ member)
  level other member := arranged.level other (List.mem_cons_of_mem _ member)

theorem head {group : List Waypoint} {places : List (List Waypoint)}
    (arranged : Arranged (group :: places)) :
    ∀ first ∈ group, ∀ second ∈ places.flatten, first.Precedes second := by
  intro first here second there
  obtain ⟨other, inPlaces, inside⟩ := List.mem_flatten.mp there
  exact (List.pairwise_cons.mp arranged.apart).1 other inPlaces first here second inside

/-- No place occurs twice. -/
theorem nodup {places : List (List Waypoint)} (arranged : Arranged places) :
    places.flatten.Nodup := by
  rw [List.nodup_flatten]
  refine ⟨arranged.distinct, arranged.apart.imp ?_⟩
  intro group other apart place here there
  exact (apart place here place there).ne rfl

/-- Things numbered one by one are in order. -/
theorem of_numbered {ι : Type} (place : Nat → Waypoint)
    (increase : ∀ first second, first < second → (place first).Precedes (place second))
    (items : List ι) : Arranged (items.zipIdx.map fun item => [place item.2]) where
  apart := by
    have numbers : items.zipIdx.Pairwise fun first second => first.2 < second.2 := by
      rw [← List.pairwise_map (f := Prod.snd), List.zipIdx_map_snd]
      exact List.pairwise_lt_range'
    rw [List.pairwise_map]
    refine numbers.imp ?_
    intro first second less
    simpa using increase _ _ less
  distinct := by
    intro group member
    obtain ⟨item, _, rfl⟩ := List.mem_map.mp member
    exact List.nodup_singleton _
  level := by
    intro group member first here second there
    obtain ⟨item, _, rfl⟩ := List.mem_map.mp member
    rw [List.mem_singleton.mp here, List.mem_singleton.mp there]
    exact fun precedes => precedes.ne rfl

end Arranged

/-! ## What is handed out is in order -/

/-- The blueprint of an entity that is handled was read, so its child types are in order. -/
def Task.Ordered : Task → Prop
  | .catalog _ => True
  | .document _ _ => True
  | .entity visit => visit.blueprint.Ordered

namespace Run

@[simp] theorem sends_logSkipped {className : String} {nodes : List Json} {sent : List Call}
    {value : Unit} : (logSkipped className nodes).Sends sent value ↔ sent = [] := by
  unfold logSkipped
  induction Document.skipped nodes with
  | nil => exact ⟨fun sends => sends.1, fun none => ⟨none, rfl⟩⟩
  | cons node skipped ih => exact Plan.sends_log_bind.trans ih

/-- Reading a document sends nothing. -/
theorem sends_readDocument {className text : String} {sent : List Call} {entities : List Entity} :
    (readDocument className text).Sends sent entities ↔
      ∃ nodes, Document.nodes? text = some nodes ∧
        entities = Document.entities className nodes ∧ sent = [] := by
  unfold readDocument
  split
  · rename_i unread
    simp [unread]
  · rename_i nodes spelled
    simp [spelled, and_comm]

end Run

namespace Task

variable {run : Run}

/-- The blueprint that a document is opened with was fetched. -/
theorem fetches_of_opening {type text : String} {own : List Event} {blueprint : Blueprint}
    {entities : List Entity}
    (opens : (run.opening type text).Takes run (.ofEvents own .idle)
      (some (.value (blueprint, entities)))) :
    ∃ nodes, Run.Fetches run type (calls own) blueprint ∧ Document.nodes? text = some nodes ∧
      entities = Document.entities (blueprint.rootClassName type) nodes := by
  have sends := opens.sends_own (Run.solitary_opening type text)
  generalize calls own = sent at sends ⊢
  rw [Run.opening, Plan.sends_bind] at sends
  obtain ⟨_, _, _, rfl, before, goesOn⟩ := sends
  rw [Plan.sends_bind] at goesOn
  obtain ⟨_, _, _, rfl, fetches, goesOn⟩ := goesOn
  rw [Plan.sends_bind] at goesOn
  obtain ⟨_, _, _, rfl, after, goesOn⟩ := goesOn
  rw [Plan.sends_bind] at goesOn
  obtain ⟨_, _, _, rfl, reads, goesOn⟩ := goesOn
  rw [Plan.sends_log_bind] at goesOn
  obtain ⟨rfl, same⟩ := goesOn
  cases same
  rw [Run.sends_readDocument] at reads
  obtain ⟨nodes, spelled, rfl, rfl⟩ := reads
  rw [Run.sends_observe before, Run.sends_observe after]
  exact ⟨nodes, by simpa using Run.sends_fetchBlueprint fetches, spelled, rfl⟩

/-- The children of one type stand at places of this type. -/
theorem place_of_brood {declared : String × Blueprint} {lineage : Lineage} {children : List Entity}
    {place : Waypoint} (member : place ∈ (brood declared lineage children).map (·.1)) :
    ∃ number, place = .child declared.1 number := by
  rw [brood, List.map_map] at member
  obtain ⟨child, _, rfl⟩ := List.mem_map.mp member
  exact ⟨child.2, rfl⟩

/-- The children of one type stand at different places. -/
theorem nodup_brood (declared : String × Blueprint) (lineage : Lineage) (children : List Entity) :
    ((brood declared lineage children).map (·.1)).Nodup := by
  have numbers : (brood declared lineage children).map (·.1)
      = (children.zipIdx.map Prod.snd).map (.child declared.1) := by
    rw [brood, List.map_map, List.map_map]
    rfl
  rw [numbers, List.zipIdx_map_snd]
  exact List.Nodup.map (fun _ _ same => (Waypoint.child.inj same).2) List.nodup_range'

/-- Children are handed out in the order of their types. -/
theorem arranged_broods {visit : Visit} (ordered : visit.blueprint.Ordered) (settled : Entity) :
    Arranged ((broods visit settled).map (·.map (·.1))) where
  apart := by
    rw [broods, List.map_map, List.pairwise_map]
    refine ordered.increase.imp ?_
    intro declared other less first here second there
    obtain ⟨_, rfl⟩ := place_of_brood here
    obtain ⟨_, rfl⟩ := place_of_brood there
    exact less
  distinct := by
    rw [broods, List.map_map]
    intro group member
    obtain ⟨declared, _, rfl⟩ := List.mem_map.mp member
    exact nodup_brood declared _ _
  level := by
    rw [broods, List.map_map]
    intro group member first here second there precedes
    obtain ⟨declared, _, rfl⟩ := List.mem_map.mp member
    obtain ⟨_, rfl⟩ := place_of_brood here
    obtain ⟨_, rfl⟩ := place_of_brood there
    exact String.lt_irrefl declared.1 precedes

/-- **What a task hands out is in order, and what is handed out is so in turn.** -/
theorem GoesOn.arranged {task : Task} {own : List Event} {groups : List (List (Waypoint × Task))}
    (goesOn : task.GoesOn run own groups) (ordered : task.Ordered) :
    Arranged (groups.map (·.map (·.1))) ∧
      ∀ group ∈ groups, ∀ handed ∈ group, handed.2.Ordered := by
  cases goesOn with
  | catalog documents =>
      refine ⟨?_, ?_⟩
      · rw [Task.documents, List.map_map]
        exact .of_numbered .document (fun _ _ less => less) documents
      · intro group member handed inside
        obtain ⟨named, _, rfl⟩ := List.mem_map.mp member
        rw [List.mem_singleton.mp inside]
        exact trivial
  | document opens =>
      obtain ⟨_, fetches, _⟩ := fetches_of_opening opens
      refine ⟨?_, ?_⟩
      · rw [Task.roots, List.map_map]
        exact .of_numbered .root (fun _ _ less => less) _
      · intro group member handed inside
        obtain ⟨root, _, rfl⟩ := List.mem_map.mp member
        rw [List.mem_singleton.mp inside]
        exact fetches.ordered
  | @entity visit own settled _ _ =>
      have ordered : visit.blueprint.Ordered := ordered
      refine ⟨arranged_broods ordered settled, ?_⟩
      · intro group member handed inside
        obtain ⟨declared, inTypes, rfl⟩ := List.mem_map.mp member
        obtain ⟨child, _, rfl⟩ := List.mem_map.mp inside
        exact ordered.each declared inTypes

end Task

/-! ## Histories below a waypoint -/

namespace History

/-- The events below a waypoint, as the task there sees them. -/
def under (history : History) (place : Waypoint) : History :=
  history.filterMap fun entry =>
    match entry.1 with
    | [] => none
    | head :: rest => if head = place then some (rest, entry.2) else none

variable {place : Waypoint}

@[simp] theorem under_append (first second : History) :
    History.under (first ++ second) place = first.under place ++ second.under place :=
  List.filterMap_append

@[simp] theorem under_stay (events : List Event) :
    History.under (events.map stay) place = [] := by
  induction events with
  | nil => rfl
  | cons event events ih => exact ih

theorem under_cons_same (rest : Origin) (event : Event) (history : History) :
    History.under ((place :: rest, event) :: history) place
      = (rest, event) :: history.under place := by
  simp [under]

@[simp] theorem under_thread_same (member : Waypoint × Account) :
    History.under (thread member) member.1 = member.2.history := by
  rw [under, thread, List.filterMap_map]
  simp [Function.comp_def, enter]

theorem under_thread_other {member : Waypoint × Account} (other : member.1 ≠ place) :
    History.under (thread member) place = [] := by
  rw [under, thread, List.filterMap_map, List.filterMap_eq_nil_iff]
  intro entry _
  simp [enter, other]

@[simp] theorem own_append (first second : History) (origin : Origin) :
    History.own (first ++ second) origin = first.own origin ++ second.own origin :=
  List.filterMap_append

@[simp] theorem own_stay (events : List Event) : History.own (events.map stay) [] = events := by
  induction events with
  | nil => rfl
  | cons event events ih => simpa [own, stay] using ih

/-- What a task below did itself is seen below its waypoint. -/
theorem own_cons (history : History) (rest : Origin) :
    history.own (place :: rest) = (history.under place).own rest := by
  rw [own, own, under, List.filterMap_filterMap]
  refine List.filterMap_congr ?_
  rintro ⟨_ | ⟨head, others⟩, event⟩ _
  · rfl
  · by_cases here : head = place
    · simp [here]
    · simp [here]

theorem own_eq_nil {history : History} (placed : ∀ entry ∈ history, entry.1 ≠ []) :
    history.own [] = [] := by
  refine List.filterMap_eq_nil_iff.mpr ?_
  intro entry member
  rw [if_neg (placed entry member)]

end History

namespace Account

variable {run : Run}

/-! ## Groups one after another -/

/-- Events of one task are of no other one. -/
theorem pairwise_stay {above : Origin} (events : List Event) :
    (events.map stay).Pairwise fun earlier later =>
      ¬ Origin.PrecedesAt above later.1 earlier.1 := by
  rw [List.pairwise_map]
  refine List.pairwise_of_forall ?_
  rintro earlier later ⟨_, _, _, _, nothing, _⟩
  exact List.append_ne_nil_of_right_ne_nil _ (List.cons_ne_nil _ _) nothing.symm

namespace Sequel

variable {groups : List (List (Waypoint × Task))} {gangs : List (List (Waypoint × Account))}
  {history : History} {fate : Fate}

/-- Groups are handed out in order and as a whole. -/
theorem handed (sequel : Sequel groups gangs history fate) : gangs.map (·.map tag) <+: groups := by
  induction sequel with
  | pending groups => exact List.nil_prefix
  | through => exact List.nil_prefix
  | last closing handed _ _ _ _ =>
      rw [← handed]
      exact ⟨_, rfl⟩
  | next handed _ _ _ ih =>
      rw [List.map_cons, handed]
      exact List.prefix_cons_inj _ |>.mpr ih

theorem places (sequel : Sequel groups gangs history fate)
    (arranged : Arranged (groups.map (·.map (·.1)))) : Arranged (gangs.map (·.map (·.1))) := by
  refine arranged.of_prefix ?_
  have ahead := sequel.handed.map (·.map (·.1))
  simpa [Function.comp_def, tag] using ahead

/-- An event of a braid is one of a member. -/
theorem origin_of_braid {gang : List (Waypoint × Account)} {braid : History}
    (braids : Braids (gang.map thread) braid) :
    ∀ entry ∈ braid, ∃ member ∈ gang, ∃ rest, entry.1 = member.1 :: rest := by
  intro entry inside
  obtain ⟨thread, inGang, inThread⟩ := List.mem_flatten.mp (braids.perm.mem_iff.mp inside)
  obtain ⟨member, here, rfl⟩ := List.mem_map.mp inGang
  obtain ⟨inner, _, rfl⟩ := List.mem_map.mp inThread
  exact ⟨member, here, _, rfl⟩

/-- An event of groups one after another is one of a member, or of the task itself. -/
theorem origin (sequel : Sequel groups gangs history fate) :
    ∀ entry ∈ history, entry.1 = [] ∨
      ∃ member ∈ gangs.flatten, ∃ rest, entry.1 = member.1 :: rest := by
  induction sequel with
  | pending groups => exact List.forall_mem_nil _
  | through => exact List.forall_mem_nil _
  | last closing _ braids _ _ _ =>
      intro entry inside
      rcases List.mem_append.mp inside with here | there
      · obtain ⟨member, inGang, rest, same⟩ := origin_of_braid braids entry here
        exact .inr ⟨member, by simpa using inGang, rest, same⟩
      · obtain ⟨event, _, rfl⟩ := List.mem_map.mp there
        exact .inl rfl
  | next _ braids _ _ ih =>
      intro entry inside
      rw [List.flatten_cons]
      rcases List.mem_append.mp inside with here | there
      · obtain ⟨member, inGang, rest, same⟩ := origin_of_braid braids entry here
        exact .inr ⟨member, List.mem_append_left _ inGang, rest, same⟩
      · rcases ih entry there with own | ⟨member, inGangs, rest, same⟩
        · exact .inl own
        · exact .inr ⟨member, List.mem_append_right _ inGangs, rest, same⟩

/-- After the events of the tasks below, the crew may have been given up. -/
theorem closing (sequel : Sequel groups gangs history fate) :
    ∃ placed closing, history = placed ++ closing.map stay ∧
      (∀ entry ∈ placed, entry.1 ≠ []) ∧ (closing = [] ∨ closing = [.gaveUp]) := by
  have threads : ∀ {gang : List (Waypoint × Account)} {braid : History},
      Braids (gang.map thread) braid → ∀ entry ∈ braid, entry.1 ≠ [] := by
    intro gang braid braids entry inside
    obtain ⟨member, _, rest, same⟩ := origin_of_braid braids entry inside
    rw [same]
    exact List.cons_ne_nil _ _
  induction sequel with
  | pending groups => exact ⟨[], [], rfl, List.forall_mem_nil _, .inl rfl⟩
  | through => exact ⟨[], [], rfl, List.forall_mem_nil _, .inl rfl⟩
  | @last _ _ _ braid _ closing _ braids quiet _ _ =>
      exact ⟨braid, closing, rfl, threads braids, quiet⟩
  | @next _ _ _ _ braid _ _ _ braids _ _ ih =>
      obtain ⟨placed, closing, rfl, origins, quiet⟩ := ih
      exact ⟨braid ++ placed, closing, (List.append_assoc _ _ _).symm,
        List.forall_mem_append.mpr ⟨threads braids, origins⟩, quiet⟩

/-- The history below a place that was not handed out is empty. -/
theorem under_absent {place : Waypoint} (sequel : Sequel groups gangs history fate)
    (absent : ∀ member ∈ gangs.flatten, member.1 ≠ place) : history.under place = [] := by
  have threads : ∀ {gang : List (Waypoint × Account)} {braid : History},
      Braids (gang.map thread) braid → (∀ member ∈ gang, member.1 ≠ place) →
      braid.under place = [] := by
    intro gang braid braids absent
    refine (braids.filterMap _).eq_nil ?_
    intro picked inGang
    rw [List.map_map] at inGang
    obtain ⟨member, inside, rfl⟩ := List.mem_map.mp inGang
    exact History.under_thread_other (absent member inside)
  induction sequel with
  | pending groups => rfl
  | through => rfl
  | last closing _ braids _ _ _ =>
      rw [History.under_append, History.under_stay, List.append_nil]
      exact threads braids (by simpa using absent)
  | next _ braids _ _ ih =>
      rw [List.flatten_cons, List.forall_mem_append] at absent
      rw [History.under_append, threads braids absent.1, ih absent.2]
      rfl

/-- **The history below a place is that of the member there.** -/
theorem under (sequel : Sequel groups gangs history fate) :
    Arranged (gangs.map (·.map (·.1))) → ∀ member ∈ gangs.flatten,
      history.under member.1 = member.2.history := by
  have threads : ∀ {gang : List (Waypoint × Account)} {braid : History},
      Braids (gang.map thread) braid → (gang.map (·.1)).Nodup → ∀ member ∈ gang,
      braid.under member.1 = member.2.history := by
    intro gang braid braids distinct member inside
    rw [← History.under_thread_same member]
    exact braids.filterMap_eq distinct member inside fun other _ apart =>
      History.under_thread_other apart
  induction sequel with
  | pending groups => exact fun _ => List.forall_mem_nil _
  | through => exact fun _ => List.forall_mem_nil _
  | last closing _ braids _ _ _ =>
      intro arranged member inside
      rw [List.flatten_singleton] at inside
      rw [History.under_append, History.under_stay, List.append_nil]
      exact threads braids (arranged.distinct _ List.mem_cons_self) member inside
  | @next _ _ gang gangs _ _ _ _ braids _ later ih =>
      intro arranged member inside
      have apart : ∀ first ∈ gang, ∀ second ∈ gangs.flatten, first.1 ≠ second.1 := by
        intro first here second there
        refine (arranged.head first.1 (List.mem_map_of_mem here) second.1 ?_).ne
        rw [← List.map_flatten]
        exact List.mem_map_of_mem there
      rw [History.under_append]
      rcases List.mem_append.mp inside with here | there
      · rw [threads braids (arranged.distinct _ List.mem_cons_self) member here,
          later.under_absent fun other inLater same => apart member here other inLater same.symm,
          List.append_nil]
      · have nothing : History.under _ member.1 = [] := (braids.filterMap _).eq_nil ?_
        · rw [nothing, ih arranged.tail member there, List.nil_append]
        · intro picked inGang
          rw [List.map_map] at inGang
          obtain ⟨other, inside, rfl⟩ := List.mem_map.mp inGang
          exact History.under_thread_other (apart other inside member there)

/-- What comes after a member has not been handed out before the member succeeded. -/
theorem past (sequel : Sequel groups gangs history fate) :
    Arranged (gangs.map (·.map (·.1))) → ∀ first ∈ gangs.flatten, ∀ second ∈ gangs.flatten,
      first.1.Precedes second.1 → first.2.fate = .succeeded := by
  induction sequel with
  | pending groups => exact fun _ => List.forall_mem_nil _
  | through => exact fun _ => List.forall_mem_nil _
  | last closing _ _ _ _ _ =>
      intro arranged first here second there precedes
      rw [List.flatten_singleton] at here there
      exact absurd precedes (arranged.level _ List.mem_cons_self _ (List.mem_map_of_mem here) _
        (List.mem_map_of_mem there))
  | @next _ _ gang gangs _ _ _ _ _ well _ ih =>
      intro arranged first here second there precedes
      rcases List.mem_append.mp here with ahead | behind
      · exact well first ahead
      · rcases List.mem_append.mp there with before | after
        · refine absurd precedes (Waypoint.Precedes.asymm (arranged.head second.1
            (List.mem_map_of_mem before) first.1 ?_))
          rw [← List.map_flatten]
          exact List.mem_map_of_mem behind
        · exact ih arranged.tail first behind second after precedes

/-- Groups come in their order. -/
theorem pairwise (sequel : Sequel groups gangs history fate) :
    Arranged (gangs.map (·.map (·.1))) →
      history.Pairwise fun earlier later => ¬ Origin.PrecedesAt [] later.1 earlier.1 := by
  have level : ∀ {gang : List (Waypoint × Account)} {places : List (List Waypoint)}
      {braid : History}, Arranged (gang.map (·.1) :: places) → Braids (gang.map thread) braid →
      braid.Pairwise fun earlier later => ¬ Origin.PrecedesAt [] later.1 earlier.1 := by
    intro gang places braid arranged braids
    refine List.pairwise_of_forall_mem_list ?_
    rintro earlier here later there ⟨turn, other, _, _, first, second, precedes⟩
    obtain ⟨one, inGang, _, same⟩ := origin_of_braid braids later there
    obtain ⟨two, also, _, alike⟩ := origin_of_braid braids earlier here
    rw [same] at first
    rw [alike] at second
    rw [← (List.cons.inj first).1, ← (List.cons.inj second).1] at precedes
    exact arranged.level _ List.mem_cons_self _ (List.mem_map_of_mem inGang) _
      (List.mem_map_of_mem also) precedes
  induction sequel with
  | pending groups => exact fun _ => .nil
  | through => exact fun _ => .nil
  | last closing _ braids _ _ _ =>
      intro arranged
      refine List.pairwise_append.mpr ⟨level arranged braids, ?_, ?_⟩
      · exact pairwise_stay closing
      · rintro earlier _ later there ⟨_, _, _, _, nothing, _⟩
        obtain ⟨event, _, rfl⟩ := List.mem_map.mp there
        exact List.cons_ne_nil _ _ nothing.symm
  | @next _ _ gang gangs _ _ _ _ braids _ later ih =>
      intro arranged
      refine List.pairwise_append.mpr ⟨level arranged braids, ih arranged.tail, ?_⟩
      rintro one here two there ⟨turn, other, _, _, first, second, precedes⟩
      obtain ⟨earlier, inGang, _, same⟩ := origin_of_braid braids one here
      rcases later.origin two there with own | ⟨behind, inGangs, _, alike⟩
      · rw [own] at first
        exact List.cons_ne_nil _ _ first.symm
      · rw [alike] at first
        rw [same] at second
        rw [← (List.cons.inj first).1, ← (List.cons.inj second).1] at precedes
        refine precedes.asymm (arranged.head _ (List.mem_map_of_mem inGang) _ ?_)
        rw [← List.map_flatten]
        exact List.mem_map_of_mem inGangs

/-- When all groups are through, all members have succeeded. -/
theorem succeeded (sequel : Sequel groups gangs history .succeeded) :
    ∀ member ∈ gangs.flatten, member.2.fate = .succeeded := by
  generalize well : Fate.succeeded = fate at sequel
  induction sequel with
  | pending groups => exact List.forall_mem_nil _
  | through => exact List.forall_mem_nil _
  | last closing _ _ _ short _ => exact absurd well.symm short
  | next _ _ each _ ih =>
      rw [List.flatten_cons]
      exact List.forall_mem_append.mpr ⟨well ▸ each, well ▸ ih well⟩

end Sequel

/-! ## Accounts -/

namespace Sound

variable {account : Account}

/-- A true account in the terms of its parts. -/
theorem form (sound : account.Sound run) :
    (account.gangs = [] ∧ account.history = account.own.map stay ∧
      account.task.Stops run account.own account.fate) ∨
    ∃ groups history, account.task.GoesOn run account.own groups ∧
      Sequel groups account.gangs history account.fate ∧
      account.history = account.own.map stay ++ history := by
  cases sound with
  | stopped stops => exact .inl ⟨rfl, rfl, stops⟩
  | handing goesOn sequel _ => exact .inr ⟨_, _, goesOn, sequel, rfl⟩

/-- A document that is through has handed out its roots. -/
theorem handing_of_document (sound : account.Sound run) {type text : String}
    (document : account.task = .document type text) (well : account.fate = .succeeded) :
    ∃ groups history, (Task.document type text).GoesOn run account.own groups ∧
      Sequel groups account.gangs history .succeeded ∧
      account.history = account.own.map stay ++ history := by
  have shape := sound.form
  rw [document, well] at shape
  rcases shape with ⟨_, _, stops⟩ | handing
  · generalize through : Fate.succeeded = fate at stops
    cases stops with
    | unopened _ short => exact absurd through.symm short
  · exact handing

/-- The accounts of the members are true, and what they were handed is in order. -/
theorem of_member (sound : account.Sound run) (ordered : account.task.Ordered) :
    ∀ member ∈ account.members, member.2.Sound run ∧ member.2.task.Ordered := by
  cases sound with
  | stopped _ => exact List.forall_mem_nil _
  | @handing task own groups gangs history fate goesOn sequel each =>
      intro member inside
      obtain ⟨gang, inGangs, inGang⟩ := List.mem_flatten.mp inside
      refine ⟨each gang inGangs member inGang, ?_⟩
      have handed := sequel.handed.subset (List.mem_map_of_mem inGangs)
      exact (goesOn.arranged ordered).2 _ handed _ (List.mem_map_of_mem inGang)

theorem arranged (sound : account.Sound run) (ordered : account.task.Ordered) :
    Arranged (account.gangs.map (·.map (·.1))) := by
  rcases sound.form with ⟨none, _, _⟩ | ⟨groups, history, goesOn, sequel, _⟩
  · rw [none]
    exact ⟨.nil, List.forall_mem_nil _, List.forall_mem_nil _⟩
  · exact sequel.places (goesOn.arranged ordered).1

/-- **The history below a waypoint is that of the member there.** -/
theorem under (sound : account.Sound run) (ordered : account.task.Ordered) :
    ∀ member ∈ account.members, account.history.under member.1 = member.2.history := by
  intro member inside
  have arranged := sound.arranged ordered
  rcases sound.form with ⟨none, _, _⟩ | ⟨groups, history, _, sequel, same⟩
  · rw [members, none] at inside
    nomatch inside
  · rw [same, History.under_append, History.under_stay, sequel.under arranged member inside]
    rfl

/-- An event below a waypoint is one of the member there. -/
theorem member_of_under (sound : account.Sound run) {place : Waypoint}
    (some : account.history.under place ≠ []) : ∃ member ∈ account.members, member.1 = place := by
  by_contra absent
  push Not at absent
  rcases sound.form with ⟨_, same, _⟩ | ⟨groups, history, _, sequel, same⟩
  · rw [same, History.under_stay] at some
    exact some rfl
  · rw [same, History.under_append, History.under_stay, sequel.under_absent absent] at some
    exact some rfl

/-- The task at the end of a way is found at the member at its first waypoint. -/
theorem part?_cons (sound : account.Sound run) (ordered : account.task.Ordered)
    {member : Waypoint × Account} (inside : member ∈ account.members) (rest : Origin) :
    account.part? (member.1 :: rest) = member.2.part? rest := by
  have distinct := (sound.arranged ordered).nodup
  rw [← List.map_flatten] at distinct
  cases found : account.members.find? fun other => other.1 = member.1 with
  | none =>
      have nobody := List.find?_eq_none.mp found member inside
      simp at nobody
  | some other =>
      have here : other.1 = member.1 := by simpa using List.find?_some found
      obtain rfl := List.inj_on_of_nodup_map distinct (List.mem_of_find?_eq_some found) inside here
      rw [part?, found]
      rfl

/-- A way leads through a member. -/
theorem member_of_part? {place : Waypoint} {rest : Origin} {part : Account}
    (found : account.part? (place :: rest) = some part) :
    ∃ member ∈ account.members, member.1 = place ∧ member.2.part? rest = some part := by
  rw [part?] at found
  obtain ⟨member, here, there⟩ := Option.bind_eq_some_iff.mp found
  exact ⟨member, List.mem_of_find?_eq_some here, by simpa using List.find?_some here, there⟩

/-- Every event is of a task of the account. -/
theorem known : ∀ {origin : Origin} {account : Account}, account.Sound run →
    account.task.Ordered → ∀ event, (origin, event) ∈ account.history →
    (account.part? origin).isSome
  | [], _, _, _, _, _ => rfl
  | place :: rest, account, sound, ordered, event, inside => by
      have below : (rest, event) ∈ account.history.under place :=
        List.mem_filterMap.mpr ⟨_, inside, by simp⟩
      obtain ⟨member, inMembers, rfl⟩ := sound.member_of_under (List.ne_nil_of_mem below)
      rw [sound.under ordered member inMembers] at below
      obtain ⟨sounds, orders⟩ := sound.of_member ordered member inMembers
      rw [sound.part?_cons ordered inMembers]
      exact known sounds orders event below

/-- What a task did itself is what the history says of its origin, and then its crew may have been
given up. -/
theorem own : ∀ {origin : Origin} {account part : Account}, account.Sound run →
    account.task.Ordered → account.part? origin = some part →
    ∃ closing, account.history.own origin = part.own ++ closing ∧
      (closing = [] ∨ closing = [.gaveUp])
  | [], account, _, sound, _, found => by
      cases found
      rcases sound.form with ⟨_, same, _⟩ | ⟨_, _, _, sequel, same⟩
      · exact ⟨[], by rw [same, History.own_stay, List.append_nil], .inl rfl⟩
      · obtain ⟨placed, closing, rfl, origins, quiet⟩ := sequel.closing
        refine ⟨closing, ?_, quiet⟩
        rw [same, History.own_append, History.own_append, History.own_stay, History.own_stay,
          History.own_eq_nil origins]
        rfl
  | place :: rest, account, _, sound, ordered, found => by
      obtain ⟨member, inMembers, rfl, below⟩ := member_of_part? found
      obtain ⟨sounds, orders⟩ := sound.of_member ordered member inMembers
      rw [History.own_cons, sound.under ordered member inMembers]
      exact own sounds orders below

/-- A task that succeeded has handed out tasks that succeeded. -/
theorem succeeded : ∀ {origin : Origin} {account part : Account}, account.Sound run →
    account.task.Ordered → account.fate = .succeeded → account.part? origin = some part →
    part.fate = .succeeded
  | [], _, _, _, _, well, found => by
      cases found
      exact well
  | place :: rest, account, _, sound, ordered, well, found => by
      obtain ⟨member, inMembers, rfl, below⟩ := member_of_part? found
      obtain ⟨sounds, orders⟩ := sound.of_member ordered member inMembers
      refine succeeded sounds orders ?_ below
      rcases sound.form with ⟨none, _, _⟩ | ⟨_, _, _, sequel, _⟩
      · rw [members, none] at inMembers
        nomatch inMembers
      · rw [well] at sequel
        exact sequel.succeeded member inMembers

/-! ## The order of a history -/

/-- At every turn the earlier tasks come first. -/
theorem pairwise_of_precedesAt : ∀ {above : Origin} {account : Account}, account.Sound run →
    account.task.Ordered →
    account.history.Pairwise fun earlier later => ¬ Origin.PrecedesAt above later.1 earlier.1
  | [], account, sound, ordered => by
      rcases sound.form with ⟨_, same, _⟩ | ⟨_, history, goesOn, sequel, same⟩
      · rw [same]
        exact pairwise_stay _
      · rw [same, List.pairwise_append]
        refine ⟨pairwise_stay _, sequel.pairwise (sound.arranged ordered), ?_⟩
        rintro _ inOwn later _ ⟨_, _, _, _, _, nothing, _⟩
        obtain ⟨event, _, rfl⟩ := List.mem_map.mp inOwn
        exact List.cons_ne_nil _ _ nothing.symm
  | place :: above, account, sound, ordered => by
      have inside : (account.history.under place).Pairwise fun earlier later =>
          ¬ Origin.PrecedesAt above later.1 earlier.1 := by
        by_cases below : account.history.under place = []
        · rw [below]
          exact .nil
        · obtain ⟨member, inMembers, rfl⟩ := sound.member_of_under below
          obtain ⟨sounds, orders⟩ := sound.of_member ordered member inMembers
          rw [sound.under ordered member inMembers]
          exact pairwise_of_precedesAt sounds orders
      rw [History.under, List.pairwise_filterMap] at inside
      refine inside.imp ?_
      rintro ⟨_, first⟩ ⟨_, second⟩ apart ⟨turn, other, rest, others, rfl, rfl, precedes⟩
      exact apart _ (if_pos rfl) _ (if_pos rfl) ⟨turn, other, rest, others, rfl, rfl, precedes⟩

/-- **Earlier tasks come first.** -/
theorem pairwise (sound : account.Sound run) (ordered : account.task.Ordered) :
    account.history.Pairwise fun earlier later => ¬ Origin.Precedes later.1 earlier.1 := by
  rw [List.pairwise_iff_getElem]
  rintro one two first second less ⟨above, precedes⟩
  have apart : account.history.Pairwise fun earlier later =>
      ¬ Origin.PrecedesAt above later.1 earlier.1 := pairwise_of_precedesAt sound ordered
  exact List.pairwise_iff_getElem.mp apart one two first second less precedes

/-- **A task has done what it does itself before the first event of a task that it handed out.** -/
theorem parent_first : ∀ {origin : Origin} {account : Account} {before after : History}
    {place : Waypoint} {rest : Origin} {event : Event}, account.Sound run →
    account.task.Ordered → account.history = before ++ (origin ++ place :: rest, event) :: after →
    ∃ parent groups, account.part? origin = some parent ∧
      parent.task.GoesOn run parent.own groups ∧ before.own origin = parent.own ∧
      calls (after.own origin) = []
  | [], account, before, after, place, rest, event, sound, ordered, split => by
      have elsewhere : ∀ {events : List Event} {ahead behind : History},
          events.map stay ≠ ahead ++ (place :: rest, event) :: behind := by
        intro events ahead behind same
        have member : (place :: rest, event) ∈ events.map stay := by
          rw [same]
          exact List.mem_append_right _ List.mem_cons_self
        obtain ⟨_, _, own⟩ := List.mem_map.mp member
        exact List.cons_ne_nil _ _ (congrArg Prod.fst own).symm
      rcases sound.form with ⟨_, same, _⟩ | ⟨groups, history, goesOn, sequel, same⟩
      · exact absurd (same.symm.trans split) elsewhere
      · obtain ⟨placed, closing, rfl, origins, quiet⟩ := sequel.closing
        rcases split_append (split.symm.trans same) with ⟨_, own⟩ | ⟨behind, rfl, later⟩
        · exact absurd own elsewhere
        · rcases split_append later.symm with ⟨others, rfl⟩ | ⟨_, _, own⟩
          · have rest_eq : after = others ++ closing.map stay := by
              simpa using later.symm
            rw [List.forall_mem_append, List.forall_mem_cons] at origins
            refine ⟨account, groups, rfl, goesOn, ?_, ?_⟩
            · rw [History.own_append, History.own_stay, History.own_eq_nil origins.1,
                List.append_nil]
            · rw [rest_eq, History.own_append, History.own_stay, History.own_eq_nil origins.2.2]
              rcases quiet with rfl | rfl
              · rfl
              · rfl
          · exact absurd own elsewhere
  | turn :: origin, account, before, after, place, rest, event, sound, ordered, split => by
      have below : account.history.under turn = before.under turn ++
          (origin ++ place :: rest, event) :: after.under turn := by
        rw [split, History.under_append]
        exact congrArg _ (History.under_cons_same _ _ _)
      obtain ⟨member, inMembers, rfl⟩ := sound.member_of_under (by rw [below]; simp)
      obtain ⟨sounds, orders⟩ := sound.of_member ordered member inMembers
      rw [sound.under ordered member inMembers] at below
      obtain ⟨parent, groups, found, goesOn, done, nothing⟩ := parent_first sounds orders below
      refine ⟨parent, groups, ?_, goesOn, ?_, ?_⟩
      · rw [sound.part?_cons ordered inMembers, found]
      · rw [History.own_cons, done]
      · rw [History.own_cons, nothing]

/-- **Nothing comes after a task that has not succeeded.** -/
theorem nothing_after : ∀ {above origin : Origin} {account part : Account}, account.Sound run →
    account.task.Ordered → account.part? origin = some part → part.fate ≠ .succeeded →
    ∀ entry ∈ account.history, ¬ Origin.PrecedesAt above origin entry.1
  | [], _, account, part, sound, ordered, found, short, entry, inside => by
      rintro ⟨turn, other, rest, others, rfl, same, precedes⟩
      obtain ⟨first, inMembers, rfl, below⟩ := member_of_part? found
      have somewhere : (others, entry.2) ∈ account.history.under other := by
        refine List.mem_filterMap.mpr ⟨entry, inside, ?_⟩
        rw [same]
        exact if_pos rfl
      obtain ⟨second, also, rfl⟩ := sound.member_of_under (List.ne_nil_of_mem somewhere)
      obtain ⟨sounds, orders⟩ := sound.of_member ordered first inMembers
      refine short (succeeded sounds orders ?_ below)
      rcases sound.form with ⟨none, _, _⟩ | ⟨_, _, goesOn, sequel, _⟩
      · rw [members, none] at inMembers
        nomatch inMembers
      · exact sequel.past (sound.arranged ordered) first inMembers second also precedes
  | place :: above, _, account, part, sound, ordered, found, short, entry, inside => by
      rintro ⟨turn, other, rest, others, rfl, same, precedes⟩
      obtain ⟨member, inMembers, rfl, below⟩ := member_of_part? found
      obtain ⟨sounds, orders⟩ := sound.of_member ordered member inMembers
      have there : (above ++ other :: others, entry.2) ∈ member.2.history := by
        rw [← sound.under ordered member inMembers]
        refine List.mem_filterMap.mpr ⟨entry, inside, ?_⟩
        rw [same]
        exact if_pos rfl
      exact nothing_after sounds orders below short _ there
        ⟨turn, other, rest, others, rfl, rfl, precedes⟩

end Sound

end Account

/-! ## What puts an entity in place -/

namespace Run

/-- The last of the calls has put the entity of a visit in place. -/
inductive Materializes (run : Run) (visit : Visit) : List Call → Prop
  /-- A dry run goes on with an entity that cannot be looked up. -/
  | unasked (dry : run.dry = true)
      (unable : lookupAddress? visit.blueprint visit.lineage visit.desired = none) :
      Materializes run visit []
  /-- The lookup has found the entity. -/
  | found {uri : String} {response : Response}
      (address : lookupAddress? visit.blueprint visit.lineage visit.desired = some uri)
      (status : response.status = foundStatus) :
      Materializes run visit [⟨⟨.get, uri, none⟩, .answered response⟩]
  /-- A create or an update has succeeded. -/
  | written (wet : run.dry = false) (earlier : List Call) {request : Request} {response : Response}
      (writes : request.method.isWrite) (success : response.isSuccess) :
      Materializes run visit (earlier ++ [⟨request, .answered response⟩])
  /-- A create was rejected, and the lookup after it has found the entity. -/
  | recovered (wet : run.dry = false) (earlier : List Call) {create : Request} {uri : String}
      {rejection response : Response} (writes : create.method.isWrite)
      (rejected : rejection.status = CallFailure.validationStatus) (success : response.isSuccess) :
      Materializes run visit (earlier ++ [⟨create, .answered rejection⟩,
        ⟨⟨.get, uri, none⟩, .answered response⟩])

variable {run : Run} {visit : Visit}

/-- Only an answer that succeeds is decoded to a value. -/
theorem answered_of_decoded {method : Method} {address : String} {request : Request}
    {exchange : Exchange} {value : Json}
    (told : (run.access.received request exchange).bind (Access.decode method address)
      = .ok value) :
    ∃ response, exchange = .answered response ∧ response.isSuccess := by
  cases exchange with
  | lost cause => nomatch told
  | answered response =>
      refine ⟨response, rfl, ?_⟩
      change Access.decode method address response = .ok value at told
      unfold Access.decode at told
      split at told
      · rename_i success
        exact success
      · nomatch told

theorem materializes_of_create (wet : run.dry = false) {sent : List Call} {settled : Entity}
    (sends : (run.create visit.blueprint visit.lineage visit.desired).Sends sent (some settled))
    (earlier : List Call) : Materializes run visit (earlier ++ sent) := by
  obtain ⟨uri, entity, _, _, writes, submits⟩ := submits_of_create wet sends
  obtain ⟨exchange, rest, rfl, answered⟩ := sends_submitCreate writes submits
  rcases answered with ⟨value, told, rfl, _⟩ | ⟨failure, told, invalid, recovers⟩
  · obtain ⟨response, rfl, success⟩ := answered_of_decoded told
    exact .written wet earlier writes success
  · obtain ⟨rejection, rfl, rejected⟩ := Access.answered_of_isValidation told invalid
    rcases recovers with ⟨_, _, _, nothing⟩ | ⟨address, exchange, value, _, rfl, told, _⟩
    · nomatch nothing
    · obtain ⟨response, rfl, success⟩ := answered_of_decoded told
      exact .recovered wet earlier writes rejected success

/-- What exists is left as it is, or updated by a write that succeeds. -/
theorem calls_of_settleExisting {remote existing : Entity} {uri : String} {sent : List Call}
    (sends : (run.settleExisting visit.blueprint visit.lineage visit.desired remote uri).Sends sent
      existing) :
    sent = [] ∨ run.dry = false ∧ ∃ request response, request.method.isWrite = true ∧
      response.isSuccess = true ∧ sent = [⟨request, .answered response⟩] := by
  unfold settleExisting at sends
  split at sends
  · obtain ⟨_, _, _, rfl, substitutes, goesOn⟩ := Plan.sends_bind.mp sends
    obtain ⟨_, _, _, rfl, told, rfl, _⟩ := Plan.sends_bind.mp goesOn
    obtain rfl := sends_substitute_nothing substitutes
    obtain rfl := Plan.sends_tell.mp (Plan.sends_log_bind.mp told)
    exact .inl rfl
  · rename_i wet
    have wet : run.dry = false := by simpa using wet
    split at sends
    · obtain ⟨known, _, _, rfl, recalls, goesOn⟩ := Plan.sends_bind.mp sends
      obtain ⟨_, rfl, _⟩ := recalls
      obtain ⟨uri, entity, exchange, value, _, _, writes, rfl, told, _⟩ :=
        submits_of_update wet (Plan.sends_log_bind.mp goesOn)
      obtain ⟨response, rfl, success⟩ := answered_of_decoded told
      exact .inr ⟨wet, _, response, writes, success, rfl⟩
    · exact .inl (Plan.sends_log_bind.mp sends).1

/-- **An entity is in place only through a call of its own task.** -/
theorem materializes_of_settle {sent : List Call} {settled : Entity}
    (sends : (visit.settle run).Sends sent (some settled)) : Materializes run visit sent := by
  obtain ⟨path, _, _, rfl, looks, goesOn⟩ := Plan.sends_bind.mp sends
  obtain ⟨rfl, known⟩ := sends_lookupPath looks
  cases path with
  | none =>
      simp only at goesOn
      split at goesOn
      · rename_i dry
        obtain ⟨_, _, _, rfl, told, rfl, _⟩ := Plan.sends_bind.mp goesOn
        obtain rfl := Plan.sends_tell.mp (Plan.sends_log_bind.mp told)
        exact .unasked dry known.symm
      · rename_i wet
        exact materializes_of_create (by simpa using wet) goesOn []
  | some uri =>
      obtain ⟨response, rest, rfl, found | ⟨_, ⟨_, _, nothing⟩ | ⟨wet, creates⟩⟩⟩ :=
        answered_of_lookup goesOn
      · obtain ⟨status, value, existing, _, settles, _⟩ := found
        rcases calls_of_settleExisting settles with rfl | ⟨wet, request, written, writes, success,
          rfl⟩
        · exact .found known.symm status
        · exact .written wet [_] writes success
      · nomatch nothing
      · exact materializes_of_create wet creates [_]

/-- What a task has done itself when it goes on with an entity in place. -/
theorem materializes_of_goesOn {own : List Event} {groups : List (List (Waypoint × Task))}
    (goesOn : (Task.entity visit).GoesOn run own groups) : Materializes run visit (calls own) := by
  cases goesOn with
  | entity settles _ =>
      have sends := settles.sends_own (solitary_settle visit.desired)
      simpa using materializes_of_settle sends

/-! ## The order of a run -/

/-- **A run proceeds in order.** Wherever a run of documents has got to, its events are those of an
account that is true of it. Events of earlier documents come first, and so do those of earlier
roots of a document and those below earlier child types of a parent. What is done below an entity
comes after the call that has put the entity in place, and the entity's own calls are over by
then. As long as a task has not succeeded, nothing is done that comes later. -/
theorem proceeds_in_order {documents : List (String × String)} {events : List Event}
    {stage : Stage ChildTask (List (String × String))}
    (steps : Stage.Steps run (.active (run.models documents)) events stage) :
    ∃ account : Account, account.task = .catalog documents ∧ account.Sound run ∧
      account.history.events = events ∧ account.fate = Fate.of stage.outcome? ∧
      (∀ entry ∈ account.history, ∃ part, account.part? entry.1 = some part) ∧
      (∀ origin part, account.part? origin = some part →
        ∃ closing, account.history.own origin = part.own ++ closing ∧
          (closing = [] ∨ closing = [.gaveUp])) ∧
      (account.history.Pairwise fun earlier later => ¬ Origin.Precedes later.1 earlier.1) ∧
      (∀ (before after : History) origin place rest event,
        account.history = before ++ (origin ++ place :: rest, event) :: after →
        ∃ parent, account.part? origin = some parent ∧ before.own origin = parent.own ∧
          calls (after.own origin) = [] ∧
          ∀ visit, parent.task = .entity visit → Materializes run visit (calls parent.own)) ∧
      ∀ origin part, account.part? origin = some part → part.fate ≠ .succeeded →
        ∀ entry ∈ account.history, ¬ Origin.Precedes origin entry.1 := by
  obtain ⟨course, takes, orders⟩ := steps.takes
  obtain ⟨account, task, fate, sound, same⟩ := accounts_of_models takes orders
  have ordered : account.task.Ordered := by
    rw [task]
    exact trivial
  refine ⟨account, task, sound, same, fate, ?_, ?_, sound.pairwise ordered, ?_, ?_⟩
  · rintro ⟨origin, event⟩ inside
    exact Option.isSome_iff_exists.mp (sound.known ordered event inside)
  · intro origin part found
    exact sound.own ordered found
  · intro before after origin place rest event split
    obtain ⟨parent, groups, found, goesOn, done, nothing⟩ := sound.parent_first ordered split
    refine ⟨parent, found, done, nothing, ?_⟩
    intro visit entity
    rw [entity] at goesOn
    exact materializes_of_goesOn goesOn
  · rintro origin part found short entry inside ⟨above, precedes⟩
    exact sound.nothing_after ordered found short entry inside precedes

end Run

/-! ## A part that is refused -/

namespace Sample

/-- Two things, the first of them with a part. -/
def things : String :=
  "[\x7b\"name\":\"a\",\"children\":\x7b\"Part\":[\x7b\"name\":\"b\"\x7d]\x7d\x7d," ++
    "\x7b\"name\":\"c\"\x7d]"

/-- The server gives the blueprint and takes things, but no parts. -/
def refusing (request : Request) (state : Unit) : Exchange × Unit :=
  if request.path = "/parts/b" then (.answered ⟨500, none, none⟩, state)
  else if request.path = "/blueprints/Thing" then (.answered ⟨200, some blueprint, none⟩, state)
  else (.answered ⟨200, some "\x7b\x7d", none⟩, state)

/-- The run of a catalog that refers to the things. -/
def refused : RunResult ((String → Unit) × List Call) (List (String × String)) :=
  engine.execute ⟨⟨0⟩, .direct, .recorded refusing⟩ 100 (·.models [("Thing", things)])
    (fun _ => (), [])

/-- The thing is created, its part is refused, and the run fails. -/
theorem refused_stands : Fate.of refused.outcome = .failed ∧
    refused.server.2.reverse.map (·.request.path)
      = ["/blueprints/Thing", "/things/a", "/parts/b"] := by
  decide +kernel

/-- Of the run in which the part was refused there is a true account. What failed is followed by
nothing, so the second thing was never asked for. -/
theorem nothing_after_refused_part : ∃ events, ∃ outcome, ∃ account : Account,
    Stage.Steps (engine.run api) (.active ((engine.run api).models [("Thing", things)])) events
      (.finished outcome) ∧
    (calls events).map (·.request.path) = ["/blueprints/Thing", "/things/a", "/parts/b"] ∧
    account.Sound (engine.run api) ∧ account.history.events = events ∧ account.fate = .failed ∧
    (account.history.Pairwise fun earlier later => ¬ Origin.Precedes later.1 earlier.1) ∧
    ∀ origin part, account.part? origin = some part → part.fate ≠ .succeeded →
      ∀ entry ∈ account.history, ¬ Origin.Precedes origin entry.1 := by
  obtain ⟨fate, paths⟩ := refused_stands
  cases ended : refused.outcome with
  | none =>
      rw [ended] at fate
      nomatch fate
  | some outcome =>
      obtain ⟨events, steps, _, called, _⟩ :=
        Engine.execute_recorded _ _ _ _ _ _ _ (rfl : _ = refused) ended
      obtain ⟨account, _, sound, same, fated, _, _, ordered, _, nothing⟩ :=
        Run.proceeds_in_order steps
      rw [ended] at fate
      exact ⟨events, outcome, account, steps, by rw [called, paths], sound, same,
        fated.trans fate, ordered, nothing⟩

end Sample

end DesiredState
