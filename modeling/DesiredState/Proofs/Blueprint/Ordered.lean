import DesiredState.Blueprint.Codec

/-!
# Blueprints that were read

A blueprint may be any tree of types, but one that was read declares each child type once, in
name order, at every depth (`read_ordered`). So the children of an entity are in one batch at
most, and no batch is handled twice.
-/

set_option autoImplicit false

namespace DesiredState.Blueprint

/-- Each child type is declared once, in name order, at every depth. -/
inductive Ordered : Blueprint → Prop
  | mk {blueprint : Blueprint} (increase : NamesIncrease blueprint.childTypes)
      (each : ∀ declared ∈ blueprint.childTypes, Ordered declared.2) : Ordered blueprint

namespace Ordered

variable {blueprint : Blueprint}

theorem increase (ordered : blueprint.Ordered) : NamesIncrease blueprint.childTypes := by
  cases ordered with
  | mk increase _ => exact increase

theorem each (ordered : blueprint.Ordered) :
    ∀ declared ∈ blueprint.childTypes, Ordered declared.2 := by
  cases ordered with
  | mk _ each => exact each

/-- Only the child types matter. -/
theorem congr {other : Blueprint} (ordered : blueprint.Ordered)
    (same : other.children = blueprint.children) : other.Ordered := by
  have types : other.childTypes = blueprint.childTypes := congrArg (·.getD []) same
  exact .mk (types ▸ ordered.increase) (types ▸ ordered.each)

/-- The blueprint that says nothing declares no child type. -/
theorem blank : Ordered blank := .mk .nil (List.forall_mem_nil _)

/-- The declared types may be replaced by others that are in order. -/
theorem withChildren (blueprint : Blueprint) {types : List (String × Blueprint)}
    (increase : NamesIncrease types) (below : ∀ declared ∈ types, Ordered declared.2) :
    Ordered { blueprint with children := some types } := .mk increase below

theorem childless (blueprint : Blueprint) : Ordered { blueprint with children := none } :=
  .mk .nil (List.forall_mem_nil _)

end Ordered

/-! ## Reading keeps the order -/

/-- A change of other parts, if it succeeds, leaves the child types as they are. -/
theorem children_of_map {β : Type} {result : Except Defect β} {update : β → Blueprint}
    {next : Blueprint} {children : Option (List (String × Blueprint))}
    (mapped : result.map update = .ok next) (same : ∀ part, (update part).children = children) :
    next.children = children := by
  cases result with
  | error defect => nomatch mapped
  | ok part =>
      cases mapped
      exact same part

/-- Members that hold no blueprints leave the child types as they are. -/
theorem readPlainMember_children {blueprint next : Blueprint} {name : String} {value : Json}
    (reads : readPlainMember blueprint name value = .ok next) :
    next.children = blueprint.children := by
  unfold readPlainMember at reads
  split at reads
  · exact children_of_map reads fun _ => rfl
  · exact children_of_map reads fun _ => rfl
  · exact children_of_map reads fun _ => rfl
  · exact children_of_map reads fun _ => rfl
  · exact children_of_map reads fun _ => rfl
  · exact children_of_map reads fun _ => rfl
  · exact children_of_map reads fun _ => rfl
  · cases reads
    rfl

/-- The parts of a sequence of computations that succeeds. -/
theorem bind_ok {α β : Type} {first : Except Defect α} {second : α → Except Defect β} {value : β}
    (succeeds : (first >>= second) = .ok value) :
    ∃ middle, first = .ok middle ∧ second middle = .ok value := by
  cases first with
  | error defect => nomatch succeeds
  | ok middle => exact ⟨middle, rfl, succeeds⟩

mutual

/-- **What was read is in order.** -/
theorem read_ordered : ∀ {value : Json} {blueprint : Blueprint},
    read value = .ok blueprint → blueprint.Ordered
  | .object members, _, reads => by
      unfold read at reads
      exact readMembers_ordered .blank reads
  | .array items, _, reads => by
      unfold read at reads
      exact readItems_ordered .blank reads
  | .null, _, reads => nomatch reads
  | .bool _, _, reads => nomatch reads
  | .number _, _, reads => nomatch reads
  | .string _, _, reads => nomatch reads

theorem readMembers_ordered : ∀ {members : List (String × Json)} {known blueprint : Blueprint},
    known.Ordered → readMembers known members = .ok blueprint → blueprint.Ordered
  | [], _, _, ordered, reads => by
      unfold readMembers at reads
      cases reads
      exact ordered
  | (name, value) :: rest, known, _, ordered, reads => by
      unfold readMembers at reads
      split at reads
      · obtain ⟨children, inside, later⟩ := bind_ok reads
        exact readMembers_ordered (readChildren_ordered inside known) later
      · obtain ⟨next, plain, later⟩ := bind_ok reads
        exact readMembers_ordered (ordered.congr (readPlainMember_children plain)) later

theorem readItems_ordered : ∀ {items : List Json} {names : List String}
    {known blueprint : Blueprint},
    known.Ordered → readItems known names items = .ok blueprint → blueprint.Ordered
  | [], _, _, _, ordered, reads => by
      unfold readItems at reads
      cases reads
      exact ordered
  | _ :: _, [], _, _, _, reads => by
      unfold readItems at reads
      nomatch reads
  | value :: rest, name :: names, known, _, ordered, reads => by
      unfold readItems at reads
      split at reads
      · obtain ⟨children, inside, later⟩ := bind_ok reads
        exact readItems_ordered (readChildren_ordered inside known) later
      · obtain ⟨next, plain, later⟩ := bind_ok reads
        exact readItems_ordered (ordered.congr (readPlainMember_children plain)) later

theorem readChildren_ordered : ∀ {value : Json} {children : Option (List (String × Blueprint))},
    readChildren value = .ok children →
    ∀ known : Blueprint, Ordered { known with children := children }
  | .object members, _, reads, known => by
      unfold readChildren at reads
      obtain ⟨types, each, done⟩ := bind_ok reads
      cases done
      exact .withChildren known (readEach_ordered each).1 (readEach_ordered each).2
  | .null, _, reads, known => by
      unfold readChildren at reads
      cases reads
      exact .childless known
  | .array _, _, reads, _ => nomatch reads
  | .bool _, _, reads, _ => nomatch reads
  | .number _, _, reads, _ => nomatch reads
  | .string _, _, reads, _ => nomatch reads

theorem readEach_ordered : ∀ {members : List (String × Json)} {types : List (String × Blueprint)},
    readEach members = .ok types →
    NamesIncrease types ∧ ∀ declared ∈ types, Ordered declared.2
  | [], _, reads => by
      unfold readEach at reads
      cases reads
      exact ⟨.nil, List.forall_mem_nil _⟩
  | (name, value) :: rest, _, reads => by
      unfold readEach at reads
      obtain ⟨child, first, later⟩ := bind_ok reads
      obtain ⟨others, each, done⟩ := bind_ok later
      cases done
      obtain ⟨increase, below⟩ := readEach_ordered each
      refine ⟨namesIncrease_insertEntry name child increase, fun declared member => ?_⟩
      rcases mem_insertEntry member with rfl | old
      · exact read_ordered first
      · exact below declared old

end

end DesiredState.Blueprint
