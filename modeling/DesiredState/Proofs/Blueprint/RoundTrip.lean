import DesiredState.Proofs.Blueprint.Ordered

/-!
# Blueprints that were written

A blueprint is written as a JSON value, and reading this value gives the blueprint back
(`read_write`). So a blueprint that was read from any value, in whatever form it was given there,
is the same after it has been written and read again (`survives_writing`).

**Two sets of rules.** What is left out in writing and what is assumed in reading are fixed apart
from each other. A member that is always written replaces its default, whatever that is; an option
without a value is not written, and is left as it is known by then, which is without a value. The
order of the child types matters: they are read into a map, so the list that was written comes back
only if it was in name order.
-/

set_option autoImplicit false

namespace DesiredState

/-- A verb is read as it stands in a request. -/
@[simp] theorem Method.read_text (method : Method) : Method.read method.text = .ok method := by
  cases method <;> rfl

/-- An entry before all others is put at the front. -/
theorem insertEntry_first {β : Type} {name : String} {value : β} :
    ∀ {entries : List (String × β)}, (∀ entry ∈ entries, name < entry.1) →
      insertEntry name value entries = (name, value) :: entries
  | [], _ => rfl
  | first :: _, below => if_pos (below first List.mem_cons_self)

namespace Json

/-- The members of every object in a value are in name order. -/
inductive Ordered : Json → Prop
  | null : Ordered .null
  | bool (value : Bool) : Ordered (.bool value)
  | number (value : Number) : Ordered (.number value)
  | string (value : String) : Ordered (.string value)
  | array {items : List Json} (each : ∀ item ∈ items, Ordered item) : Ordered (.array items)
  | object {members : List (String × Json)} (increase : NamesIncrease members)
      (each : ∀ entry ∈ members, Ordered entry.2) : Ordered (.object members)

end Json

namespace Blueprint

/-! ## Verbs and links -/

/-- A verb is read from the text that it is written as. -/
theorem readMethod_text (method : Method) : readMethod (.string method.text) = .ok method := by
  simp only [readMethod, readString, bind, Except.bind, Method.read_text]

theorem readLink_write (link : ParentLink) : readLink (writeLink link) = .ok (some link) := by
  obtain ⟨name, reference⟩ := link
  cases name with
  | none => rfl
  | some name => rfl

/-! ## Members one by one -/

/-- A verb is known once its text has been read. -/
theorem readPlainMember_createMethod (known : Blueprint) (createMethod : Method) :
    readPlainMember known "createMethod" (.string createMethod.text)
      = .ok { known with createMethod } := by
  rw [readPlainMember, readMethod_text]
  rfl

theorem readPlainMember_updateMethod (known : Blueprint) (updateMethod : Method) :
    readPlainMember known "updateMethod" (.string updateMethod.text)
      = .ok { known with updateMethod } := by
  rw [readPlainMember, readMethod_text]
  rfl

theorem readPlainMember_parentField (known : Blueprint) (link : ParentLink) :
    readPlainMember known "parentField" (writeLink link)
      = .ok { known with parentLink := some link } := by
  rw [readPlainMember, readLink_write]
  rfl

/-- A member that is understood changes what is known by then. -/
theorem readMembers_cons {known next : Blueprint} {name : String} {value : Json}
    {rest : List (String × Json)} (plain : name ≠ "children")
    (reads : readPlainMember known name value = .ok next) :
    readMembers known ((name, value) :: rest) = readMembers next rest := by
  rw [readMembers, if_neg plain, reads]
  rfl

/-- An option fills its place in what is known: with its value, if it has one, and else with what
was known, which is no value. -/
theorem readMembers_optional {α : Type} {known : Blueprint} {name : String} {write : α → Json}
    {value : Option α} {rest : List (String × Json)} (fill : Option α → Blueprint)
    (absent : fill none = known)
    (reads : ∀ held, value = some held →
      readMembers known ((name, write held) :: rest) = readMembers (fill (some held)) rest) :
    readMembers known (optional name (value.map write) ++ rest)
      = readMembers (fill value) rest := by
  cases value with
  | none => exact congrArg (readMembers · rest) absent.symm
  | some held => exact reads held rfl

/-! ## Child types -/

/-- The child types come back if each of their blueprints does and they were in name order. -/
theorem readEach_writeEach : ∀ {types : List (String × Blueprint)}, NamesIncrease types →
    (∀ declared ∈ types, read (write declared.2) = .ok declared.2) →
      readEach (writeEach types) = .ok types
  | [], _, _ => rfl
  | (name, child) :: types, increase, each => by
      obtain ⟨below, restIncrease⟩ := List.pairwise_cons.mp increase
      obtain ⟨first, others⟩ := List.forall_mem_cons.mp each
      rw [writeEach, readEach, first, readEach_writeEach restIncrease others]
      exact congrArg Except.ok (insertEntry_first below)

/-- Child types that come back take the place of those that are known. -/
theorem readMembers_types {known : Blueprint} {types : List (String × Blueprint)}
    {rest : List (String × Json)} (reads : readEach (writeEach types) = .ok types) :
    readMembers known (("children", .object (writeEach types)) :: rest)
      = readMembers { known with children := some types } rest := by
  rw [readMembers, if_pos rfl, readChildren, reads]
  rfl

/-! ## Blueprints -/

/-- The members of a blueprint, those of options only if they have a value. -/
theorem write_eq (blueprint : Blueprint) : write blueprint = .object (
    optional "children" (blueprint.children.map fun types => .object (writeEach types))
    ++ (optional "className" (blueprint.className.map .string)
    ++ ([("createMethod", .string blueprint.createMethod.text),
      ("createUri", .string blueprint.createUri), ("name", .string blueprint.name)]
    ++ (optional "parentField" (blueprint.parentLink.map writeLink)
    ++ ([("updateMethod", .string blueprint.updateMethod.text)]
    ++ (optional "updateUri" (blueprint.updateUri.map .string) ++ [])))))) := by
  obtain ⟨name, className, createUri, createMethod, updateUri, updateMethod, parentLink,
    children⟩ := blueprint
  cases children with
  | none => simp only [write, List.append_assoc, List.append_nil]; rfl
  | some types => simp only [write, List.append_assoc, List.append_nil]; rfl

/-- **A blueprint comes back from the value it is written as.** The induction is on the tree of
child types, which are in name order at every depth. -/
theorem read_write {blueprint : Blueprint} (ordered : blueprint.Ordered) :
    read (write blueprint) = .ok blueprint := by
  induction ordered with
  | @mk blueprint increase each ih =>
      obtain ⟨name, className, createUri, createMethod, updateUri, updateMethod, parentLink,
        children⟩ := blueprint
      have types : ∀ types, children = some types → readEach (writeEach types) = .ok types := by
        rintro types rfl
        exact readEach_writeEach increase ih
      -- what is known after each of the members, in the order in which they stand
      let first : Blueprint := { blank with children }
      let second : Blueprint := { first with className }
      let third : Blueprint := { second with createMethod }
      let fourth : Blueprint := { third with createUri }
      let fifth : Blueprint := { fourth with name }
      let sixth : Blueprint := { fifth with parentLink }
      let seventh : Blueprint := { sixth with updateMethod }
      rw [write_eq, read]
      calc readMembers blank _
        _ = readMembers first _ :=
          readMembers_optional (fun children => { blank with children }) rfl
            fun _ held => readMembers_types (types _ held)
        _ = readMembers second _ :=
          readMembers_optional (fun className => { first with className }) rfl
            fun _ _ => readMembers_cons (by decide) rfl
        _ = readMembers third _ :=
          readMembers_cons (by decide) (readPlainMember_createMethod _ createMethod)
        _ = readMembers fourth _ := readMembers_cons (by decide) rfl
        _ = readMembers fifth _ := readMembers_cons (by decide) rfl
        _ = readMembers sixth _ :=
          readMembers_optional (fun parentLink => { fifth with parentLink }) rfl
            fun link _ => readMembers_cons (by decide) (readPlainMember_parentField _ link)
        _ = readMembers seventh _ :=
          readMembers_cons (by decide) (readPlainMember_updateMethod _ updateMethod)
        _ = readMembers { seventh with updateUri } [] :=
          readMembers_optional (fun updateUri => { seventh with updateUri }) rfl
            fun _ _ => readMembers_cons (by decide) rfl
        _ = .ok _ := rfl

/-! ## The written value -/

theorem optional_sublist (name : String) (value : Option Json) :
    (optional name value).Sublist [(name, value.getD .null)] := by
  cases value with
  | none => exact List.nil_sublist _
  | some value => exact List.Sublist.refl _

theorem optional_ordered {α : Type} {name : String} {write : α → Json} {value : Option α}
    (each : ∀ held, value = some held → (write held).Ordered) :
    ∀ entry ∈ optional name (value.map write), entry.2.Ordered := by
  cases value with
  | none => exact List.forall_mem_nil _
  | some held => exact List.forall_mem_singleton.mpr (each held rfl)

/-- The child types are members under the same names. -/
theorem writeEach_eq : ∀ types : List (String × Blueprint),
    writeEach types = types.map fun declared => (declared.1, write declared.2)
  | [] => rfl
  | (name, child) :: types => by rw [writeEach, writeEach_eq types, List.map_cons]

/-- The names stand in order, whichever options have a value. -/
theorem writeLink_ordered (link : ParentLink) : (writeLink link).Ordered := by
  obtain ⟨name, entity, field⟩ := link
  have reference : (writeReference ⟨entity, field⟩).Ordered :=
    .object (List.pairwise_map.mp (by decide : ["entity", "field"].Pairwise (· < ·)))
      (List.forall_mem_cons.mpr ⟨.string _, List.forall_mem_singleton.mpr (.string _)⟩)
  refine .object ?_ (List.forall_mem_append.mpr ⟨?_, List.forall_mem_singleton.mpr reference⟩)
  · exact (List.pairwise_map.mp (by decide : ["name", "reference"].Pairwise (· < ·))).sublist
      ((optional_sublist _ _).append_right _)
  · exact optional_ordered fun text _ => .string text

/-- **A blueprint is written with the members of every object in name order.** -/
theorem write_ordered {blueprint : Blueprint} (ordered : blueprint.Ordered) :
    (write blueprint).Ordered := by
  induction ordered with
  | @mk blueprint increase each ih =>
      have types : ∀ types, blueprint.children = some types →
          (Json.object (writeEach types)).Ordered := by
        intro types declared
        rw [childTypes, declared] at increase ih
        rw [writeEach_eq]
        exact .object (List.pairwise_map.mpr increase) (List.forall_mem_map.mpr ih)
      rw [write_eq]
      refine .object ?_ ?_
      · have names : ["children", "className", "createMethod", "createUri", "name", "parentField",
          "updateMethod", "updateUri"].Pairwise (· < ·) := by decide
        exact (List.pairwise_map.mp names).sublist
          ((optional_sublist _ _).append ((optional_sublist _ _).append
            ((List.Sublist.refl _).append ((optional_sublist _ _).append
              ((List.Sublist.refl _).append ((optional_sublist _ _).append
                (List.Sublist.refl _)))))))
      · simp only [List.forall_mem_append, List.forall_mem_cons]
        exact ⟨optional_ordered types, optional_ordered fun text _ => .string text,
          ⟨.string _, .string _, .string _, List.forall_mem_nil _⟩,
          optional_ordered fun link _ => writeLink_ordered link,
          ⟨.string _, List.forall_mem_nil _⟩, optional_ordered fun text _ => .string text,
          List.forall_mem_nil _⟩

/-- **Blueprints survive writing.** A blueprint, however its child types are nested, is written as a
value with its members in order and is read from it again; and whatever value is read, writing what
it says and reading again gives the same result. -/
theorem survives_writing :
    (∀ blueprint : Blueprint, blueprint.Ordered →
      (write blueprint).Ordered ∧ read (write blueprint) = .ok blueprint) ∧
    ∀ value : Json, ((read value).bind fun blueprint => read (write blueprint)) = read value := by
  refine ⟨fun blueprint ordered => ⟨write_ordered ordered, read_write ordered⟩, fun value => ?_⟩
  cases reads : read value with
  | error defect => rfl
  | ok blueprint => exact read_write (read_ordered reads)

end Blueprint

namespace Sample

/-- Devices below accounts, with sensors and a type that says nothing, beside a type that declares
that it has no child types. -/
def fleet : Blueprint :=
  let sensor : Blueprint :=
    { Blueprint.blank with
      createMethod := .patch, parentLink := some ⟨none, ⟨"Account", "parent"⟩⟩ }
  let device : Blueprint :=
    { Blueprint.blank with
      createUri := "/devices", updateMethod := .delete,
      parentLink := some ⟨some "account", .standard⟩,
      children := some [("Blank", Blueprint.blank), ("Sensor", sensor)] }
  { Blueprint.blank with
    className := some "org.Account", createMethod := .get, updateUri := some "",
    children := some [("Device", device), ("Group", { Blueprint.blank with children := some [] })] }

theorem fleet_survives_writing :
    fleet.Ordered ∧ Blueprint.read (Blueprint.write fleet) = .ok fleet := by
  have ordered : fleet.Ordered := by
    refine .mk (List.pairwise_map.mp (by decide : ["Device", "Group"].Pairwise (· < ·)))
      (List.forall_mem_cons.mpr ⟨?_, List.forall_mem_singleton.mpr ?_⟩)
    · refine .mk (List.pairwise_map.mp (by decide : ["Blank", "Sensor"].Pairwise (· < ·)))
        (List.forall_mem_cons.mpr ⟨.blank, List.forall_mem_singleton.mpr ?_⟩)
      exact .mk .nil (List.forall_mem_nil _)
    · exact .mk .nil (List.forall_mem_nil _)
  exact ⟨ordered, (Blueprint.survives_writing.1 fleet ordered).2⟩

end Sample

end DesiredState
