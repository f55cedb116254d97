import DesiredState.Proofs.Template.Substitution

/-!
# The path of an entity tells its fields

Where a template has only placeholders for fields of the entity itself, with a slash between any two
of them, two entities have one path only if they agree on every field that a placeholder names
(`same_path_iff_same_fields`). So entities that the template is meant to tell apart are never
taken for one another.

**Reading the fields off.** What is put in for a field has no slash, so all slashes of the path
stand in the literals (`count_written`), also the one in front. The first slash after a placeholder
ends its value, up to the same literal in both paths, and the rest is read in the same way
(`written_inj`). That a value is the encoded form of one text only is `Text.Percent.encode_inj`.
-/

set_option autoImplicit false

namespace DesiredState.Template

/-! ## Placeholders for fields of the entity itself -/

/-- The content names a field of the entity itself, and it has no suffix. -/
def OwnField (content : List Char) : Prop := '.' ∉ content ∧ ¬ ['$', '$'] <:+: content

instance : DecidablePred OwnField := fun content =>
  inferInstanceAs (Decidable ('.' ∉ content ∧ ¬ ['$', '$'] <:+: content))

/-- The characters before the first placeholder. -/
def opening : List Piece → List Char
  | .text characters :: rest => characters ++ opening rest
  | _ => []

/-- Between any two placeholders there is a slash. -/
def Parted : List Piece → Prop
  | [] => True
  | .text _ :: rest => Parted rest
  | .placeholder _ :: rest => (contents rest = [] ∨ '/' ∈ opening rest) ∧ Parted rest

/-- Each placeholder names a field of the entity that is a string. -/
def NamesStrings (pieces : List Piece) (entity : Entity) : Prop :=
  ∀ content ∈ contents pieces, ∃ text, entity.field? (String.ofList content) = some (.string text)

/-! ## What stands for such a placeholder -/

theorem stripSuffix_of_free (name : List Char) :
    ¬ ['$', '$'] <:+: name → stripSuffix name = name := by
  fun_induction stripSuffix name with
  | case1 rest => exact fun free => absurd (List.prefix_append _ rest).isInfix free
  | case2 => exact fun _ => rfl
  | case3 character rest _ ih =>
      exact fun free => congrArg _ (ih fun inside => free (List.infix_cons inside))

/-- A field that has the name itself comes before all fields that have it with a suffix. -/
theorem findSome?_of_lookupEntry {content shown : List Char} {value : Json}
    (plain : stripSuffix content = content) (rendered : render? value = some shown) :
    ∀ {entries : List (String × Json)}, NamesIncrease entries →
      lookupEntry (String.ofList content) entries = some value →
      (entries.findSome? fun field =>
        if stripSuffix field.1.toList = content then render? field.2 else none) = some shown
  | [], _, found => nomatch found
  | entry :: rest, ordered, found => by
      obtain ⟨below, restOrdered⟩ := List.pairwise_cons.mp ordered
      unfold lookupEntry at found
      split at found
      · rename_i here
        cases found
        have strips : stripSuffix entry.1.toList = content := by
          rw [← here, String.toList_ofList, plain]
        rw [List.findSome?_cons, if_pos strips, rendered]
      · have before : entry.1 < String.ofList content := below _ (mem_of_lookupEntry found)
        have differs : stripSuffix entry.1.toList ≠ content := by
          intro strips
          have behind := (stripSuffix_isPrefix entry.1.toList).le
          rw [strips] at behind
          rw [String.lt_iff, String.toList_ofList] at before
          exact List.not_lt.mpr behind before
        rw [List.findSome?_cons, if_neg differs]
        exact findSome?_of_lookupEntry plain rendered restOrdered found

/-- **A placeholder for a field** of the entity itself stands for this field, whatever the ancestors
and the other fields are. -/
theorem standsFor?_of_ownField (lineage : Lineage) {entity : Entity} {content : List Char}
    (own : OwnField content) {text : String}
    (there : entity.field? (String.ofList content) = some (.string text)) :
    standsFor? lineage entity content = some (Text.Percent.encode text).toList := by
  have unqualified : qualified? content = none := by
    rw [qualified?, List.dropWhile_eq_nil_iff.mpr (forall_ne_of_not_mem own.1)]
  have elsewhere : inAncestors? lineage content = none := by
    rw [inAncestors?, unqualified, Option.bind_none]
  have here : inFields? entity.fields content = some (Text.Percent.encode text).toList :=
    findSome?_of_lookupEntry (stripSuffix_of_free content own.2) rfl entity.fields.ordered there
  rw [standsFor?, elsewhere, here, Option.none_or, Option.some_or]

/-! ## Texts with all placeholders replaced -/

/-- The text of pieces in which `shown` stands for the placeholders. -/
def written (shown : List Char → List Char) : List Piece → List Char
  | [] => []
  | .text characters :: rest => characters ++ written shown rest
  | .placeholder content :: rest => shown content ++ written shown rest

section Written

variable {first second : List Char → List Char} {pieces : List Piece}

theorem written_congr (pieces : List Piece)
    (same : ∀ content ∈ contents pieces, first content = second content) :
    written first pieces = written second pieces := by
  induction pieces with
  | nil => rfl
  | cons piece pieces ih =>
      cases piece with
      | text characters => rw [written, written, ih same]
      | placeholder content =>
          obtain ⟨here, later⟩ := List.forall_mem_cons.mp same
          rw [written, written, here, ih later]

/-- The literal in front is the same whatever the placeholders stand for. -/
theorem opening_prefix_written (shown : List Char → List Char) :
    ∀ pieces : List Piece, opening pieces <+: written shown pieces
  | [] => List.nil_prefix
  | .text characters :: rest =>
      (List.prefix_append_right_inj characters).mpr (opening_prefix_written shown rest)
  | .placeholder _ :: _ => List.nil_prefix

/-- Where nothing that is put in has a slash, all slashes are those of the literals. -/
theorem count_written (pieces : List Piece)
    (unslashed : ∀ content ∈ contents pieces, '/' ∉ first content) :
    (written first pieces).count '/' = (written (fun _ => []) pieces).count '/' := by
  induction pieces with
  | nil => rfl
  | cons piece pieces ih =>
      cases piece with
      | text characters =>
          rw [written, written, List.count_append, List.count_append, ih unslashed]
      | placeholder content =>
          obtain ⟨here, later⟩ := List.forall_mem_cons.mp unslashed
          rw [written, written, List.count_append, List.nil_append,
            List.count_eq_zero_of_not_mem here, Nat.zero_add, ih later]

/-- What stands before a literal with a slash is told by the text. -/
theorem eq_of_append_opening {one other rest others between : List Char}
    (slash : '/' ∈ between) (free : '/' ∉ one) (unslashed : '/' ∉ other)
    (begins : between <+: rest) (goes : between <+: others) (same : one ++ rest = other ++ others) :
    one = other := by
  obtain ⟨before, after, rfl, early⟩ := List.eq_append_cons_of_mem slash
  obtain ⟨more, rfl⟩ := begins
  obtain ⟨most, rfl⟩ := goes
  have cut : ∀ {value : List Char}, '/' ∉ value → ∀ tail : List Char,
      (value ++ ((before ++ '/' :: after) ++ tail)).takeWhile (· != '/') = value ++ before := by
    intro value unslashed tail
    have whole : value ++ ((before ++ '/' :: after) ++ tail)
        = (value ++ before) ++ '/' :: (after ++ tail) := by simp
    rw [whole, takeWhile_delimited (by simp [unslashed, early])]
  have equal : one ++ before = other ++ before := by rw [← cut free more, same, cut unslashed most]
  exact List.append_cancel_right equal

/-- **What the placeholders stand for** is told by the text if no two of them stand for texts that
run into each other. -/
theorem written_inj (pieces : List Piece) (parted : Parted pieces)
    (free : ∀ content ∈ contents pieces, '/' ∉ first content)
    (unslashed : ∀ content ∈ contents pieces, '/' ∉ second content)
    (same : written first pieces = written second pieces) :
    ∀ content ∈ contents pieces, first content = second content := by
  induction pieces with
  | nil => exact List.forall_mem_nil _
  | cons piece pieces ih =>
      cases piece with
      | text characters => exact ih parted free unslashed (List.append_cancel_left same)
      | placeholder content =>
          obtain ⟨free, freeLater⟩ := List.forall_mem_cons.mp free
          obtain ⟨unslashed, unslashedLater⟩ := List.forall_mem_cons.mp unslashed
          obtain ⟨ends, parted⟩ := parted
          rw [written, written] at same
          have here : first content = second content := by
            rcases ends with last | slash
            · -- nothing but the same literals follows
              have literals : written first pieces = written second pieces :=
                written_congr pieces (by simp [last])
              rw [literals] at same
              exact List.append_cancel_right same
            · exact eq_of_append_opening slash free unslashed (opening_prefix_written first pieces)
                (opening_prefix_written second pieces) same
          rw [here] at same
          exact List.forall_mem_cons.mpr
            ⟨here, ih parted freeLater unslashedLater (List.append_cancel_left same)⟩

/-- A slash in front is told by the number of slashes. -/
theorem rooted_inj {one other : List Char} (slashes : one.count '/' = other.count '/')
    (same : rooted one = rooted other) : one = other := by
  rcases rooted_eq one with ⟨stays, _⟩ | added <;> rcases rooted_eq other with ⟨keeps, _⟩ | gets
  · rw [← stays, same, keeps]
  · rw [stays, gets] at same
    rw [same, List.count_cons_self] at slashes
    omega
  · rw [added, keeps] at same
    rw [← same, List.count_cons_self] at slashes
    omega
  · rw [added, gets] at same
    exact (List.cons.inj same).2

end Written

/-! ## Paths -/

/-- What is put in for a field of the entity. -/
def shownField (entity : Entity) (content : List Char) : List Char :=
  ((entity.field? (String.ofList content)).bind render?).getD []

theorem shownField_of_string {entity : Entity} {content : List Char} {text : String}
    (there : entity.field? (String.ofList content) = some (.string text)) :
    shownField entity content = (Text.Percent.encode text).toList := by
  rw [shownField, there]
  rfl

section Paths

variable (lineage : Lineage) {entity : Entity} {pieces : List Piece}

/-- No slash is put in for a field. -/
theorem slash_not_mem_shownField (names : NamesStrings pieces entity) :
    ∀ content ∈ contents pieces, '/' ∉ shownField entity content := by
  intro content member inside
  obtain ⟨text, there⟩ := names content member
  rw [shownField_of_string there] at inside
  rcases Text.Percent.mem_encode inside with unreserved | percent
  · exact absurd unreserved (by decide)
  · exact absurd percent (by decide)

/-- All placeholders are filled in by the fields that they name. -/
theorem fill_eq_written (own : ∀ content ∈ contents pieces, OwnField content)
    (names : NamesStrings pieces entity) :
    contents (pieces.map (Piece.fill (standsFor? lineage entity))) = [] ∧
      spell (pieces.map (Piece.fill (standsFor? lineage entity)))
        = written (shownField entity) pieces := by
  induction pieces with
  | nil => exact ⟨rfl, rfl⟩
  | cons piece pieces ih =>
      cases piece with
      | text characters =>
          obtain ⟨filled, same⟩ := ih own names
          exact ⟨filled, congrArg (characters ++ ·) same⟩
      | placeholder content =>
          obtain ⟨here, later⟩ := List.forall_mem_cons.mp own
          obtain ⟨⟨text, there⟩, others⟩ := List.forall_mem_cons.mp names
          obtain ⟨filled, same⟩ := ih later others
          have stands : Piece.fill (standsFor? lineage entity) (.placeholder content)
              = .text (shownField entity content) := by
            rw [Piece.fill, standsFor?_of_ownField lineage here there, shownField_of_string there]
            rfl
          rw [List.map_cons, stands, contents_text, spell_text, written, same]
          exact ⟨filled, rfl⟩

/-- **A template with such placeholders only** is resolved to a path. -/
theorem resolve_eq_path {template : String} (spelled : template.toList = spell pieces)
    (proper : ∀ piece ∈ pieces, piece.Proper) (own : ∀ content ∈ contents pieces, OwnField content)
    (closed : ∀ field ∈ entity.fields.entries, '\x7d' ∉ field.1.toList)
    (names : NamesStrings pieces entity) :
    resolve lineage entity template
      = .path (String.ofList (rooted (written (shownField entity) pieces))) := by
  obtain ⟨filled, same⟩ := fill_eq_written lineage own names
  rw [resolve_spell spelled closed proper, outcome, filled, same]
  simp

end Paths

/-- **Different identities never share a path.** Where a template is spelled by literals and by
placeholders for fields of the entity itself, with a slash between any two of them, two entities
whose named fields are strings have the same path if and only if they agree on all these fields. -/
theorem same_path_iff_same_fields (lineage : Lineage) {first second : Entity}
    {template : String} {pieces : List Piece} (spelled : template.toList = spell pieces)
    (proper : ∀ piece ∈ pieces, piece.Proper) (own : ∀ content ∈ contents pieces, OwnField content)
    (parted : Parted pieces)
    (firstClosed : ∀ field ∈ first.fields.entries, '\x7d' ∉ field.1.toList)
    (secondClosed : ∀ field ∈ second.fields.entries, '\x7d' ∉ field.1.toList)
    (firstNames : NamesStrings pieces first) (secondNames : NamesStrings pieces second) :
    (∃ uri, resolve lineage first template = .path uri ∧
        resolve lineage second template = .path uri) ↔
      ∀ content ∈ contents pieces,
        first.field? (String.ofList content) = second.field? (String.ofList content) := by
  have firstPath := resolve_eq_path lineage spelled proper own firstClosed firstNames
  have secondPath := resolve_eq_path lineage spelled proper own secondClosed secondNames
  have firstFree := slash_not_mem_shownField firstNames
  have secondFree := slash_not_mem_shownField secondNames
  constructor
  · rintro ⟨uri, one, other⟩
    have rooted : rooted (written (shownField first) pieces)
        = rooted (written (shownField second) pieces) := by
      have same := (firstPath.symm.trans one).trans (other.symm.trans secondPath)
      exact String.ofList_injective (Resolution.path.inj same)
    have slashes := (count_written pieces firstFree).trans (count_written pieces secondFree).symm
    have told := written_inj pieces parted firstFree secondFree (rooted_inj slashes rooted)
    intro content member
    obtain ⟨text, here⟩ := firstNames content member
    obtain ⟨other, there⟩ := secondNames content member
    have encoded := told content member
    rw [shownField_of_string here, shownField_of_string there] at encoded
    rw [here, there, Text.Percent.encode_inj.mp (String.toList_injective encoded)]
  · intro agree
    have same : written (shownField first) pieces = written (shownField second) pieces :=
      written_congr pieces fun content member => by
        rw [shownField, shownField, agree content member]
    exact ⟨_, firstPath, by rw [secondPath, same]⟩

/-! ## Two racks -/

namespace Sample

/-- A rack with a slash in its name and a second uuid that has a suffix. -/
def rack : Entity :=
  .ofRemote (.object [("name", .string "a/b"), ("uuid", .string "c"), ("uuid$$2", .string "d")])
    "Rack"

/-- A rack whose name and uuid are parted elsewhere. -/
def otherRack : Entity :=
  .ofRemote (.object [("name", .string "a"), ("uuid", .string "b/c")]) "Rack"

def rackPath : String := "\x7bname\x7d/\x7buuid\x7d"

def rackPieces : List Piece :=
  [.placeholder "name".toList, .text "/".toList, .placeholder "uuid".toList]

theorem racks_named : NamesStrings rackPieces rack ∧ NamesStrings rackPieces otherRack := by
  refine ⟨?_, ?_⟩
  · exact List.forall_mem_cons.mpr ⟨⟨"a/b", rfl⟩, List.forall_mem_singleton.mpr ⟨"c", rfl⟩⟩
  · exact List.forall_mem_cons.mpr ⟨⟨"a", rfl⟩, List.forall_mem_singleton.mpr ⟨"b/c", rfl⟩⟩

/-- The racks have different paths, though name and uuid read the same one after the other. -/
theorem racks_have_paths_of_their_own :
    rackPath.toList = spell rackPieces ∧ (∀ piece ∈ rackPieces, piece.Proper) ∧
      (∀ content ∈ contents rackPieces, OwnField content) ∧ Parted rackPieces ∧
      (∀ field ∈ rack.fields.entries, '\x7d' ∉ field.1.toList) ∧
      (∀ field ∈ otherRack.fields.entries, '\x7d' ∉ field.1.toList) ∧
      NamesStrings rackPieces rack ∧ NamesStrings rackPieces otherRack ∧
      ¬ ∃ uri, resolve .empty rack rackPath = .path uri ∧
        resolve .empty otherRack rackPath = .path uri := by
  have spelled : rackPath.toList = spell rackPieces := by decide +kernel
  have proper : ∀ piece ∈ rackPieces, piece.Proper := by decide +kernel
  have own : ∀ content ∈ contents rackPieces, OwnField content := by decide +kernel
  have parted : Parted rackPieces := ⟨.inr (by decide), .inl rfl, trivial⟩
  have closed : ∀ field ∈ rack.fields.entries, '\x7d' ∉ field.1.toList := by decide +kernel
  have otherClosed : ∀ field ∈ otherRack.fields.entries, '\x7d' ∉ field.1.toList := by
    decide +kernel
  obtain ⟨names, otherNames⟩ := racks_named
  refine ⟨spelled, proper, own, parted, closed, otherClosed, names, otherNames, fun shared => ?_⟩
  have agree := (same_path_iff_same_fields .empty spelled proper own parted closed otherClosed names
    otherNames).mp shared "name".toList (List.mem_cons_self ..)
  have called : some "a/b" = some "a" := congrArg (Option.bind · Json.text?) agree
  exact absurd called (by decide)

end Sample

end DesiredState.Template
