import DesiredState.Proofs.Template

/-!
# A template is filled in at one stroke

A template is filled in by many passes over a text that the earlier passes have rewritten: one
for each ancestor, one for each field of the entity and one for its name. Here the passes are
shown to come to a single substitution: each placeholder is replaced, by itself, by what it
stands for, and what has been put in is not looked at again (`resolves_by_one_substitution`).

**Pieces.** A text in which every brace opens a placeholder is spelled by pieces, plain
characters and placeholders (`Regular.spelled`). A pass over the spelled text is a substitution
on the pieces (`fillPlaceholders_spell`, `replaceAll_spell`), and passes one after another are
the substitution by what the first of them puts in (`foldl_spell`).

**Why no pass disturbs another.** What is put in for a value is percent-encoded and has no brace.
So after a pass the text is again spelled by pieces, its placeholders are among those there were
before, and a field whose name has no closing brace is found in it as a whole placeholder or not
at all. A name such as `a}{b` would be found across two placeholders; such names are left out.
-/

set_option autoImplicit false

namespace DesiredState.Template

/-! ## The pieces of a text -/

/-- A piece of a template. -/
inductive Piece
  /-- Characters that stand for themselves. -/
  | text (characters : List Char)
  /-- A placeholder with its content. -/
  | placeholder (content : List Char)
  deriving DecidableEq, Repr

namespace Piece

/-- The characters a piece is written with. -/
def spelling : Piece → List Char
  | text characters => characters
  | placeholder content => Template.placeholder content

/-- Characters open no placeholder, and a placeholder has no braces inside. -/
def Proper : Piece → Prop
  | text characters => '\x7b' ∉ characters
  | placeholder content => '\x7b' ∉ content ∧ '\x7d' ∉ content

instance : DecidablePred Proper
  | text characters => inferInstanceAs (Decidable ('\x7b' ∉ characters))
  | placeholder content => inferInstanceAs (Decidable ('\x7b' ∉ content ∧ '\x7d' ∉ content))

/-- A piece with what `value?` gives for it put in. -/
def fill (value? : List Char → Option (List Char)) : Piece → Piece
  | text characters => text characters
  | placeholder content => ((value? content).map text).getD (placeholder content)

/-- The content of a placeholder. -/
def content? : Piece → Option (List Char)
  | text _ => none
  | placeholder content => some content

/-- Of two substitutions one after the other, the second fills in what the first has left. -/
theorem fill_fill (first second : List Char → Option (List Char)) :
    ∀ piece : Piece,
      (piece.fill first).fill second = piece.fill fun content => (first content).or (second content)
  | text _ => rfl
  | placeholder content => by
      cases known : first content with
      | none => simp [fill, known]
      | some shown => simp [fill, known]

@[simp] theorem fill_none : Piece.fill (fun _ => none) = id := by
  funext piece
  cases piece <;> rfl

end Piece

/-- Nothing that is put in opens a placeholder. -/
def Plain (value? : List Char → Option (List Char)) : Prop :=
  ∀ content shown, value? content = some shown → '\x7b' ∉ shown

theorem Plain.findSome? {Entry : Type} {value? : Entry → List Char → Option (List Char)}
    (plain : ∀ entry, Plain (value? entry)) (entries : List Entry) :
    Plain fun content => entries.findSome? fun entry => value? entry content := by
  intro content shown known
  obtain ⟨entry, _, here⟩ := List.exists_of_findSome?_eq_some known
  exact plain entry content shown here

/-- Pieces stay proper if what is put in opens no placeholder. -/
theorem Plain.proper_fill {value? : List Char → Option (List Char)} (plain : Plain value?)
    {pieces : List Piece} (proper : ∀ piece ∈ pieces, piece.Proper) :
    ∀ piece ∈ pieces.map (Piece.fill value?), piece.Proper := by
  intro piece member
  obtain ⟨before, stood, rfl⟩ := List.mem_map.mp member
  cases before with
  | text characters => exact proper _ stood
  | placeholder content =>
      cases known : value? content with
      | none => simpa [Piece.fill, known] using proper _ stood
      | some shown => simpa [Piece.fill, known, Piece.Proper] using plain content shown known

/-- The text that pieces spell. -/
def spell (pieces : List Piece) : List Char := pieces.flatMap Piece.spelling

/-- The contents of the placeholders among pieces. -/
def contents (pieces : List Piece) : List (List Char) := pieces.filterMap Piece.content?

@[simp] theorem spell_nil : spell [] = [] := rfl

@[simp] theorem spell_text (characters : List Char) (rest : List Piece) :
    spell (.text characters :: rest) = characters ++ spell rest := rfl

@[simp] theorem spell_placeholder (content : List Char) (rest : List Piece) :
    spell (.placeholder content :: rest) = placeholder content ++ spell rest := rfl

@[simp] theorem contents_nil : contents [] = [] := rfl

@[simp] theorem contents_text (characters : List Char) (rest : List Piece) :
    contents (.text characters :: rest) = contents rest := rfl

@[simp] theorem contents_placeholder (content : List Char) (rest : List Piece) :
    contents (.placeholder content :: rest) = content :: contents rest := rfl

/-- Every brace of the text opens a placeholder without braces inside. -/
def Regular (text : List Char) : Prop :=
  ∀ before after, text = before ++ '\x7b' :: after →
    ∃ content rest, after = content ++ '\x7d' :: rest ∧ '\x7b' ∉ content ∧ '\x7d' ∉ content

theorem Regular.of_append {front back : List Char} (regular : Regular (front ++ back)) :
    Regular back := by
  intro before after cut
  exact regular (front ++ before) after (by rw [cut, List.append_assoc])

/-- Characters in front that open no placeholder leave a text regular. -/
theorem Regular.append {characters rest : List Char} (plain : '\x7b' ∉ characters)
    (regular : Regular rest) : Regular (characters ++ rest) := by
  intro before after cut
  rcases List.append_eq_append_iff.mp cut with ⟨middle, rfl, follows⟩ | ⟨middle, parted, _⟩
  · exact regular middle after follows
  · cases middle with
    | nil => exact regular [] after (by simp_all)
    | cons character middle =>
        obtain rfl : character = '\x7b' := by simp_all
        exact absurd (parted ▸ List.mem_append_right _ (List.mem_cons_self ..)) plain

/-- What proper pieces spell is regular. -/
theorem regular_spell (pieces : List Piece) (proper : ∀ piece ∈ pieces, piece.Proper) :
    Regular (spell pieces) := by
  induction pieces with
  | nil =>
      intro before after cut
      simp at cut
  | cons piece pieces ih =>
      obtain ⟨here, later⟩ := List.forall_mem_cons.mp proper
      cases piece with
      | text characters => exact (ih later).append here
      | placeholder content =>
          have plain : '\x7b' ∉ content ++ ['\x7d'] := by simp [here.1]
          intro before after cut
          rw [spell_placeholder, placeholder_append] at cut
          cases before with
          | nil => exact ⟨content, spell pieces, (List.cons.inj cut).2.symm, here⟩
          | cons character before =>
              refine (ih later).append plain before after ?_
              simpa using (List.cons.inj cut).2

/-- A text in which every brace opens a placeholder is spelled by proper pieces. -/
theorem Regular.spelled (text : List Char) :
    Regular text → ∃ pieces, text = spell pieces ∧ ∀ piece ∈ pieces, piece.Proper := by
  fun_induction placeholders text with
  | case1 =>
      intro _
      exact ⟨[], rfl, by simp⟩
  | case2 rest unclosed =>
      intro regular
      obtain ⟨content, after, rfl, _, inside⟩ := regular [] rest rfl
      rw [dropWhile_delimited inside] at unclosed
      cases unclosed
  | case3 rest brace after closed ih =>
      intro regular
      obtain ⟨content, following, rfl, unopened, inside⟩ := regular [] rest rfl
      rw [dropWhile_delimited inside] at closed
      obtain ⟨rfl, rfl⟩ := List.cons.inj closed
      rw [← placeholder_append] at regular ⊢
      obtain ⟨pieces, rfl, proper⟩ := ih regular.of_append
      exact ⟨.placeholder content :: pieces, rfl,
        List.forall_mem_cons.mpr ⟨⟨unopened, inside⟩, proper⟩⟩
  | case4 character rest plain ih =>
      intro regular
      have later : Regular rest := by
        rw [← List.singleton_append] at regular
        exact regular.of_append
      obtain ⟨pieces, rfl, proper⟩ := ih later
      refine ⟨.text [character] :: pieces, rfl, List.forall_mem_cons.mpr ⟨?_, proper⟩⟩
      intro member
      exact plain (List.mem_singleton.mp member).symm

/-! ## One pass -/

/-- A text opens with a placeholder as a whole or not at all. -/
theorem placeholder_prefix_iff {name content : List Char} (named : '\x7d' ∉ name)
    (inside : '\x7d' ∉ content) (rest : List Char) :
    placeholder name <+: placeholder content ++ rest ↔ name = content := by
  constructor
  · rintro ⟨after, same⟩
    rw [placeholder_append, placeholder_append] at same
    have inner := (List.cons.inj same).2
    calc name = (name ++ '\x7d' :: after).takeWhile (· != '\x7d') := by
          rw [takeWhile_delimited named]
      _ = (content ++ '\x7d' :: rest).takeWhile (· != '\x7d') := by rw [inner]
      _ = content := takeWhile_delimited inside rest
  · rintro rfl
    exact List.prefix_append _ _

/-- A text that starts with another character does not open with a placeholder. -/
theorem not_placeholder_prefix {character : Char} (plain : character ≠ '\x7b')
    (name rest : List Char) : ¬ placeholder name <+: character :: rest := by
  rintro ⟨after, same⟩
  rw [placeholder_append] at same
  exact plain (List.cons.inj same).1.symm

section Passes

variable {value? : List Char → Option (List Char)} {name shown : List Char}

theorem fillPlaceholders_append {characters : List Char} (plain : '\x7b' ∉ characters)
    (rest : List Char) :
    fillPlaceholders value? (characters ++ rest) = characters ++ fillPlaceholders value? rest := by
  induction characters with
  | nil => rfl
  | cons character characters ih =>
      obtain ⟨other, later⟩ := List.ne_and_not_mem_of_not_mem_cons plain
      rw [List.cons_append, fillPlaceholders_cons (Ne.symm other), ih later, List.cons_append]

/-- Filling in twice is filling in at once, since no value opens a placeholder. -/
theorem fillPlaceholders_fillPlaceholders {other? : List Char → Option (List Char)}
    (plain : Plain value?) (text : List Char) :
    fillPlaceholders other? (fillPlaceholders value? text)
      = fillPlaceholders (fun content => (value? content).or (other? content)) text := by
  fun_induction placeholders text with
  | case1 => rw [fillPlaceholders, fillPlaceholders, fillPlaceholders]
  | case2 rest unclosed =>
      rw [fillPlaceholders_unclosed unclosed, fillPlaceholders_unclosed unclosed,
        fillPlaceholders_unclosed unclosed]
  | case3 rest brace after closed ih =>
      rw [fillPlaceholders_closed closed, fillPlaceholders_closed closed, ← ih]
      cases known : value? (rest.takeWhile (· != '\x7d')) with
      | some shown =>
          rw [Option.getD_some, fillPlaceholders_append (plain _ shown known), Option.some_or,
            Option.getD_some]
      | none =>
          -- what stays is the next placeholder to be filled in
          have inside := (dropWhile_eq_cons closed).2.1
          rw [Option.getD_none, placeholder_append,
            fillPlaceholders_closed (dropWhile_delimited inside _), takeWhile_delimited inside,
            Option.none_or]
  | case4 character rest other ih =>
      rw [fillPlaceholders_cons other, fillPlaceholders_cons other, fillPlaceholders_cons other, ih]

theorem fillPlaceholders_none (text : List Char) :
    fillPlaceholders (fun _ => none) text = text := by
  fun_induction placeholders text with
  | case1 => rw [fillPlaceholders]
  | case2 rest unclosed => rw [fillPlaceholders_unclosed unclosed]
  | case3 rest brace after closed ih =>
      obtain ⟨_, _, whole⟩ := dropWhile_eq_cons closed
      rw [fillPlaceholders_closed closed, ih, Option.getD_none, placeholder_append, ← whole]
  | case4 character rest other ih => rw [fillPlaceholders_cons other, ih]

/-- Filling in for one entry after another is filling in for the first one that has a value. -/
theorem foldl_fillPlaceholders {Entry : Type} {value? : Entry → List Char → Option (List Char)}
    (plain : ∀ entry, Plain (value? entry)) : ∀ (entries : List Entry) (text : List Char),
    entries.foldl (fun filled entry => fillPlaceholders (value? entry) filled) text
      = fillPlaceholders (fun content => entries.findSome? (value? · content)) text
  | [], text => (fillPlaceholders_none text).symm
  | entry :: entries, text => by
      rw [List.foldl_cons, foldl_fillPlaceholders plain entries,
        fillPlaceholders_fillPlaceholders (plain entry)]
      congr 1
      funext content
      rw [List.findSome?_cons]
      cases value? entry content <;> rfl

/-- **Filling in placeholders** is a substitution on the pieces. -/
theorem fillPlaceholders_spell (pieces : List Piece) (proper : ∀ piece ∈ pieces, piece.Proper) :
    fillPlaceholders value? (spell pieces) = spell (pieces.map (Piece.fill value?)) := by
  induction pieces with
  | nil => rw [spell_nil, fillPlaceholders]; rfl
  | cons piece pieces ih =>
      obtain ⟨here, later⟩ := List.forall_mem_cons.mp proper
      cases piece with
      | text characters =>
          rw [spell_text, fillPlaceholders_append here, ih later]
          rfl
      | placeholder content =>
          rw [spell_placeholder, placeholder_append,
            fillPlaceholders_closed (dropWhile_delimited here.2 _), takeWhile_delimited here.2,
            ih later]
          cases known : value? content with
          | none => simp [Piece.fill, known]
          | some shown => simp [Piece.fill, known]

theorem replaceAll_append {characters : List Char} (plain : '\x7b' ∉ characters)
    (rest : List Char) :
    replaceAll (placeholder name) shown (characters ++ rest)
      = characters ++ replaceAll (placeholder name) shown rest := by
  induction characters with
  | nil => rfl
  | cons character characters ih =>
      obtain ⟨other, later⟩ := List.ne_and_not_mem_of_not_mem_cons plain
      rw [List.cons_append, replaceAll, dif_neg, ih later, List.cons_append]
      rintro ⟨_, opens⟩
      exact not_placeholder_prefix (Ne.symm other) _ _ (List.isPrefixOf_iff_prefix.mp opens)

/-- The placeholder that is looked for is replaced. -/
theorem replaceAll_same (rest : List Char) :
    replaceAll (placeholder name) shown (placeholder name ++ rest)
      = shown ++ replaceAll (placeholder name) shown rest := by
  have opens : (placeholder name).isPrefixOf (placeholder name ++ rest) = true :=
    List.isPrefixOf_iff_prefix.mpr (List.prefix_append _ _)
  have cut : (placeholder name ++ rest).drop (placeholder name).length = rest :=
    List.drop_left
  rw [placeholder_append] at opens cut ⊢
  rw [replaceAll, dif_pos ⟨by simp [placeholder], opens⟩, cut]

/-- Another placeholder is passed by. -/
theorem replaceAll_other {content : List Char} (named : '\x7d' ∉ name)
    (inside : '\x7b' ∉ content ∧ '\x7d' ∉ content) (other : name ≠ content) (rest : List Char) :
    replaceAll (placeholder name) shown (placeholder content ++ rest)
      = placeholder content ++ replaceAll (placeholder name) shown rest := by
  have differs : ¬ placeholder name <+: placeholder content ++ rest := fun opens =>
    other ((placeholder_prefix_iff named inside.2 rest).mp opens)
  have plain : '\x7b' ∉ content ++ ['\x7d'] := by simp [inside.1]
  have parted : placeholder content ++ rest = '\x7b' :: ((content ++ ['\x7d']) ++ rest) := rfl
  rw [parted] at differs ⊢
  rw [replaceAll, dif_neg, replaceAll_append plain]
  · rfl
  · rintro ⟨_, opens⟩
    exact differs (List.isPrefixOf_iff_prefix.mp opens)

/-- **Replacing one placeholder** is a substitution on the pieces. -/
theorem replaceAll_spell (named : '\x7d' ∉ name) (pieces : List Piece)
    (proper : ∀ piece ∈ pieces, piece.Proper) :
    replaceAll (placeholder name) shown (spell pieces)
      = spell (pieces.map (Piece.fill fun content => if name = content then some shown else none))
        := by
  induction pieces with
  | nil => rw [spell_nil, replaceAll]; rfl
  | cons piece pieces ih =>
      obtain ⟨here, later⟩ := List.forall_mem_cons.mp proper
      cases piece with
      | text characters =>
          rw [spell_text, replaceAll_append here, ih later]
          rfl
      | placeholder content =>
          by_cases same : name = content
          · subst same
            rw [spell_placeholder, replaceAll_same, ih later]
            simp [Piece.fill]
          · rw [spell_placeholder, replaceAll_other named here same, ih later]
            simp [Piece.fill, same]

theorem occursIn_append {characters : List Char} (plain : '\x7b' ∉ characters) (rest : List Char) :
    occursIn (placeholder name) (characters ++ rest) = occursIn (placeholder name) rest := by
  induction characters with
  | nil => rfl
  | cons character characters ih =>
      obtain ⟨other, later⟩ := List.ne_and_not_mem_of_not_mem_cons plain
      have passed : (placeholder name).isPrefixOf (character :: (characters ++ rest)) = false :=
        eq_false_of_ne_true fun opens =>
          not_placeholder_prefix (Ne.symm other) _ _ (List.isPrefixOf_iff_prefix.mp opens)
      rw [List.cons_append, occursIn, passed, Bool.false_or, ih later]

/-- **A placeholder that occurs** in the text is one of the pieces. -/
theorem occursIn_spell (named : '\x7d' ∉ name) (pieces : List Piece)
    (proper : ∀ piece ∈ pieces, piece.Proper) :
    occursIn (placeholder name) (spell pieces) = true ↔ name ∈ contents pieces := by
  induction pieces with
  | nil => simp [occursIn, placeholder]
  | cons piece pieces ih =>
      obtain ⟨here, later⟩ := List.forall_mem_cons.mp proper
      cases piece with
      | text characters => rw [spell_text, occursIn_append here, ih later, contents_text]
      | placeholder content =>
          have plain : '\x7b' ∉ content ++ ['\x7d'] := by simp [here.1]
          have parted : placeholder content ++ spell pieces
              = '\x7b' :: ((content ++ ['\x7d']) ++ spell pieces) := rfl
          rw [spell_placeholder, contents_placeholder, List.mem_cons, ← ih later,
            ← placeholder_prefix_iff named here.2 (spell pieces), parted, occursIn,
            Bool.or_eq_true, List.isPrefixOf_iff_prefix, occursIn_append plain]

/-- A brace is in the text as long as a placeholder is among the pieces. -/
theorem brace_mem_spell_iff (pieces : List Piece) (proper : ∀ piece ∈ pieces, piece.Proper) :
    '\x7b' ∈ spell pieces ↔ contents pieces ≠ [] := by
  induction pieces with
  | nil => simp
  | cons piece pieces ih =>
      obtain ⟨here, later⟩ := List.forall_mem_cons.mp proper
      cases piece with
      | text characters =>
          have plain : '\x7b' ∉ characters := here
          rw [spell_text, List.mem_append, or_iff_right plain, ih later, contents_text]
      | placeholder content => simp [placeholder]

end Passes

/-! ## Passes one after another -/

/-- Passes over a text spelled by pieces: if each puts in what its own `value?` gives, and that
opens no placeholder, together they put in what the first of them gives. -/
theorem foldl_spell {Entry : Type} {pass : List Char → Entry → List Char}
    {value? : Entry → List Char → Option (List Char)} (entries : List Entry)
    (passes : ∀ entry ∈ entries, ∀ pieces : List Piece, (∀ piece ∈ pieces, piece.Proper) →
      pass (spell pieces) entry = spell (pieces.map (Piece.fill (value? entry))))
    (plain : ∀ entry, Plain (value? entry)) (pieces : List Piece)
    (proper : ∀ piece ∈ pieces, piece.Proper) :
    entries.foldl pass (spell pieces)
      = spell (pieces.map (Piece.fill fun content =>
          entries.findSome? fun entry => value? entry content)) := by
  induction entries generalizing pieces with
  | nil => simp
  | cons entry entries ih =>
      obtain ⟨here, later⟩ := List.forall_mem_cons.mp passes
      rw [List.foldl_cons, here pieces proper, ih later _ ((plain entry).proper_fill proper),
        List.map_map]
      congr 2
      funext piece
      rw [Function.comp_apply, Piece.fill_fill]
      congr 1
      funext content
      rw [List.findSome?_cons]
      cases value? entry content <;> rfl

/-! ## What a placeholder stands for -/

/-- The parts of a content with a dot: what stands before the first dot and what after it. -/
def qualified? (content : List Char) : Option (List Char × List Char) :=
  match content.dropWhile (· != '.') with
  | [] => none
  | _ :: field => some (content.takeWhile (· != '.'), field)

theorem qualified?_eq_some_iff {content type field : List Char} :
    qualified? content = some (type, field) ↔ content = type ++ '.' :: field ∧ '.' ∉ type := by
  constructor
  · intro parted
    unfold qualified? at parted
    split at parted
    · cases parted
    · rename_i cut
      obtain ⟨rfl, rfl⟩ := Prod.mk.inj (Option.some.inj parted)
      obtain ⟨_, free, whole⟩ := dropWhile_eq_cons cut
      exact ⟨whole, free⟩
  · rintro ⟨rfl, free⟩
    rw [qualified?, dropWhile_delimited free, takeWhile_delimited free]

/-- The value of the first ancestor that has the type and, under the name, a field with a value. -/
def inAncestors? (lineage : Lineage) (content : List Char) : Option (List Char) :=
  (qualified? content).bind fun parts =>
    lineage.entries.findSome? fun entry =>
      if Text.sameLetters (String.ofList parts.1) (String.ofList (stripSuffix entry.1.toList)) then
        (entry.2.fields.find? (String.ofList parts.2)).bind render?
      else none

/-- The value of the first field that has the name and a value. -/
def inFields? (fields : NameMap Json) (content : List Char) : Option (List Char) :=
  fields.entries.findSome? fun field =>
    if stripSuffix field.1.toList = content then render? field.2 else none

/-- The value of the name, which stands for the uuid. -/
def inName? (entity : Entity) (content : List Char) : Option (List Char) :=
  if content = "uuid".toList then (entity.field? "name").bind render? else none

/-- What a placeholder stands for: a field of an ancestor, else a field of the entity, else, for
the uuid, its name. -/
def standsFor? (lineage : Lineage) (entity : Entity) (content : List Char) :
    Option (List Char) :=
  ((inAncestors? lineage content).or (inFields? entity.fields content)).or (inName? entity content)

/-- What has become of a template whose pieces are filled in: the placeholders that are left tell
whether it is a path. -/
def outcome (pieces : List Piece) : Resolution :=
  if "uuid".toList ∈ contents pieces then .unidentified (String.ofList (spell pieces))
  else if contents pieces ≠ [] then .unfilled (String.ofList (spell pieces))
  else .path (String.ofList (rooted (spell pieces)))

/-- A name begins with what is left of it without its suffix. -/
theorem stripSuffix_isPrefix (name : List Char) : stripSuffix name <+: name := by
  fun_induction stripSuffix name with
  | case1 rest => exact List.nil_prefix
  | case2 => exact List.prefix_refl _
  | case3 character rest _ ih => exact List.prefix_cons_inj character |>.mpr ih

/-- Looking a content up in an ancestor, with the content taken apart first. -/
theorem ancestorValue?_eq (type : List Char) (fields : NameMap Json) (content : List Char) :
    ancestorValue? type fields content
      = (qualified? content).bind fun parts =>
          if Text.sameLetters (String.ofList parts.1) (String.ofList type) then
            (fields.find? (String.ofList parts.2)).bind render?
          else none := by
  unfold ancestorValue? qualified?
  cases content.dropWhile (· != '.') with
  | nil => rfl
  | cons dot field => simp only [Option.bind_some]

/-! ## No lookup opens a placeholder -/

theorem plain_ancestorValue (type : List Char) (fields : NameMap Json) :
    Plain (ancestorValue? type fields) := fun _ _ known => brace_not_mem_ancestorValue known

theorem plain_fieldValue (field : String × Json) :
    Plain fun content =>
      if stripSuffix field.1.toList = content then render? field.2 else none := by
  intro content shown known
  dsimp only at known
  split at known
  · exact brace_not_mem_render known
  · cases known

theorem plain_inName (entity : Entity) : Plain (inName? entity) := by
  intro content shown known
  unfold inName? at known
  split at known
  · obtain ⟨value, _, rendered⟩ := Option.bind_eq_some_iff.mp known
    exact brace_not_mem_render rendered
  · cases known

/-- The ancestors are asked one after another. -/
theorem inAncestors?_eq (lineage : Lineage) :
    inAncestors? lineage = fun content => lineage.entries.findSome? fun entry =>
      ancestorValue? (stripSuffix entry.1.toList) entry.2.fields content := by
  funext content
  simp only [inAncestors?, ancestorValue?_eq]
  cases qualified? content with
  | none => exact (List.findSome?_eq_none_iff.mpr fun _ _ => rfl).symm
  | some parts => simp only [Option.bind_some]

theorem plain_inAncestors (lineage : Lineage) : Plain (inAncestors? lineage) := by
  have plain : ∀ entry : String × Entity,
      Plain (ancestorValue? (stripSuffix entry.1.toList) entry.2.fields) :=
    fun entry => plain_ancestorValue _ entry.2.fields
  rw [inAncestors?_eq]
  exact Plain.findSome? plain lineage.entries

/-- **What the ancestors fill in**, whatever the text. -/
theorem fillAncestors_eq (lineage : Lineage) (text : List Char) :
    fillAncestors lineage text = fillPlaceholders (inAncestors? lineage) text := by
  have plain : ∀ entry : String × Entity,
      Plain (ancestorValue? (stripSuffix entry.1.toList) entry.2.fields) :=
    fun entry => plain_ancestorValue _ entry.2.fields
  rw [inAncestors?_eq, fillAncestors, foldl_fillPlaceholders plain]

theorem plain_inFields (fields : NameMap Json) : Plain (inFields? fields) :=
  Plain.findSome? plain_fieldValue fields.entries

/-! ## All passes -/

section Resolving

variable {lineage : Lineage} {entity : Entity} {pieces : List Piece}

/-- The ancestors fill in what a placeholder stands for in them. -/
theorem fillAncestors_spell (proper : ∀ piece ∈ pieces, piece.Proper) :
    fillAncestors lineage (spell pieces)
      = spell (pieces.map (Piece.fill (inAncestors? lineage))) := by
  rw [fillAncestors_eq, fillPlaceholders_spell pieces proper]

/-- The fields of the entity fill in what a placeholder stands for in them. -/
theorem fillFields_spell {fields : NameMap Json}
    (closed : ∀ field ∈ fields.entries, '\x7d' ∉ field.1.toList)
    (proper : ∀ piece ∈ pieces, piece.Proper) :
    fillFields fields (spell pieces) = spell (pieces.map (Piece.fill (inFields? fields))) := by
  apply foldl_spell fields.entries ?_ plain_fieldValue pieces proper
  intro field member pieces proper
  have named : '\x7d' ∉ stripSuffix field.1.toList := fun inside =>
    closed field member ((stripSuffix_isPrefix _).subset inside)
  unfold fillField
  cases render? field.2 with
  | none => simp
  | some shown => exact replaceAll_spell named pieces proper

/-- The name of the entity fills in the uuid. -/
theorem fillUuid_spell (proper : ∀ piece ∈ pieces, piece.Proper) :
    fillUuid entity (spell pieces) = spell (pieces.map (Piece.fill (inName? entity))) := by
  unfold fillUuid inName?
  cases (entity.field? "name").bind render? with
  | none => simp
  | some shown =>
      simp only [eq_comm (b := "uuid".toList)]
      exact replaceAll_spell (by decide) pieces proper

/-- Whatever pieces spell a template, they are filled in one by one. -/
theorem resolve_spell {template : String} (spelled : template.toList = spell pieces)
    (closed : ∀ field ∈ entity.fields.entries, '\x7d' ∉ field.1.toList)
    (proper : ∀ piece ∈ pieces, piece.Proper) :
    resolve lineage entity template
      = outcome (pieces.map (Piece.fill (standsFor? lineage entity))) := by
  have placed := (plain_inAncestors lineage).proper_fill proper
  have owned := (plain_inFields entity.fields).proper_fill placed
  have named := (plain_inName entity).proper_fill owned
  have together : ((pieces.map (Piece.fill (inAncestors? lineage))).map
        (Piece.fill (inFields? entity.fields))).map (Piece.fill (inName? entity))
      = pieces.map (Piece.fill (standsFor? lineage entity)) := by
    rw [List.map_map, List.map_map]
    apply List.map_congr_left
    intro piece _
    simp only [Function.comp_apply, Piece.fill_fill]
    rfl
  have filled : fill lineage entity template
      = spell (pieces.map (Piece.fill (standsFor? lineage entity))) := by
    rw [fill, spelled, fillAncestors_spell proper, fillFields_spell closed placed,
      fillUuid_spell owned, together]
  rw [together] at named
  have braceless : '\x7d' ∉ "uuid".toList := by decide
  have stays := occursIn_spell braceless _ named
  have opens := brace_mem_spell_iff _ named
  simp only [resolve, outcome, filled, uuidPlaceholder, List.contains_iff_mem, stays, opens]

/-- **One substitution.** A template in which every brace opens a placeholder is taken apart into
its pieces, and each placeholder is replaced, by itself, by what it stands for. The placeholders
that are left tell what has become of the template. -/
theorem resolves_by_one_substitution {template : String} (regular : Regular template.toList)
    (closed : ∀ field ∈ entity.fields.entries, '\x7d' ∉ field.1.toList) :
    ∃ pieces, template.toList = spell pieces ∧ (∀ piece ∈ pieces, piece.Proper) ∧
      resolve lineage entity template
        = outcome (pieces.map (Piece.fill (standsFor? lineage entity))) := by
  obtain ⟨pieces, spelled, proper⟩ := regular.spelled
  exact ⟨pieces, spelled, proper, resolve_spell spelled closed proper⟩

end Resolving

/-- A field with a closing brace in its name is found across two placeholders, neither of which
stands for anything. -/
example : resolve .empty (.ofRemote (.object [("a\x7d\x7bb", .string "c")]) "Device")
    "\x7ba\x7d\x7bb\x7d" = .path "/c" := by
  decide +kernel

/-! ## A device of a site -/

namespace Sample

/-- Two sites whose types differ in case and suffix; the first has no code. -/
def sites : Lineage :=
  ⟨[("Site$$old", .ofRemote (.object [("code", .null)]) "Site$$old"),
    ("SITE", .ofRemote (.object [("code", .string "x\x7buuid\x7d")]) "SITE")]⟩

/-- A device with two labels, the first of which is null, and without a uuid. -/
def device : Entity :=
  .ofRemote (.object [("label", .null), ("label$$2", .string "b/c"), ("name", .string "n 1")])
    "Device"

def devicePath : String := "sites/\x7bsite.code\x7d/\x7blabel\x7d/\x7buuid\x7d"

def devicePieces : List Piece :=
  [.text "sites/".toList, .placeholder "site.code".toList, .text "/".toList,
    .placeholder "label".toList, .text "/".toList, .placeholder "uuid".toList]

theorem device_resolved :
    resolve sites device devicePath = .path "/sites/x%7Buuid%7D/b%2Fc/n%201" := by
  decide +kernel

/-- The code of the second site looks like a placeholder and is not filled in again. -/
theorem device_resolved_at_one_stroke :
    Regular devicePath.toList ∧ (∀ field ∈ device.fields.entries, '\x7d' ∉ field.1.toList) ∧
      ∃ pieces, devicePath.toList = spell pieces ∧ (∀ piece ∈ pieces, piece.Proper) ∧
        resolve sites device devicePath
          = outcome (pieces.map (Piece.fill (standsFor? sites device))) := by
  have regular : Regular devicePath.toList := by
    have spelled : devicePath.toList = spell devicePieces := by decide +kernel
    rw [spelled]
    exact regular_spell _ (by decide +kernel)
  have closed : ∀ field ∈ device.fields.entries, '\x7d' ∉ field.1.toList := by decide +kernel
  exact ⟨regular, closed, resolves_by_one_substitution regular closed⟩

end Sample

end DesiredState.Template
