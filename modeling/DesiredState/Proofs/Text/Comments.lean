import DesiredState.Catalog.Basic
import DesiredState.Entity.Document
import DesiredState.Proofs.Json.Lexeme

/-!
# Comments say nothing

Comments may stand before, between and after the lexemes of a document, in any number and with any
content. Removing them leaves the document as it was written, with a space where a block comment
stood and a newline where a line comment ended with one; so a document says the same with comments
and without (`comments_say_nothing`).

**What a comment may hold.** A line comment holds no newline and a block comment no `*/`; that is
all. Quotation marks, backslashes and the openings of other comments mean nothing in a comment, as
openings of comments mean nothing in a literal. The stripper looks at one character of a block
comment at a time and remembers whether the one before was a star, and this star must be one of the
content: a comment that begins with `/*/` is still open.

**No atoms meet.** No two atoms of a document are neighbours, and the blank that a comment leaves is
no atom. So what is left is divided into lexemes as well, and these are the lexemes of the document,
blanks apart.
-/

set_option autoImplicit false

namespace DesiredState.Text.Comments

open Json (Glyph Lexeme)

/-- A text with comments between the lexemes of a document, and what is to be left of it: the
lexemes, a space for each block comment and a newline for each line comment that ends with one. -/
inductive Commented : List Lexeme → List Char → List Lexeme → Prop
  | finished : Commented [] [] []
  | lexeme (lexeme : Lexeme) {lexemes left : List Lexeme} {commented : List Char}
      (rest : Commented lexemes commented left) :
      Commented (lexeme :: lexemes) (lexeme.text ++ commented) (lexeme :: left)
  | block (content : List Char) (closed : ¬ ['*', '/'] <:+: content) {lexemes left : List Lexeme}
      {commented : List Char} (rest : Commented lexemes commented left) :
      Commented lexemes ('/' :: '*' :: (content ++ '*' :: '/' :: commented)) (.blank ' ' :: left)
  | line (content : List Char) (closed : '\n' ∉ content) {lexemes left : List Lexeme}
      {commented : List Char} (rest : Commented lexemes commented left) :
      Commented lexemes ('/' :: '/' :: (content ++ '\n' :: commented)) (.blank '\n' :: left)
  /-- The newline may be one of the document. -/
  | lineEnd (content : List Char) (closed : '\n' ∉ content) {lexemes left : List Lexeme}
      {commented : List Char} (rest : Commented lexemes commented left) :
      Commented (.blank '\n' :: lexemes) ('/' :: '/' :: (content ++ '\n' :: commented))
        (.blank '\n' :: left)
  /-- A line comment may also end with the text. -/
  | last (content : List Char) (closed : '\n' ∉ content) :
      Commented [] ('/' :: '/' :: content) []

/-! ## What is left of one piece -/

theorem stripFrom_glyph {glyph : Glyph} {rest : List Char} (formed : glyph.Formed) :
    stripFrom .quoted (glyph.text ++ rest) = glyph.text ++ stripFrom .quoted rest := by
  cases glyph with
  | escaped character => rfl
  | plain character =>
    obtain ⟨noQuote, noBackslash⟩ := formed
    rw [Glyph.text, List.singleton_append, stripFrom_quoted noQuote noBackslash,
      List.singleton_append]

/-- What a literal holds stays as it is, whatever that is. -/
theorem stripFrom_content {content : List Glyph} {rest : List Char}
    (formed : ∀ glyph ∈ content, glyph.Formed) :
    stripFrom .quoted (content.flatMap Glyph.text ++ rest) =
      content.flatMap Glyph.text ++ stripFrom .quoted rest := by
  induction content with
  | nil => rfl
  | cons glyph content ih =>
    obtain ⟨first, others⟩ := List.forall_mem_cons.mp formed
    rw [List.flatMap_cons, List.append_assoc, stripFrom_glyph first, ih others, List.append_assoc]

theorem stripFrom_literal {content : List Glyph} {rest : List Char}
    (formed : ∀ glyph ∈ content, glyph.Formed) :
    stripFrom .quoted (content.flatMap Glyph.text ++ '"' :: rest) =
      content.flatMap Glyph.text ++ '"' :: stripFrom .plain rest := by
  rw [stripFrom_content formed]
  rfl

theorem stripFrom_atom {characters rest : List Char}
    (atomic : ∀ character ∈ characters, Lexeme.isAtomic character = true) :
    stripFrom .plain (characters ++ rest) = characters ++ stripFrom .plain rest := by
  induction characters with
  | nil => rfl
  | cons character characters ih =>
    obtain ⟨first, others⟩ := List.forall_mem_cons.mp atomic
    rw [List.cons_append, stripFrom_plain _ _, ih others, List.cons_append]
    all_goals
      rintro rfl
      exact absurd first (by decide)

/-- **A lexeme stays as it is.** -/
theorem stripFrom_lexeme {lexeme : Lexeme} {rest : List Char} (formed : lexeme.Formed) :
    stripFrom .plain (lexeme.text ++ rest) = lexeme.text ++ stripFrom .plain rest := by
  cases lexeme with
  | blank character =>
    refine stripFrom_plain ?_ ?_ <;> rintro rfl <;> exact absurd formed (by decide)
  | mark character =>
    refine stripFrom_plain ?_ ?_ <;> rintro rfl <;> exact absurd formed (by decide)
  | atom characters => exact stripFrom_atom formed.2
  | literal content =>
    have opened : stripFrom .plain ('"' :: (content.flatMap Glyph.text ++ '"' :: rest))
        = '"' :: stripFrom .quoted (content.flatMap Glyph.text ++ '"' :: rest) := rfl
    rw [Lexeme.text, List.cons_append, List.append_assoc, List.singleton_append, opened,
      stripFrom_literal formed, List.cons_append, List.append_assoc, List.singleton_append]

/-- What a line comment holds is left out. -/
theorem stripFrom_line_append {content rest : List Char} (closed : '\n' ∉ content) :
    stripFrom .line (content ++ rest) = stripFrom .line rest := by
  induction content with
  | nil => rfl
  | cons character content ih =>
    obtain ⟨other, closed⟩ := not_or.mp (mt List.mem_cons.mpr closed)
    rw [List.cons_append, stripFrom_line_cons fun same => other same.symm, ih closed]

theorem stripFrom_line {content rest : List Char} (closed : '\n' ∉ content) :
    stripFrom .line (content ++ '\n' :: rest) = '\n' :: stripFrom .plain rest := by
  rw [stripFrom_line_append closed]
  rfl

theorem stripFrom_last {content : List Char} (closed : '\n' ∉ content) :
    stripFrom .line content = [] := by
  rw [← List.append_nil content, stripFrom_line_append closed]
  rfl

/-- What a block comment holds is left out. A star that is remembered must not be followed by a
slash. -/
theorem stripFrom_block_append {content : List Char} (closed : ¬ ['*', '/'] <:+: content)
    (afterStar : Bool) (goesOn : afterStar = true → content.head? ≠ some '/') :
    ∃ star, ∀ rest,
      stripFrom (.block afterStar) (content ++ rest) = stripFrom (.block star) rest := by
  induction content generalizing afterStar with
  | nil => exact ⟨afterStar, fun _ => rfl⟩
  | cons character content ih =>
    have noSlash : afterStar = true → character ≠ '/' := by
      rintro after rfl
      exact goesOn after rfl
    have later : ∃ star, ∀ rest,
        stripFrom (.block (character == '*')) (content ++ rest) = stripFrom (.block star) rest := by
      refine ih (fun inside => closed (List.infix_cons inside)) _ fun star slash => ?_
      obtain ⟨rest, rfl⟩ := List.head?_eq_some_iff.mp slash
      exact closed (List.IsPrefix.isInfix ⟨rest, by rw [beq_iff_eq.mp star]; rfl⟩)
    obtain ⟨star, others⟩ := later
    exact ⟨star, fun rest => (stripFrom_block_cons noSlash).trans (others rest)⟩

/-- The content of a block comment ends with the first star that a slash follows. -/
theorem stripFrom_block {content rest : List Char} (closed : ¬ ['*', '/'] <:+: content) :
    stripFrom (.block false) (content ++ '*' :: '/' :: rest) = ' ' :: stripFrom .plain rest := by
  obtain ⟨star, within⟩ := stripFrom_block_append closed false (by simp)
  rw [within]
  cases star <;> rfl

/-- **What is left of a text with comments.** -/
theorem stripFrom_commented {lexemes left : List Lexeme} {commented : List Char}
    (inserted : Commented lexemes commented left)
    (formed : ∀ lexeme ∈ lexemes, lexeme.Formed) :
    stripFrom .plain commented = Lexeme.spell left := by
  induction inserted with
  | finished => rfl
  | lexeme lexeme _ ih =>
    obtain ⟨first, others⟩ := List.forall_mem_cons.mp formed
    rw [stripFrom_lexeme first, ih others, Lexeme.spell_cons]
  | block content closed _ ih =>
    refine (stripFrom_block closed).trans ?_
    rw [ih formed]
    rfl
  | line content closed _ ih =>
    refine (stripFrom_line closed).trans ?_
    rw [ih formed]
    rfl
  | lineEnd content closed _ ih =>
    obtain ⟨_, others⟩ := List.forall_mem_cons.mp formed
    refine (stripFrom_line closed).trans ?_
    rw [ih others]
    rfl
  | last content closed => exact stripFrom_last closed

/-! ## The lexemes that are left -/

theorem commented_spell (lexemes : List Lexeme) :
    Commented lexemes (Lexeme.spell lexemes) lexemes := by
  induction lexemes with
  | nil => exact .finished
  | cons lexeme lexemes ih => exact .lexeme lexeme ih

/-- The lexemes of the document are left, with nothing but blanks between them. -/
theorem Commented.filter {lexemes left : List Lexeme} {commented : List Char}
    (inserted : Commented lexemes commented left) :
    left.filter (·.kind ≠ .blank) = lexemes.filter (·.kind ≠ .blank) := by
  induction inserted with
  | finished => rfl
  | lexeme lexeme _ ih => rw [List.filter_cons, List.filter_cons, ih]
  | block content closed _ ih => exact ih
  | line content closed _ ih => exact ih
  | lineEnd content closed _ ih => exact ih
  | last content closed => rfl

/-- Where an atom comes first in what is left, it does so in the document. -/
theorem Commented.head {lexemes left : List Lexeme} {commented : List Char}
    (inserted : Commented lexemes commented left) {first : Lexeme} (begins : first ∈ left.head?)
    (atom : first.kind = .atom) : first ∈ lexemes.head? := by
  cases inserted with
  | finished => cases begins
  | lexeme lexeme _ => exact begins
  | block =>
    cases begins
    cases atom
  | line =>
    cases begins
    cases atom
  | lineEnd =>
    cases begins
    cases atom
  | last => cases begins

/-- What is left of a divided document is divided. -/
theorem Commented.divided {lexemes left : List Lexeme} {commented : List Char}
    (inserted : Commented lexemes commented left) (divided : Lexeme.Divided lexemes) :
    Lexeme.Divided left := by
  induction inserted with
  | finished => exact divided
  | lexeme lexeme rest ih =>
    refine ⟨List.forall_mem_cons.mpr ⟨divided.formed _ List.mem_cons_self,
      (ih divided.tail).formed⟩, List.isChain_cons.mpr ⟨fun next begins atom nextAtom => ?_,
      (ih divided.tail).apart⟩⟩
    exact (List.isChain_cons.mp divided.apart).1 next (rest.head begins nextAtom) atom nextAtom
  | block content closed _ ih => exact (ih divided).cons rfl Lexeme.Kind.noConfusion
  | line content closed _ ih => exact (ih divided).cons rfl Lexeme.Kind.noConfusion
  | lineEnd content closed _ ih => exact (ih divided.tail).cons rfl Lexeme.Kind.noConfusion
  | last content closed => exact divided

/-! ## The documents -/

/-- **Comments say nothing.** Every text that can be read is divided into lexemes, and in one way
only. A text without comments is returned as it is. Of a text with comments the stripper leaves
the lexemes, literals included, with a space for each block comment and the newline of each line
comment; so it is read as the text without them, as a JSON text, as a model document and as a
catalog. -/
theorem comments_say_nothing :
    (∀ {text : String} {value : Json}, Json.read? text = some value →
      ∃ lexemes, Lexeme.Divided lexemes ∧ String.ofList (Lexeme.spell lexemes) = text) ∧
    ∀ {text : String} {lexemes : List Lexeme}, Lexeme.Divided lexemes →
      String.ofList (Lexeme.spell lexemes) = text →
      (∀ other, Lexeme.Divided other → String.ofList (Lexeme.spell other) = text →
        other = lexemes) ∧
      strip text = text ∧
      ∀ {commented : List Char} {left : List Lexeme}, Commented lexemes commented left →
        strip (String.ofList commented) = String.ofList (Lexeme.spell left) ∧
        left.filter (·.kind ≠ .blank) = lexemes.filter (·.kind ≠ .blank) ∧
        Json.read? (strip (String.ofList commented)) = Json.read? text ∧
        Document.nodes? (String.ofList commented) = Document.nodes? text ∧
        Catalog.names? (String.ofList commented) = Catalog.names? text := by
  refine ⟨Json.exists_divided, fun {text lexemes} divided spelled => ?_⟩
  subst spelled
  have stripped : ∀ {commented left}, Commented lexemes commented left →
      strip (String.ofList commented) = String.ofList (Lexeme.spell left) := by
    intro commented left inserted
    rw [strip, String.toList_ofList, stripFrom_commented inserted divided.formed]
  have same := stripped (commented_spell lexemes)
  refine ⟨fun other otherDivided spelled => ?_, same, fun {commented left} inserted => ?_⟩
  · exact Lexeme.spell_inj otherDivided divided (String.ofList_injective spelled)
  · have read : Json.read? (strip (String.ofList commented)) =
        Json.read? (String.ofList (Lexeme.spell lexemes)) := by
      rw [stripped inserted]
      exact Json.read?_congr (inserted.divided divided) divided inserted.filter
    refine ⟨stripped inserted, inserted.filter, read, ?_, ?_⟩
    · rw [Document.nodes?, Document.nodes?, read, same]
    · rw [Catalog.names?, Catalog.names?, read, same]

namespace Sample

/-- A document whose literals look like comments. -/
def remarks : String := "[\x7b\"a//\\\"\":\"/*\"\x7d,\nnull]"

/-- The lexemes of this document. -/
def remarkLexemes : List Lexeme :=
  [.mark '[', .mark '\x7b', .literal [.plain 'a', .plain '/', .plain '/', .escaped '"'], .mark ':',
    .literal [.plain '/', .plain '*'], .mark '\x7d', .mark ',', .blank '\n',
    .atom ['n', 'u', 'l', 'l'], .mark ']']

/-- The document with comments that look like literals and like the ends of comments. -/
def remarked : String :=
  "/*/ \"*/[//[\n\x7b\"a//\\\"\":/***/\"/*\"\x7d,// no \"\nnull]//* end"

/-- What is left of them. -/
def remarksLeft : String := " [\n\x7b\"a//\\\"\": \"/*\"\x7d,\nnull]"

theorem remarkLexemes_divided : Lexeme.Divided remarkLexemes :=
  ⟨by decide, by simp [remarkLexemes, Lexeme.kind]⟩

theorem remarked_commented : ∃ left, String.ofList (Lexeme.spell left) = remarksLeft ∧
    Commented remarkLexemes remarked.toList left :=
  ⟨_, rfl, .block ['/', ' ', '"'] (by decide) <| .lexeme _ <| .line ['['] (by decide) <|
    .lexeme _ <| .lexeme _ <| .lexeme _ <| .block ['*'] (by decide) <| .lexeme _ <| .lexeme _ <|
    .lexeme _ <| .lineEnd [' ', 'n', 'o', ' ', '"'] (by decide) <| .lexeme _ <| .lexeme _ <|
    .last ['*', ' ', 'e', 'n', 'd'] (by decide)⟩

/-- The document is read as if the comments were not there. -/
theorem remarks_read_through :
    Json.read? remarks = some (.array [.object [("a//\"", .string "/*")], .null]) ∧
      strip remarks = remarks ∧ strip remarked = remarksLeft ∧
      Json.read? (strip remarked) = Json.read? remarks ∧
      ∃ lexemes, Lexeme.Divided lexemes ∧ String.ofList (Lexeme.spell lexemes) = remarks := by
  have readable :
      Json.read? remarks = some (.array [.object [("a//\"", .string "/*")], .null]) := by rfl
  obtain ⟨readableDivided, dividedSame⟩ := comments_say_nothing
  obtain ⟨left, spelled, inserted⟩ := remarked_commented
  obtain ⟨_, same, others⟩ :=
    dividedSame remarkLexemes_divided (show String.ofList _ = remarks from rfl)
  obtain ⟨stripped, _, read, _⟩ := others inserted
  rw [String.ofList_toList] at stripped read
  exact ⟨readable, same, stripped.trans spelled, read, readableDivided readable⟩

end Sample

end DesiredState.Text.Comments
