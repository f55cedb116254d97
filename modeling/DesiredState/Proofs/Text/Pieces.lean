import DesiredState.Proofs.Text.Comments

/-!
# Stripped once, stripped for good

Any text at all, well formed or not, is made of plain characters, literals, line comments and block
comments, and of what is still open where it ends (`exists_divided`), in one way only
(`Divided.unique`). Removing comments puts a newline or a space in the place of each comment and
keeps every other piece (`stripFrom_spell`), and what is left is made of just these pieces again
(`Divided.left`). So nothing is left to be removed (`stripped_for_good`).

**What a comment might leave behind.** When a comment is gone, the characters around it are parted
by no more than what is put in its place. A newline and a space open nothing. A slash right before a
comment would be the first of two slashes and open a comment itself, so the slash that is plain has
neither a slash nor a star after it, nor a comment, and what does stand after it is still there when
the comments are gone (`Piece.Alone.left`).

**The end of the text.** A literal that is not closed runs to the end, and its last character may be
a backslash with nothing to escape. A line comment may end with the text, and then leaves nothing; a
block comment that is not closed leaves its space.
-/

set_option autoImplicit false

namespace DesiredState.Text.Comments

open Json (Glyph Lexeme)

/-! ## Pieces -/

/-- One of the pieces that any text is made of. -/
inductive Piece
  /-- A character outside literals and comments. -/
  | plain (character : Char)
  /-- What stands between two quotation marks. -/
  | literal (content : List Glyph)
  /-- What stands between two slashes and the newline after them. -/
  | line (content : List Char)
  /-- What stands between `/*` and `*/`. -/
  | block (content : List Char)
  deriving DecidableEq

/-- What is open where a text ends. -/
inductive Ending
  | closed
  /-- A literal; the flag tells whether the last character is a backslash that escapes nothing. -/
  | literal (content : List Glyph) (backslash : Bool)
  | line (content : List Char)
  | block (content : List Char)
  deriving DecidableEq

/-- The backslash that a literal ends with where the text does. -/
def trailing (backslash : Bool) : List Char := if backslash then ['\\'] else []

namespace Piece

/-- The characters of a piece. -/
def text : Piece → List Char
  | plain character => [character]
  | literal content => '"' :: (content.flatMap Glyph.text ++ ['"'])
  | line content => '/' :: '/' :: (content ++ ['\n'])
  | block content => '/' :: '*' :: (content ++ ['*', '/'])

/-- A piece ends at the first place where it can. -/
def Formed : Piece → Prop
  | plain character => character ≠ '"'
  | literal content => ∀ glyph ∈ content, glyph.Formed
  | line content => '\n' ∉ content
  | block content => ¬ ['*', '/'] <:+: content

instance : (piece : Piece) → Decidable piece.Formed
  | plain character => inferInstanceAs (Decidable (character ≠ '"'))
  | literal content => inferInstanceAs (Decidable (∀ glyph ∈ content, glyph.Formed))
  | line content => inferInstanceAs (Decidable ('\n' ∉ content))
  | block content => inferInstanceAs (Decidable (¬ ['*', '/'] <:+: content))

/-- What the characters of a piece are part of. -/
def place : Piece → Place
  | plain _ => .plain
  | literal _ => .quoted
  | line _ => .line
  | block _ => .block false

/-- What is left of a piece. -/
def left : Piece → Piece
  | plain character => plain character
  | literal content => literal content
  | line _ => plain '\n'
  | block _ => plain ' '

end Piece

namespace Ending

/-- The characters of what is open. -/
def text : Ending → List Char
  | closed => []
  | literal content backslash => '"' :: (content.flatMap Glyph.text ++ trailing backslash)
  | line content => '/' :: '/' :: content
  | block content => '/' :: '*' :: content

/-- There is no place where it could have ended before. -/
def Formed : Ending → Prop
  | closed => True
  | literal content _ => ∀ glyph ∈ content, glyph.Formed
  | line content => '\n' ∉ content
  | block content => ¬ ['*', '/'] <:+: content

instance : (ending : Ending) → Decidable ending.Formed
  | closed => .isTrue trivial
  | literal content _ => inferInstanceAs (Decidable (∀ glyph ∈ content, glyph.Formed))
  | line content => inferInstanceAs (Decidable ('\n' ∉ content))
  | block content => inferInstanceAs (Decidable (¬ ['*', '/'] <:+: content))

/-- What the last characters are part of. -/
def place : Ending → Place
  | closed => .plain
  | literal .. => .quoted
  | line _ => .line
  | block _ => .block false

/-- The space that an open block comment leaves. -/
def blanks : Ending → List Piece
  | block _ => [.plain ' ']
  | _ => []

/-- What is open when the comments are gone. -/
def left : Ending → Ending
  | literal content backslash => literal content backslash
  | _ => closed

end Ending

/-- What pieces and an ending spell. -/
def spell (pieces : List Piece) (ending : Ending) : List Char :=
  pieces.flatMap Piece.text ++ ending.text

/-- The pieces that are left of pieces and an ending. -/
def remains (pieces : List Piece) (ending : Ending) : List Piece :=
  pieces.map Piece.left ++ ending.blanks

@[simp] theorem spell_nil (ending : Ending) : spell [] ending = ending.text := rfl

@[simp] theorem spell_cons (piece : Piece) (pieces : List Piece) (ending : Ending) :
    spell (piece :: pieces) ending = piece.text ++ spell pieces ending := by
  simp [spell]

@[simp] theorem remains_nil (ending : Ending) : remains [] ending = ending.blanks := rfl

@[simp] theorem remains_cons (piece : Piece) (pieces : List Piece) (ending : Ending) :
    remains (piece :: pieces) ending = piece.left :: remains pieces ending := rfl

/-- The slash, if there is one, begins no comment together with the text after it. -/
def Piece.Alone (piece : Piece) (after : List Char) : Prop :=
  piece = .plain '/' → after.head? ≠ some '/' ∧ after.head? ≠ some '*'

instance (piece : Piece) (after : List Char) : Decidable (piece.Alone after) :=
  inferInstanceAs
    (Decidable (piece = .plain '/' → after.head? ≠ some '/' ∧ after.head? ≠ some '*'))

theorem Piece.Alone.of_place {piece : Piece} {after : List Char} (other : piece.place ≠ .plain) :
    piece.Alone after := fun slash => absurd (congrArg Piece.place slash) other

/-- Pieces and an ending that divide the text they spell. -/
inductive Divided (ending : Ending) : List Piece → Prop
  | finished (formed : ending.Formed) : Divided ending []
  | piece {first : Piece} {others : List Piece} (formed : first.Formed)
      (alone : first.Alone (spell others ending)) (rest : Divided ending others) :
      Divided ending (first :: others)

variable {ending : Ending} {pieces : List Piece}

/-! ## What is left -/

theorem stripFrom_slash {rest : List Char} (alone : (Piece.plain '/').Alone rest) :
    stripFrom .plain ('/' :: rest) = '/' :: stripFrom .plain rest := by
  cases rest with
  | nil => rfl
  | cons next rest =>
    obtain ⟨noSlash, noStar⟩ : next ≠ '/' ∧ next ≠ '*' := by simpa using alone rfl
    simp [stripFrom, noSlash, noStar]

/-- **What is left of a piece** does not depend on what comes after it. -/
theorem stripFrom_piece {piece : Piece} {rest : List Char} (formed : piece.Formed)
    (alone : piece.Alone rest) :
    stripFrom .plain (piece.text ++ rest) = piece.left.text ++ stripFrom .plain rest := by
  cases piece with
  | plain character =>
    by_cases slash : character = '/'
    · subst slash
      exact stripFrom_slash alone
    · exact stripFrom_plain slash formed
  | literal content =>
    simp only [Piece.text, Piece.left, List.cons_append, List.append_assoc, List.nil_append]
    exact congrArg ('"' :: ·) (stripFrom_literal formed)
  | line content =>
    simp only [Piece.text, List.cons_append, List.append_assoc, List.nil_append]
    exact stripFrom_line formed
  | block content =>
    simp only [Piece.text, List.cons_append, List.append_assoc, List.nil_append]
    exact stripFrom_block formed

theorem stripFrom_ending (formed : ending.Formed) :
    stripFrom .plain ending.text = spell ending.blanks ending.left := by
  cases ending with
  | closed => rfl
  | literal content backslash =>
    have last : stripFrom .quoted (trailing backslash) = trailing backslash := by
      cases backslash <;> rfl
    refine congrArg ('"' :: ·) ?_
    rw [stripFrom_content formed, last]
  | line content => exact stripFrom_last formed
  | block content =>
    obtain ⟨star, within⟩ := stripFrom_block_append formed false (by simp)
    have last : stripFrom (.block star) [] = [' '] := by
      cases star <;> rfl
    have whole := within []
    rw [last, List.append_nil] at whole
    exact whole

/-- **What is left of a text** is spelled by what is left of its pieces. -/
theorem stripFrom_spell (divided : Divided ending pieces) :
    stripFrom .plain (spell pieces ending) = spell (remains pieces ending) ending.left := by
  induction divided with
  | finished formed => exact stripFrom_ending formed
  | piece formed alone _ ih =>
    rw [spell_cons, remains_cons, spell_cons, stripFrom_piece formed alone, ih]

/-! ## What is left is divided in the same way -/

theorem Piece.Formed.left {piece : Piece} (formed : piece.Formed) : piece.left.Formed := by
  cases piece with
  | plain character => exact formed
  | literal content => exact formed
  | line content => exact (by decide : '\n' ≠ '"')
  | block content => exact (by decide : ' ' ≠ '"')

theorem Piece.text_ne_nil (piece : Piece) : piece.text ≠ [] := by
  cases piece <;> exact List.cons_ne_nil _ _

/-- What is left of a text begins as the text does, or with a blank. -/
theorem head?_spell_remains {next : Char}
    (first : (spell (remains pieces ending) ending.left).head? = some next) :
    (spell pieces ending).head? = some next ∨ next ≠ '/' ∧ next ≠ '*' := by
  cases pieces with
  | nil =>
    cases ending with
    | closed => exact .inl first
    | literal content backslash => exact .inl first
    | line content => cases first
    | block content =>
      cases first
      exact .inr (by decide)
  | cons piece others =>
    cases piece with
    | plain character => exact .inl first
    | literal content => exact .inl first
    | line content =>
      cases first
      exact .inr (by decide)
    | block content =>
      cases first
      exact .inr (by decide)

theorem Piece.Alone.left {piece : Piece} (alone : piece.Alone (spell pieces ending)) :
    piece.left.Alone (spell (remains pieces ending) ending.left) := by
  intro slash
  have same : piece = .plain '/' := by
    cases piece with
    | plain character => exact slash
    | literal content => cases slash
    | line content => exact absurd slash (by simp [Piece.left])
    | block content => exact absurd slash (by simp [Piece.left])
  obtain ⟨noSlash, noStar⟩ := alone same
  refine ⟨fun first => ?_, fun first => ?_⟩
  · exact (head?_spell_remains first).elim noSlash fun other => other.1 rfl
  · exact (head?_spell_remains first).elim noStar fun other => other.2 rfl

/-- **What is left of a divided text is divided**, and into what is left of its pieces. -/
theorem Divided.left (divided : Divided ending pieces) :
    Divided ending.left (remains pieces ending) := by
  induction divided with
  | finished formed =>
    cases ending with
    | closed => exact .finished trivial
    | literal content backslash => exact .finished formed
    | line content => exact .finished trivial
    | block content =>
      have blank : (Piece.plain ' ').Formed := by decide
      exact .piece blank (fun slash => absurd slash (by decide)) (.finished trivial)
  | piece formed alone _ ih => exact .piece formed.left alone.left ih

/-- There are no comments in what is left. -/
theorem place_of_remains (piece : Piece) (member : piece ∈ remains pieces ending) :
    piece.place = .plain ∨ piece.place = .quoted := by
  rcases List.mem_append.mp member with of | of
  · obtain ⟨before, _, rfl⟩ := List.mem_map.mp of
    cases before <;> simp [Piece.left, Piece.place]
  · cases ending <;> simp_all [Ending.blanks, Piece.place]

/-- Nothing but a literal is open in what is left, and only if it was open before. -/
theorem Ending.left_eq (ending : Ending) :
    ending.left = if ending.place = .quoted then ending else .closed := by
  cases ending <;> simp [Ending.left, Ending.place]

/-- The literals are those there were before. -/
theorem literals_remain (pieces : List Piece) (ending : Ending) :
    (remains pieces ending).filter (·.place = .quoted) = pieces.filter (·.place = .quoted) := by
  induction pieces with
  | nil => cases ending <;> rfl
  | cons piece pieces ih =>
    have same : piece.left.place = .quoted ↔ piece.place = .quoted := by
      cases piece <;> simp [Piece.left, Piece.place]
    by_cases literal : piece.place = .quoted
    · have kept : piece.left = piece := by
        cases piece with
        | literal content => rfl
        | _ => cases literal
      rw [remains_cons, List.filter_cons_of_pos (by simpa [same] using literal),
        List.filter_cons_of_pos (by simpa using literal), ih, kept]
    · rw [remains_cons, List.filter_cons_of_neg (by simpa [same] using literal),
        List.filter_cons_of_neg (by simpa using literal), ih]

theorem Piece.left_left (piece : Piece) : piece.left.left = piece.left := by
  cases piece <;> rfl

theorem Ending.left_left (ending : Ending) : ending.left.left = ending.left := by
  cases ending <;> rfl

/-- What is left is left as it is. -/
theorem remains_remains (pieces : List Piece) (ending : Ending) :
    remains (remains pieces ending) ending.left = remains pieces ending := by
  induction pieces with
  | nil => cases ending <;> rfl
  | cons piece pieces ih => rw [remains_cons, remains_cons, ih, piece.left_left]

/-! ## One division for each text -/

/-- What the characters that come first are part of. -/
def opening : List Char → Place
  | '/' :: '/' :: _ => .line
  | '/' :: '*' :: _ => .block false
  | '"' :: _ => .quoted
  | _ => .plain

theorem opening_piece {piece : Piece} {rest : List Char} (formed : piece.Formed)
    (alone : piece.Alone rest) : opening (piece.text ++ rest) = piece.place := by
  cases piece with
  | plain character =>
    have noQuote : character ≠ '"' := formed
    by_cases slash : character = '/'
    · subst slash
      cases rest with
      | nil => rfl
      | cons next rest =>
        obtain ⟨noSlash, noStar⟩ : next ≠ '/' ∧ next ≠ '*' := by simpa using alone rfl
        simp [Piece.text, Piece.place, opening, noSlash, noStar]
    · simp [Piece.text, Piece.place, opening, slash, noQuote]
  | literal content => rfl
  | line content => rfl
  | block content => rfl

theorem opening_ending (ending : Ending) : opening ending.text = ending.place := by
  cases ending <;> rfl

/-- A backslash that escapes nothing is no glyph. -/
theorem stops_trailing (backslash : Bool) : Glyph.Stops (trailing backslash) := by
  intro glyph formed after same
  cases backslash with
  | false => cases glyph <;> cases same
  | true =>
    cases glyph with
    | plain character => exact formed.2 (List.cons.inj same).1.symm
    | escaped character => cases (List.cons.inj same).2

/-- A line comment ends with the first newline. -/
theorem line_inj {first second before after : List Char} (firstClosed : '\n' ∉ first)
    (secondClosed : '\n' ∉ second) (same : first ++ '\n' :: before = second ++ '\n' :: after) :
    first = second ∧ before = after := by
  have stops : ∀ {early more left right : List Char}, '\n' ∉ early ++ more →
      '\n' :: left = more ++ '\n' :: right → more = [] := by
    intro early more left right free follows
    cases more with
    | nil => rfl
    | cons character more =>
      obtain ⟨rfl, -⟩ := List.cons.inj follows
      exact absurd (List.mem_append_right early List.mem_cons_self) free
  rcases List.append_eq_append_iff.mp same with ⟨more, rfl, follows⟩ | ⟨more, rfl, follows⟩
  · obtain rfl := stops secondClosed follows
    exact ⟨(List.append_nil _).symm, (List.cons.inj follows).2⟩
  · obtain rfl := stops firstClosed follows
    exact ⟨List.append_nil _, (List.cons.inj follows).2.symm⟩

/-- A block comment ends with the first star that a slash follows. -/
theorem block_inj {first second before after : List Char} (firstClosed : ¬ ['*', '/'] <:+: first)
    (secondClosed : ¬ ['*', '/'] <:+: second)
    (same : first ++ '*' :: '/' :: before = second ++ '*' :: '/' :: after) :
    first = second ∧ before = after := by
  have stops : ∀ {early more left right : List Char}, ¬ ['*', '/'] <:+: early ++ more →
      '*' :: '/' :: left = more ++ '*' :: '/' :: right → more = [] := by
    intro early more left right free follows
    rcases more with _ | ⟨star, _ | ⟨slash, more⟩⟩
    · rfl
    · exact absurd (List.cons.inj (List.cons.inj follows).2).1 (by decide)
    · obtain ⟨rfl, others⟩ := List.cons.inj follows
      obtain ⟨rfl, -⟩ := List.cons.inj others
      exact absurd ⟨early, more, by simp⟩ free
  rcases List.append_eq_append_iff.mp same with ⟨more, rfl, follows⟩ | ⟨more, rfl, follows⟩
  · obtain rfl := stops secondClosed follows
    exact ⟨(List.append_nil _).symm, (List.cons.inj (List.cons.inj follows).2).2⟩
  · obtain rfl := stops firstClosed follows
    exact ⟨List.append_nil _, (List.cons.inj (List.cons.inj follows).2).2.symm⟩

/-- Where a piece ends is seen from the characters. -/
theorem piece_inj {first second : Piece} {before after : List Char} (firstFormed : first.Formed)
    (secondFormed : second.Formed) (firstAlone : first.Alone before)
    (secondAlone : second.Alone after) (same : first.text ++ before = second.text ++ after) :
    first = second ∧ before = after := by
  have kinds : first.place = second.place := by
    rw [← opening_piece firstFormed firstAlone, ← opening_piece secondFormed secondAlone, same]
  cases first <;> cases second <;> cases kinds
  case plain.plain.refl character other =>
    obtain ⟨rfl, rest⟩ := List.cons.inj same
    exact ⟨rfl, rest⟩
  case literal.literal.refl content other =>
    have inner : content.flatMap Glyph.text ++ '"' :: before =
        other.flatMap Glyph.text ++ '"' :: after := by
      simpa [Piece.text] using same
    obtain ⟨rfl, rest⟩ := Lexeme.literal_inj firstFormed secondFormed inner
    exact ⟨rfl, rest⟩
  case line.line.refl content other =>
    obtain ⟨rfl, rest⟩ := line_inj firstFormed secondFormed (by simpa [Piece.text] using same)
    exact ⟨rfl, rest⟩
  case block.block.refl content other =>
    obtain ⟨rfl, rest⟩ := block_inj firstFormed secondFormed (by simpa [Piece.text] using same)
    exact ⟨rfl, rest⟩

/-- What is open is seen from the characters. -/
theorem ending_inj {first second : Ending} (firstFormed : first.Formed)
    (secondFormed : second.Formed) (same : first.text = second.text) : first = second := by
  have kinds : first.place = second.place := by
    rw [← opening_ending, ← opening_ending, same]
  cases first <;> cases second <;> cases kinds
  case closed.closed.refl => rfl
  case literal.literal.refl content backslash other last =>
    obtain ⟨rfl, trails⟩ := Lexeme.content_inj firstFormed secondFormed (stops_trailing backslash)
      (stops_trailing last) (List.cons.inj same).2
    cases backslash <;> cases last <;> first | rfl | cases trails
  case line.line.refl content other => rw [(List.cons.inj (List.cons.inj same).2).2]
  case block.block.refl content other => rw [(List.cons.inj (List.cons.inj same).2).2]

/-- A piece is closed, and an ending is not. -/
theorem piece_ne_ending {piece : Piece} {rest : List Char} (formed : piece.Formed)
    (alone : piece.Alone rest) (opened : ending.Formed) : piece.text ++ rest ≠ ending.text := by
  intro same
  have kinds : piece.place = ending.place := by
    rw [← opening_piece formed alone, ← opening_ending, same]
  cases piece <;> cases ending <;> cases kinds
  case plain.closed.refl character => cases same
  case literal.literal.refl content other backslash =>
    have inner : content.flatMap Glyph.text ++ '"' :: rest =
        other.flatMap Glyph.text ++ trailing backslash := by
      simpa [Piece.text, Ending.text] using same
    obtain ⟨-, trails⟩ := Lexeme.content_inj formed opened (Glyph.stops_quote rest)
      (stops_trailing backslash) inner
    cases backslash <;> cases trails
  case line.line.refl content other =>
    refine opened ?_
    rw [← (List.cons.inj (List.cons.inj same).2).2]
    simp
  case block.block.refl content other =>
    refine opened ⟨content, rest, ?_⟩
    rw [← (List.cons.inj (List.cons.inj same).2).2]
    simp

/-- **No text is divided in two ways.** -/
theorem Divided.unique {other : Ending} {others : List Piece} (divided : Divided ending pieces)
    (again : Divided other others) (same : spell pieces ending = spell others other) :
    others = pieces ∧ other = ending := by
  induction divided generalizing others with
  | finished formed =>
    cases again with
    | finished otherFormed => exact ⟨rfl, (ending_inj formed otherFormed same).symm⟩
    | piece otherFormed alone _ =>
      rw [spell_cons] at same
      exact absurd same.symm (piece_ne_ending otherFormed alone formed)
  | piece formed alone _ ih =>
    rw [spell_cons] at same
    cases again with
    | finished otherFormed => exact absurd same (piece_ne_ending formed alone otherFormed)
    | piece otherFormed otherAlone rest =>
      rw [spell_cons] at same
      obtain ⟨rfl, follows⟩ := piece_inj formed otherFormed alone otherAlone same
      obtain ⟨rfl, rfl⟩ := ih rest follows
      exact ⟨rfl, rfl⟩

/-! ## A division for every text -/

/-- The text is what a literal may hold, up to its closing quotation mark or to the end. -/
def InLiteral (text : List Char) : Prop :=
  ∃ content : List Glyph, (∀ glyph ∈ content, glyph.Formed) ∧
    ((∃ rest, content.flatMap Glyph.text ++ '"' :: rest = text) ∨
      ∃ backslash, content.flatMap Glyph.text ++ trailing backslash = text)

theorem InLiteral.cons {text : List Char} (within : InLiteral text) {glyph : Glyph}
    (formed : glyph.Formed) : InLiteral (glyph.text ++ text) := by
  obtain ⟨content, others, ending⟩ := within
  refine ⟨glyph :: content, List.forall_mem_cons.mpr ⟨formed, others⟩, ?_⟩
  rcases ending with ⟨rest, rfl⟩ | ⟨backslash, rfl⟩
  · exact .inl ⟨rest, by simp⟩
  · exact .inr ⟨backslash, by simp⟩

/-- Every text is what a literal may hold. An escaped character is passed over, whatever it is, so
the induction is on the length. -/
theorem inLiteral (text : List Char) : InLiteral text := by
  induction size : text.length using Nat.strongRecOn generalizing text with
  | ind size ih =>
    subst size
    cases text with
    | nil => exact ⟨[], by simp, .inr ⟨false, rfl⟩⟩
    | cons character rest =>
      by_cases quote : character = '"'
      · exact ⟨[], by simp, .inl ⟨rest, by rw [quote]; rfl⟩⟩
      by_cases backslash : character = '\\'
      · subst backslash
        cases rest with
        | nil => exact ⟨[], by simp, .inr ⟨true, rfl⟩⟩
        | cons escaped rest =>
          have formed : (Glyph.escaped escaped).Formed := trivial
          have shorter : rest.length < ('\\' :: escaped :: rest).length := by
            rw [List.length_cons, List.length_cons]
            omega
          exact (ih rest.length shorter rest rfl).cons formed
      · have formed : (Glyph.plain character).Formed := ⟨quote, backslash⟩
        exact (ih rest.length (Nat.lt_succ_self _) rest rfl).cons formed

/-- Every text is what a block comment may hold, up to the first `*/` or to the end. -/
theorem inBlock (text : List Char) :
    (∃ content rest, ¬ ['*', '/'] <:+: content ∧ content ++ '*' :: '/' :: rest = text) ∨
      ¬ ['*', '/'] <:+: text := by
  induction text with
  | nil => exact .inr (by simp)
  | cons character text ih =>
    by_cases here : ['*', '/'] <+: character :: text
    · obtain ⟨rest, begins⟩ := here
      exact .inl ⟨[], rest, by simp, begins⟩
    rcases ih with ⟨content, rest, closed, rfl⟩ | opened
    · refine .inl ⟨character :: content, rest, fun inside => ?_, rfl⟩
      rcases List.infix_cons_iff.mp inside with begins | within
      · exact here (begins.trans (List.prefix_append (character :: content) _))
      · exact closed within
    · refine .inr fun inside => ?_
      rcases List.infix_cons_iff.mp inside with begins | within
      · exact here begins
      · exact opened within

/-- A text begins with a piece, or all of it is an ending. -/
theorem exists_first (text : List Char) :
    (∃ (piece : Piece) (rest : List Char),
      piece.Formed ∧ piece.Alone rest ∧ piece.text ++ rest = text) ∨
      ∃ ending : Ending, ending.Formed ∧ ending.text = text := by
  cases text with
  | nil => exact .inr ⟨.closed, trivial, rfl⟩
  | cons character text =>
    by_cases quote : character = '"'
    · subst quote
      obtain ⟨content, formed, ⟨rest, rfl⟩ | ⟨backslash, rfl⟩⟩ := inLiteral text
      · exact .inl
          ⟨.literal content, rest, formed, .of_place Place.noConfusion, by simp [Piece.text]⟩
      · exact .inr ⟨.literal content backslash, formed, rfl⟩
    by_cases alone : (Piece.plain character).Alone text
    · exact .inl ⟨.plain character, text, quote, alone, rfl⟩
    -- A slash that is not alone begins a comment.
    obtain ⟨rfl, opens⟩ :
        character = '/' ∧ (text.head? = some '/' ∨ text.head? = some '*') := by
      simpa [Piece.Alone, or_iff_not_imp_left] using alone
    rcases opens with slash | star
    · obtain ⟨text, rfl⟩ := List.head?_eq_some_iff.mp slash
      by_cases ends : '\n' ∈ text
      · obtain ⟨content, rest, rfl, closed⟩ := List.eq_append_cons_of_mem ends
        exact .inl ⟨.line content, rest, closed, .of_place Place.noConfusion, by simp [Piece.text]⟩
      · exact .inr ⟨.line text, ends, rfl⟩
    · obtain ⟨text, rfl⟩ := List.head?_eq_some_iff.mp star
      rcases inBlock text with ⟨content, rest, closed, rfl⟩ | opened
      · exact .inl ⟨.block content, rest, closed, .of_place Place.noConfusion, by simp [Piece.text]⟩
      · exact .inr ⟨.block text, opened, rfl⟩

/-- **Every text is divided** into pieces and an ending. -/
theorem exists_divided (text : List Char) :
    ∃ pieces ending, Divided ending pieces ∧ spell pieces ending = text := by
  induction size : text.length using Nat.strongRecOn generalizing text with
  | ind size ih =>
    subst size
    rcases exists_first text with ⟨piece, rest, formed, alone, rfl⟩ | ⟨ending, formed, rfl⟩
    · have shorter : rest.length < (piece.text ++ rest).length := by
        have filled := List.length_pos_of_ne_nil piece.text_ne_nil
        rw [List.length_append]
        omega
      obtain ⟨pieces, ending, divided, rfl⟩ := ih _ shorter rest rfl
      exact ⟨piece :: pieces, ending, .piece formed alone divided, spell_cons piece pieces ending⟩
    · exact ⟨[], ending, .finished formed, rfl⟩

/-! ## Texts -/

/-- **What is stripped once is stripped for good.** Every text, however malformed, is divided in
exactly one way into pieces and an ending. Stripping leaves what is left of each of them, and what
is left is divided into just that: there is no comment in it, its literals are those of the text,
and no literal is open at its end but one that is so in the text. Stripping it again changes
nothing. -/
theorem stripped_for_good (text : String) :
    ∃ pieces ending, Divided ending pieces ∧ String.ofList (spell pieces ending) = text ∧
      (∀ others other, Divided other others → String.ofList (spell others other) = text →
        others = pieces ∧ other = ending) ∧
      strip text = String.ofList (spell (remains pieces ending) ending.left) ∧
      Divided ending.left (remains pieces ending) ∧
      (∀ piece ∈ remains pieces ending, piece.place = .plain ∨ piece.place = .quoted) ∧
      (remains pieces ending).filter (·.place = .quoted) = pieces.filter (·.place = .quoted) ∧
      ending.left = (if ending.place = .quoted then ending else .closed) ∧
      strip (strip text) = strip text := by
  obtain ⟨pieces, ending, divided, spelled⟩ := exists_divided text.toList
  have stripped : strip text = String.ofList (spell (remains pieces ending) ending.left) := by
    rw [strip, ← spelled, stripFrom_spell divided]
  refine ⟨pieces, ending, divided, by rw [spelled, String.ofList_toList],
    fun others other again same => ?_, stripped, divided.left, place_of_remains,
    literals_remain pieces ending, ending.left_eq, ?_⟩
  · refine divided.unique again ?_
    rw [spelled, ← same, String.toList_ofList]
  · rw [stripped, strip, String.toList_ofList, stripFrom_spell divided.left, remains_remains,
      Ending.left_left]

namespace Sample

/-- A text with slashes and a star around a comment and a literal, torn off after a backslash. -/
def torn : String := "/\"//\"/*/**/*\"\\"

/-- The pieces of this text. -/
def tornPieces : List Piece :=
  [.plain '/', .literal [.plain '/', .plain '/'], .block ['/', '*'], .plain '*']

/-- What is open where it ends. -/
def tornEnding : Ending := .literal [] true

theorem torn_divided : Divided tornEnding tornPieces :=
  .piece (by decide) (by decide) <| .piece (by decide) (by decide) <|
    .piece (by decide) (by decide) <| .piece (by decide) (by decide) <| .finished (by decide)

/-- The comment leaves a space between the literal and the star. -/
theorem torn_stays_stripped :
    strip torn = "/\"//\" *\"\\" ∧ strip (strip torn) = strip torn ∧
      Divided tornEnding (remains tornPieces tornEnding) := by
  obtain ⟨pieces, ending, -, -, unique, stripped, divided, -, -, -, stays⟩ := stripped_for_good torn
  obtain ⟨rfl, rfl⟩ := unique tornPieces tornEnding torn_divided rfl
  exact ⟨stripped, stays, divided⟩

end Sample

end DesiredState.Text.Comments
