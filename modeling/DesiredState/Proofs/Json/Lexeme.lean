import DesiredState.Json.Reader
import Mathlib.Data.List.Chain

/-!
# Lexemes of JSON text

What a JSON text is made of, as it is written: marks, quoted literals, and atoms, which are words
or numerals, with blanks between them. Every text that can be read is divided into lexemes
(`exists_divided`), and its tokens are those of its lexemes, one after the other
(`Token.ofLexemes_eq_scan`). So what stands between two lexemes matters only as far as it keeps them
apart.

**Atoms are as long as they can be.** Two words or numerals side by side have no end between them
that could be seen. No two atoms of a division are neighbours, and therefore the characters of an
atom are all those up to the first one that belongs to no atom.

**Literals hide what they hold.** A quotation mark ends a literal unless the character before it is
a backslash that is not itself escaped. So a literal is written as a list of glyphs, each of them a
character that stands by itself or a backslash with the character after it. Whether the escapes
mean something is left to the scanner.
-/

set_option autoImplicit false

namespace DesiredState.Json

/-- One character of a quoted literal, as it is written. -/
inductive Glyph
  | plain (character : Char)
  /-- A backslash and the character after it. -/
  | escaped (character : Char)
  deriving DecidableEq

namespace Glyph

/-- The characters of a glyph. -/
def text : Glyph → List Char
  | plain character => [character]
  | escaped character => ['\\', character]

/-- A character that stands by itself neither ends the literal nor escapes the next one. -/
def Formed : Glyph → Prop
  | plain character => character ≠ '"' ∧ character ≠ '\\'
  | escaped _ => True

instance : (glyph : Glyph) → Decidable glyph.Formed
  | plain character => inferInstanceAs (Decidable (character ≠ '"' ∧ character ≠ '\\'))
  | escaped _ => .isTrue trivial

/-- No glyph comes first in the text. -/
def Stops (text : List Char) : Prop :=
  ∀ glyph : Glyph, glyph.Formed → ∀ rest, text ≠ glyph.text ++ rest

theorem stops_quote (rest : List Char) : Stops ('"' :: rest) := by
  intro glyph formed after same
  cases glyph with
  | plain character => exact formed.1 (List.cons.inj same).1.symm
  | escaped character => exact absurd (List.cons.inj same).1 (by decide)

/-- A glyph is seen from its characters. -/
theorem Formed.text_append_inj {first second : Glyph} {left right : List Char}
    (firstFormed : first.Formed) (secondFormed : second.Formed)
    (same : first.text ++ left = second.text ++ right) : first = second ∧ left = right := by
  cases first with
  | plain character =>
    cases second with
    | plain other =>
      obtain ⟨rfl, rest⟩ := List.cons.inj same
      exact ⟨rfl, rest⟩
    | escaped other => exact absurd (List.cons.inj same).1 firstFormed.2
  | escaped character =>
    cases second with
    | plain other => exact absurd (List.cons.inj same).1.symm secondFormed.2
    | escaped other =>
      obtain ⟨rfl, rest⟩ := List.cons.inj (List.cons.inj same).2
      exact ⟨rfl, rest⟩

end Glyph

/-- One of the pieces that a JSON text is written with. -/
inductive Lexeme
  | blank (character : Char)
  /-- A bracket, a brace, a comma or a colon. -/
  | mark (character : Char)
  /-- A word or a numeral. -/
  | atom (characters : List Char)
  /-- A literal between quotation marks. -/
  | literal (content : List Glyph)
  deriving DecidableEq

namespace Lexeme

/-- The marks that a JSON text is structured by. -/
def marks : List Char := ['[', ']', '\x7b', '\x7d', ',', ':']

/-- The characters of words and numerals. -/
def isAtomic (character : Char) : Bool := character.isLower || Token.isNumeral character

/-- The characters of a lexeme. -/
def text : Lexeme → List Char
  | blank character => [character]
  | mark character => [character]
  | atom characters => characters
  | literal content => '"' :: (content.flatMap Glyph.text ++ ['"'])

/-- The characters are those that the kind of the lexeme is made of. -/
def Formed : Lexeme → Prop
  | blank character => Token.isBlank character = true
  | mark character => character ∈ marks
  | atom characters => characters ≠ [] ∧ ∀ character ∈ characters, isAtomic character = true
  | literal content => ∀ glyph ∈ content, glyph.Formed

instance : (lexeme : Lexeme) → Decidable lexeme.Formed
  | blank character => inferInstanceAs (Decidable (Token.isBlank character = true))
  | mark character => inferInstanceAs (Decidable (character ∈ marks))
  | atom characters => @instDecidableAnd _ _ _ (List.decidableBAll _ characters)
  | literal content => List.decidableBAll _ content

/-- The kinds of lexemes. -/
inductive Kind
  | blank
  | mark
  | atom
  | literal
  deriving DecidableEq

/-- The kind of a lexeme. -/
def kind : Lexeme → Kind
  | blank _ => .blank
  | mark _ => .mark
  | atom _ => .atom
  | literal _ => .literal

/-- The kind of the lexemes that begin with a character. -/
def Kind.ofFirst (character : Char) : Kind :=
  if isAtomic character then .atom
  else if Token.isBlank character then .blank
  else if character ∈ marks then .mark
  else .literal

/-- What lexemes spell, one after the other. -/
def spell (lexemes : List Lexeme) : List Char := lexemes.flatMap text

@[simp] theorem spell_nil : spell [] = [] := rfl

@[simp] theorem spell_cons (lexeme : Lexeme) (rest : List Lexeme) :
    spell (lexeme :: rest) = lexeme.text ++ spell rest := rfl

/-- Lexemes that divide the text they spell. -/
structure Divided (lexemes : List Lexeme) : Prop where
  formed : ∀ lexeme ∈ lexemes, lexeme.Formed
  /-- No two atoms are neighbours. -/
  apart : lexemes.IsChain fun first second => first.kind = .atom → second.kind ≠ .atom

theorem Divided.nil : Divided [] := ⟨by simp, .nil⟩

theorem Divided.tail {lexeme : Lexeme} {rest : List Lexeme} (divided : Divided (lexeme :: rest)) :
    Divided rest :=
  ⟨fun other member => divided.formed other (.tail _ member), divided.apart.tail⟩

/-- What is no atom may stand before any lexeme. -/
theorem Divided.cons {lexeme : Lexeme} {rest : List Lexeme} (divided : Divided rest)
    (formed : lexeme.Formed) (other : lexeme.kind ≠ .atom) : Divided (lexeme :: rest) where
  formed := List.forall_mem_cons.mpr ⟨formed, divided.formed⟩
  apart := List.isChain_cons.mpr ⟨fun _ _ atom => absurd atom other, divided.apart⟩

theorem not_atomic_of_blank {character : Char} (blank : Token.isBlank character = true) :
    isAtomic character = false := by
  simp only [Token.isBlank, Bool.or_eq_true, beq_iff_eq] at blank
  rcases blank with ((rfl | rfl) | rfl) | rfl <;> decide

theorem not_atomic_of_mark {character : Char} (mark : character ∈ marks) :
    isAtomic character = false := by
  simp only [marks, List.mem_cons, List.not_mem_nil, or_false] at mark
  rcases mark with rfl | rfl | rfl | rfl | rfl | rfl <;> decide

theorem not_blank_of_mark {character : Char} (mark : character ∈ marks) :
    Token.isBlank character = false := by
  simp only [marks, List.mem_cons, List.not_mem_nil, or_false] at mark
  rcases mark with rfl | rfl | rfl | rfl | rfl | rfl <;> decide

theorem not_atomic_of_ofFirst {character : Char} (other : Kind.ofFirst character ≠ .atom) :
    isAtomic character = false := by
  cases atomic : isAtomic character with
  | false => rfl
  | true => exact absurd (if_pos atomic) other

/-- The kind of a lexeme is seen from its first character. -/
theorem Formed.head {lexeme : Lexeme} (formed : lexeme.Formed) :
    ∃ character rest, lexeme.text = character :: rest ∧ Kind.ofFirst character = lexeme.kind := by
  cases lexeme with
  | blank character =>
    refine ⟨character, [], rfl, ?_⟩
    have blank : Token.isBlank character = true := formed
    simp [Kind.ofFirst, not_atomic_of_blank blank, blank, kind]
  | mark character =>
    refine ⟨character, [], rfl, ?_⟩
    have mark : character ∈ marks := formed
    simp [Kind.ofFirst, not_atomic_of_mark mark, not_blank_of_mark mark, mark, kind]
  | atom characters =>
    obtain ⟨character, rest, rfl⟩ := List.exists_cons_of_ne_nil formed.1
    exact ⟨character, rest, rfl, if_pos (formed.2 character List.mem_cons_self)⟩
  | literal content => exact ⟨'"', _, rfl, rfl⟩

theorem Divided.spell_ne_nil {lexeme : Lexeme} {rest : List Lexeme}
    (divided : Divided (lexeme :: rest)) : spell (lexeme :: rest) ≠ [] := by
  obtain ⟨character, more, spelled, _⟩ := (divided.formed lexeme List.mem_cons_self).head
  simp [spelled]

/-- An atom is not followed by more characters of atoms. -/
theorem Divided.head_not_atomic {lexeme : Lexeme} {rest : List Lexeme}
    (divided : Divided (lexeme :: rest)) (atom : lexeme.kind = .atom) :
    ∀ character ∈ (spell rest).head?, isAtomic character = false := by
  cases rest with
  | nil => simp
  | cons next others =>
    obtain ⟨character, more, spelled, first⟩ :=
      (divided.formed next (.tail _ List.mem_cons_self)).head
    have other : next.kind ≠ .atom := (List.isChain_cons_cons.mp divided.apart).1 atom
    simpa [spelled] using not_atomic_of_ofFirst (first ▸ other)

end Lexeme

/-! ## Places of the scanner -/

namespace Token

open Lexeme (isAtomic marks)

/-- The place is not in a literal. -/
def Place.Loose : Place → Prop
  | .between | .word _ | .numeral _ => True
  | _ => False

/-- The place is in a literal, where a glyph or the closing quotation mark may stand. -/
def Place.Within : Place → Prop
  | .text _ | .code .. | .lowBackslash .. => True
  | _ => False

/-- The place is in a literal, after a backslash. -/
def Place.Escaping : Place → Prop
  | .escape _ | .lowMark .. => True
  | _ => False

/-- A character outside literals that the scanner takes is of one of four kinds, and the kind
decides the kind of the next place. -/
theorem start_cases {character : Char} {ended : List Token} {next : Place}
    (taken : start character = some (ended, next)) :
    (isAtomic character = true ∧ next.Loose)
      ∨ (isBlank character = true ∧ next = .between)
      ∨ (character ∈ marks ∧ next = .between)
      ∨ (character = '"' ∧ next = .text []) := by
  unfold start at taken
  split at taken
  · rename_i blank
    cases taken
    exact .inr (.inl ⟨blank, rfl⟩)
  split at taken
  · rename_i lower
    cases taken
    exact .inl ⟨by simp [isAtomic, lower], trivial⟩
  split at taken
  · rename_i begins
    cases taken
    refine .inl ⟨?_, trivial⟩
    rcases Bool.or_eq_true _ _ ▸ begins with digit | minus
    · simp [isAtomic, isNumeral, digit]
    · simp [isAtomic, isNumeral, minus]
  split at taken <;> cases taken <;> simp [marks]

theorem step_loose {place next : Place} {character : Char} {ended : List Token}
    (loose : place.Loose) (taken : step place character = some (ended, next)) :
    (isAtomic character = true ∧ next.Loose)
      ∨ (isBlank character = true ∧ next = .between)
      ∨ (character ∈ marks ∧ next = .between)
      ∨ (character = '"' ∧ next = .text []) := by
  cases place with
  | between => exact start_cases taken
  | word letters =>
    simp only [step] at taken
    split at taken
    · rename_i lower
      cases taken
      exact .inl ⟨by simp [isAtomic, lower], trivial⟩
    · obtain ⟨_, _, _, started, _⟩ := by simpa [Option.bind_eq_some_iff] using taken
      exact start_cases started
  | numeral characters =>
    simp only [step] at taken
    split at taken
    · rename_i numeral
      cases taken
      exact .inl ⟨by simp [isAtomic, numeral], trivial⟩
    · obtain ⟨_, _, _, started, _⟩ := by simpa [Option.bind_eq_some_iff] using taken
      exact start_cases started
  | _ => cases loose

theorem within_of_ofCode {content : List Char} {high : Option Nat} {code : Nat} {next : Place}
    (taken : ofCode content high code = some next) : next.Within := by
  unfold ofCode at taken
  split at taken
  · split at taken <;> cases taken
    trivial
  · split at taken
    · cases taken
      trivial
    · split at taken <;> cases taken
      trivial

/-- A character of a literal that the scanner takes ends the literal, begins an escape or stands
by itself. -/
theorem step_within {place next : Place} {character : Char} {ended : List Token}
    (within : place.Within) (taken : step place character = some (ended, next)) :
    (character = '"' ∧ next = .between)
      ∨ (character = '\\' ∧ next.Escaping)
      ∨ (character ≠ '"' ∧ character ≠ '\\' ∧ next.Within) := by
  cases place with
  | text content =>
    simp only [step] at taken
    split at taken
    · rename_i quote
      cases taken
      exact .inl ⟨quote, rfl⟩
    split at taken
    · rename_i backslash
      cases taken
      exact .inr (.inl ⟨backslash, trivial⟩)
    split at taken
    · cases taken
    · rename_i quote backslash _
      cases taken
      exact .inr (.inr ⟨quote, backslash, trivial⟩)
  | code content high read value =>
    simp only [step] at taken
    obtain ⟨digit, isDigit, final⟩ := Option.bind_eq_some_iff.mp taken
    have other : character ≠ '"' ∧ character ≠ '\\' := by
      constructor <;> rintro rfl <;> simp [Text.Hex.value?] at isDigit
    refine .inr (.inr ⟨other.1, other.2, ?_⟩)
    split at final
    · obtain ⟨_, coded, same⟩ := Option.bind_eq_some_iff.mp final
      cases same
      exact within_of_ofCode coded
    · cases final
      trivial
  | lowBackslash content high =>
    simp only [step] at taken
    split at taken <;> cases taken
    rename_i backslash
    exact .inr (.inl ⟨backslash, trivial⟩)
  | _ => cases within

theorem step_escaping {place next : Place} {character : Char} {ended : List Token}
    (escaping : place.Escaping) (taken : step place character = some (ended, next)) :
    next.Within := by
  cases place with
  | escape content =>
    simp only [step] at taken
    split at taken
    · cases taken
      trivial
    · obtain ⟨_, _, final⟩ := Option.map_eq_some_iff.mp taken
      cases final
      trivial
  | lowMark content high =>
    simp only [step] at taken
    split at taken <;> cases taken
    trivial
  | _ => cases escaping

/-! ## Scanning in parts -/

/-- The tokens of two parts of a text, if both have some. -/
def joined (first second : Option (List Token)) : Option (List Token) := do
  let before ← first
  let after ← second
  some (before ++ after)

@[simp] theorem joined_none (second : Option (List Token)) : joined none second = none := rfl

theorem joined_nil (tokens : Option (List Token)) : joined (some []) tokens = tokens := by
  cases tokens <;> rfl

theorem joined_assoc (first second third : Option (List Token)) :
    joined (joined first second) third = joined first (joined second third) := by
  cases first <;> cases second <;> cases third <;> simp [joined]

theorem scanFrom_cons (place : Place) (character : Char) (rest : List Char) :
    scanFrom place (character :: rest) =
      (step place character).bind fun taken => joined (some taken.1) (scanFrom taken.2 rest) := rfl

theorem step_of_scanFrom {place : Place} {character : Char} {rest : List Char}
    (done : (scanFrom place (character :: rest)).isSome) :
    ∃ ended next, step place character = some (ended, next) ∧ (scanFrom next rest).isSome := by
  rw [scanFrom_cons] at done
  cases taken : step place character with
  | none => simp [taken] at done
  | some result =>
    refine ⟨result.1, result.2, rfl, ?_⟩
    cases others : scanFrom result.2 rest with
    | none => simp [taken, others, joined] at done
    | some tokens => rfl

/-- A text is scanned in two parts if this is so from its second character on. -/
theorem scanFrom_cons_append {place : Place} {character : Char} (part : List Char)
    {rest : List Char} {after : Option (List Token)}
    (parted : ∀ ended next, step place character = some (ended, next) →
      scanFrom next (part ++ rest) = joined (scanFrom next part) after) :
    scanFrom place (character :: part ++ rest) =
      joined (scanFrom place (character :: part)) after := by
  rw [List.cons_append, scanFrom_cons, scanFrom_cons]
  cases taken : step place character with
  | none => rfl
  | some result => rw [Option.bind_some, Option.bind_some, parted _ _ taken, joined_assoc]

/-- A character that belongs to no atom ends the atom before it. -/
theorem scanFrom_loose {place : Place} {rest : List Char} (loose : place.Loose)
    (ends : ∀ character ∈ rest.head?, isAtomic character = false) :
    scanFrom place rest = joined (finish place) (scan rest) := by
  cases rest with
  | nil =>
    rw [scanFrom, scan]
    cases finish place <;> simp [scanFrom, joined, finish]
  | cons character rest =>
    have other : character.isLower = false ∧ isNumeral character = false := by
      simpa [isAtomic] using ends character rfl
    rw [scan, scanFrom_cons, scanFrom_cons]
    cases place with
    | between => exact (joined_nil _).symm
    | word letters =>
      simp only [step, other.1]
      cases finish (.word letters) <;> cases start character <;> simp [joined, Option.bind_assoc]
    | numeral characters =>
      simp only [step, other.2]
      cases finish (.numeral characters) <;> cases start character <;>
        simp [joined, Option.bind_assoc]
    | _ => cases loose

theorem scanFrom_atom {characters rest : List Char} {place : Place} (loose : place.Loose)
    (atomic : ∀ character ∈ characters, isAtomic character = true)
    (ends : ∀ character ∈ rest.head?, isAtomic character = false) :
    scanFrom place (characters ++ rest) = joined (scanFrom place characters) (scan rest) := by
  induction characters generalizing place with
  | nil => exact scanFrom_loose loose ends
  | cons character characters ih =>
    obtain ⟨first, others⟩ := List.forall_mem_cons.mp atomic
    refine scanFrom_cons_append _ fun _ next taken => ih ?_ others
    rcases step_loose loose taken with ⟨_, loose⟩ | ⟨blank, _⟩ | ⟨mark, _⟩ | ⟨rfl, _⟩
    · exact loose
    · exact absurd first (by simp [Lexeme.not_atomic_of_blank blank])
    · exact absurd first (by simp [Lexeme.not_atomic_of_mark mark])
    · exact absurd first (by decide)

theorem scanFrom_literal {content : List Glyph} {rest : List Char} {place : Place}
    (within : place.Within) (formed : ∀ glyph ∈ content, glyph.Formed) :
    scanFrom place (content.flatMap Glyph.text ++ ['"'] ++ rest) =
      joined (scanFrom place (content.flatMap Glyph.text ++ ['"'])) (scan rest) := by
  induction content generalizing place with
  | nil =>
    refine scanFrom_cons_append _ fun _ next taken => ?_
    rcases step_within within taken with ⟨_, rfl⟩ | ⟨other, _⟩ | ⟨other, _⟩
    · exact (joined_nil _).symm
    · exact absurd other (by decide)
    · exact absurd rfl other
  | cons glyph content ih =>
    obtain ⟨first, others⟩ := List.forall_mem_cons.mp formed
    cases glyph with
    | plain character =>
      refine scanFrom_cons_append _ fun _ next taken => ih ?_ others
      rcases step_within within taken with ⟨quote, _⟩ | ⟨backslash, _⟩ | ⟨_, _, within⟩
      · exact absurd quote first.1
      · exact absurd backslash first.2
      · exact within
    | escaped character =>
      refine scanFrom_cons_append _ fun _ middle taken => ?_
      refine scanFrom_cons_append _ fun _ next takenNext => ih ?_ others
      rcases step_within within taken with ⟨other, _⟩ | ⟨_, escaping⟩ | ⟨_, other, _⟩
      · exact absurd other (by decide)
      · exact step_escaping escaping takenNext
      · exact absurd rfl other

theorem start_mark {character : Char} (mark : character ∈ marks) :
    ∃ token, start character = some ([token], .between) := by
  simp only [marks, List.mem_cons, List.not_mem_nil, or_false] at mark
  rcases mark with rfl | rfl | rfl | rfl | rfl | rfl <;> exact ⟨_, rfl⟩

/-- **The tokens of a lexeme** are the same whatever follows it, unless it is an atom and more of
an atom follows. -/
theorem scan_append {lexeme : Lexeme} {rest : List Char} (formed : lexeme.Formed)
    (ends : lexeme.kind = .atom → ∀ character ∈ rest.head?, isAtomic character = false) :
    scan (lexeme.text ++ rest) = joined (scan lexeme.text) (scan rest) := by
  cases lexeme with
  | blank character =>
    have begun : start character = some ([], .between) := if_pos formed
    refine scanFrom_cons_append [] fun _ next taken => ?_
    cases begun.symm.trans taken
    exact (joined_nil _).symm
  | mark character =>
    obtain ⟨token, begun⟩ := start_mark formed
    refine scanFrom_cons_append [] fun _ next taken => ?_
    cases begun.symm.trans taken
    exact (joined_nil _).symm
  | atom characters => exact scanFrom_atom trivial formed.2 (ends rfl)
  | literal content =>
    refine scanFrom_cons_append _ fun _ next taken => ?_
    cases taken
    exact scanFrom_literal trivial formed

/-- The tokens of lexemes, one after the other. -/
def ofLexemes : List Lexeme → Option (List Token)
  | [] => some []
  | lexeme :: rest => joined (scan lexeme.text) (ofLexemes rest)

theorem scan_blank {character : Char} (blank : isBlank character = true) :
    scan (Lexeme.blank character).text = some [] := by
  have begun : start character = some ([], .between) := if_pos blank
  rw [scan, Lexeme.text, scanFrom_cons, step, begun]
  rfl

/-- Blanks say nothing. -/
theorem ofLexemes_filter {lexemes : List Lexeme} (formed : ∀ lexeme ∈ lexemes, lexeme.Formed) :
    ofLexemes (lexemes.filter (·.kind ≠ .blank)) = ofLexemes lexemes := by
  induction lexemes with
  | nil => rfl
  | cons lexeme rest ih =>
    obtain ⟨first, others⟩ := List.forall_mem_cons.mp formed
    cases lexeme with
    | blank character =>
      rw [ofLexemes, scan_blank first, joined_nil]
      exact ih others
    | _ => rw [List.filter_cons_of_pos rfl, ofLexemes, ofLexemes, ih others]

/-- **The tokens of a text** are those of the lexemes it is divided into. -/
theorem ofLexemes_eq_scan {lexemes : List Lexeme} (divided : Lexeme.Divided lexemes) :
    ofLexemes lexemes = scan (Lexeme.spell lexemes) := by
  induction lexemes with
  | nil => rfl
  | cons lexeme rest ih =>
    obtain ⟨first, _⟩ := List.forall_mem_cons.mp divided.formed
    rw [ofLexemes, ih divided.tail, Lexeme.spell_cons, scan_append first fun atom => ?_]
    exact divided.head_not_atomic atom

end Token

/-! ## One division for each text -/

namespace Lexeme

/-- A character of an atom in front makes the first atom longer, or is an atom by itself. -/
theorem Divided.cons_atomic {character : Char} {lexemes : List Lexeme}
    (atomic : isAtomic character = true) (divided : Divided lexemes) :
    ∃ longer, Divided longer ∧ spell longer = character :: spell lexemes := by
  have single : (atom [character]).Formed := ⟨by simp, by simpa using atomic⟩
  cases lexemes with
  | nil => exact ⟨[atom [character]], ⟨by simpa using single, .singleton _⟩, rfl⟩
  | cons first rest =>
    by_cases isAtom : first.kind = .atom
    · cases first with
      | atom characters =>
        obtain ⟨formed, others⟩ := List.forall_mem_cons.mp divided.formed
        refine ⟨atom (character :: characters) :: rest, ⟨?_, ?_⟩, rfl⟩
        · exact List.forall_mem_cons.mpr
            ⟨⟨by simp, List.forall_mem_cons.mpr ⟨atomic, formed.2⟩⟩, others⟩
        · exact List.isChain_cons.mpr (List.isChain_cons.mp divided.apart)
      | _ => cases isAtom
    · refine ⟨atom [character] :: first :: rest, ⟨?_, ?_⟩, rfl⟩
      · exact List.forall_mem_cons.mpr ⟨single, divided.formed⟩
      · exact List.isChain_cons_cons.mpr ⟨fun _ => isAtom, divided.apart⟩

/-- The text is the rest of a literal, and lexemes after it. -/
def EndsLiteral (text : List Char) : Prop :=
  ∃ (content : List Glyph) (lexemes : List Lexeme), (∀ glyph ∈ content, glyph.Formed) ∧
    Divided lexemes ∧ content.flatMap Glyph.text ++ '"' :: spell lexemes = text

theorem EndsLiteral.cons {text : List Char} (ends : EndsLiteral text) {glyph : Glyph}
    (formed : glyph.Formed) : EndsLiteral (glyph.text ++ text) := by
  obtain ⟨content, lexemes, others, divided, rfl⟩ := ends
  exact ⟨glyph :: content, lexemes, List.forall_mem_cons.mpr ⟨formed, others⟩, divided, by simp⟩

/-- Where the scanner takes a text to its end, the text can be divided, but for the rest of the
literal at hand. -/
theorem divided_of_scanFrom (text : List Char) :
    (∀ place : Token.Place, place.Loose → (Token.scanFrom place text).isSome →
      ∃ lexemes, Divided lexemes ∧ spell lexemes = text) ∧
    (∀ place : Token.Place, place.Within → (Token.scanFrom place text).isSome →
      EndsLiteral text) ∧
    (∀ place : Token.Place, place.Escaping → (Token.scanFrom place text).isSome →
      ∃ character rest, EndsLiteral rest ∧ character :: rest = text) := by
  induction text with
  | nil =>
    refine ⟨fun _ _ _ => ⟨[], .nil, rfl⟩, fun place within done => ?_,
      fun place escaping done => ?_⟩
    · cases place <;> first | exact within.elim | exact absurd done Bool.false_ne_true
    · cases place <;> first | exact escaping.elim | exact absurd done Bool.false_ne_true
  | cons character rest ih =>
    obtain ⟨afterLoose, afterWithin, afterEscaping⟩ := ih
    refine ⟨fun place loose done => ?_, fun place within done => ?_, fun place escaping done => ?_⟩
    · obtain ⟨ended, next, taken, goesOn⟩ := Token.step_of_scanFrom done
      rcases Token.step_loose loose taken with
        ⟨atomic, loose⟩ | ⟨blank, rfl⟩ | ⟨mark, rfl⟩ | ⟨rfl, rfl⟩
      · obtain ⟨lexemes, divided, rfl⟩ := afterLoose next loose goesOn
        exact divided.cons_atomic atomic
      · obtain ⟨lexemes, divided, rfl⟩ := afterLoose .between trivial goesOn
        exact ⟨.blank character :: lexemes, divided.cons blank Kind.noConfusion, rfl⟩
      · obtain ⟨lexemes, divided, rfl⟩ := afterLoose .between trivial goesOn
        exact ⟨.mark character :: lexemes, divided.cons mark Kind.noConfusion, rfl⟩
      · obtain ⟨content, lexemes, formed, divided, rfl⟩ := afterWithin (.text []) trivial goesOn
        exact ⟨.literal content :: lexemes, divided.cons formed Kind.noConfusion, by simp [text]⟩
    · obtain ⟨ended, next, taken, goesOn⟩ := Token.step_of_scanFrom done
      rcases Token.step_within within taken with
        ⟨rfl, rfl⟩ | ⟨rfl, escaping⟩ | ⟨quote, backslash, within⟩
      · obtain ⟨lexemes, divided, rfl⟩ := afterLoose .between trivial goesOn
        exact ⟨[], lexemes, by simp, divided, rfl⟩
      · obtain ⟨escaped, rest, ends, rfl⟩ := afterEscaping next escaping goesOn
        have formed : (Glyph.escaped escaped).Formed := trivial
        exact ends.cons formed
      · have formed : (Glyph.plain character).Formed := ⟨quote, backslash⟩
        exact (afterWithin next within goesOn).cons formed
    · obtain ⟨ended, next, taken, goesOn⟩ := Token.step_of_scanFrom done
      exact ⟨character, rest, afterWithin next (Token.step_escaping escaping taken) goesOn, rfl⟩

/-! ## No other division -/

/-- Where glyphs stop is seen from the characters. -/
theorem content_inj {first second : List Glyph} {left right : List Char}
    (firstFormed : ∀ glyph ∈ first, glyph.Formed) (secondFormed : ∀ glyph ∈ second, glyph.Formed)
    (leftStops : Glyph.Stops left) (rightStops : Glyph.Stops right)
    (same : first.flatMap Glyph.text ++ left = second.flatMap Glyph.text ++ right) :
    first = second ∧ left = right := by
  induction first generalizing second with
  | nil =>
    cases second with
    | nil => exact ⟨rfl, same⟩
    | cons glyph rest =>
      rw [List.flatMap_cons, List.append_assoc] at same
      exact absurd same (leftStops glyph (secondFormed glyph List.mem_cons_self) _)
  | cons glyph first ih =>
    obtain ⟨formed, firstRest⟩ := List.forall_mem_cons.mp firstFormed
    rw [List.flatMap_cons, List.append_assoc] at same
    cases second with
    | nil => exact absurd same.symm (rightStops glyph formed _)
    | cons other second =>
      obtain ⟨otherFormed, secondRest⟩ := List.forall_mem_cons.mp secondFormed
      rw [List.flatMap_cons, List.append_assoc] at same
      obtain ⟨rfl, rest⟩ := formed.text_append_inj otherFormed same
      obtain ⟨rfl, follows⟩ := ih firstRest secondRest rest
      exact ⟨rfl, follows⟩

/-- What a literal holds is seen from its characters. -/
theorem literal_inj {first second : List Glyph} {left right : List Char}
    (firstFormed : ∀ glyph ∈ first, glyph.Formed) (secondFormed : ∀ glyph ∈ second, glyph.Formed)
    (same : first.flatMap Glyph.text ++ '"' :: left = second.flatMap Glyph.text ++ '"' :: right) :
    first = second ∧ left = right := by
  obtain ⟨rfl, rest⟩ := content_inj firstFormed secondFormed (Glyph.stops_quote left)
    (Glyph.stops_quote right) same
  exact ⟨rfl, (List.cons.inj rest).2⟩

/-- Where an atom ends is seen from the characters after it. -/
theorem atom_inj {first second left right : List Char}
    (firstAtomic : ∀ character ∈ first, isAtomic character = true)
    (secondAtomic : ∀ character ∈ second, isAtomic character = true)
    (leftEnds : ∀ character ∈ left.head?, isAtomic character = false)
    (rightEnds : ∀ character ∈ right.head?, isAtomic character = false)
    (same : first ++ left = second ++ right) : first = second ∧ left = right := by
  have longest : ∀ {atom rest : List Char}, (∀ character ∈ atom, isAtomic character = true) →
      (∀ character ∈ rest.head?, isAtomic character = false) →
      (atom ++ rest).takeWhile isAtomic = atom := by
    intro atom rest atomic ends
    rw [List.takeWhile_append_of_pos atomic]
    cases rest with
    | nil => simp
    | cons character rest => simp [ends character rfl]
  have equal : first = second := by
    rw [← longest firstAtomic leftEnds, same, longest secondAtomic rightEnds]
  exact ⟨equal, List.append_cancel_left (equal ▸ same)⟩

/-- **The first lexeme** of a text is seen from its characters. -/
theorem Divided.head_inj {first second : Lexeme} {left right : List Lexeme}
    (firstDivided : Divided (first :: left)) (secondDivided : Divided (second :: right))
    (same : first.text ++ spell left = second.text ++ spell right) :
    first = second ∧ spell left = spell right := by
  have firstFormed := firstDivided.formed first List.mem_cons_self
  have secondFormed := secondDivided.formed second List.mem_cons_self
  have kinds : first.kind = second.kind := by
    obtain ⟨character, _, firstText, firstKind⟩ := firstFormed.head
    obtain ⟨other, _, secondText, secondKind⟩ := secondFormed.head
    rw [firstText, secondText] at same
    rw [← firstKind, ← secondKind, (List.cons.inj same).1]
  have firstEnds := firstDivided.head_not_atomic
  have secondEnds := secondDivided.head_not_atomic
  cases first <;> cases second <;> cases kinds
  case blank.blank.refl character other =>
    obtain ⟨rfl, rest⟩ := List.cons.inj same
    exact ⟨rfl, rest⟩
  case mark.mark.refl character other =>
    obtain ⟨rfl, rest⟩ := List.cons.inj same
    exact ⟨rfl, rest⟩
  case atom.atom.refl characters others =>
    obtain ⟨rfl, rest⟩ :=
      atom_inj firstFormed.2 secondFormed.2 (firstEnds rfl) (secondEnds rfl) same
    exact ⟨rfl, rest⟩
  case literal.literal.refl content other =>
    have inner : content.flatMap Glyph.text ++ '"' :: spell left =
        other.flatMap Glyph.text ++ '"' :: spell right := by
      simpa [text] using same
    obtain ⟨rfl, rest⟩ := literal_inj firstFormed secondFormed inner
    exact ⟨rfl, rest⟩

/-- **No text is divided in two ways.** -/
theorem spell_inj {first second : List Lexeme} (firstDivided : Divided first)
    (secondDivided : Divided second) (same : spell first = spell second) : first = second := by
  induction first generalizing second with
  | nil =>
    cases second with
    | nil => rfl
    | cons lexeme rest => exact absurd same.symm secondDivided.spell_ne_nil
  | cons lexeme rest ih =>
    cases second with
    | nil => exact absurd same firstDivided.spell_ne_nil
    | cons other more =>
      obtain ⟨rfl, follows⟩ := firstDivided.head_inj secondDivided same
      rw [ih firstDivided.tail secondDivided.tail follows]

end Lexeme

/-- **Every text that can be read** is divided into lexemes. -/
theorem exists_divided {text : String} {value : Json} (readable : read? text = some value) :
    ∃ lexemes, Lexeme.Divided lexemes ∧ String.ofList (Lexeme.spell lexemes) = text := by
  obtain ⟨tokens, scanned, _⟩ := Option.bind_eq_some_iff.mp readable
  obtain ⟨lexemes, divided, spelled⟩ :=
    (Lexeme.divided_of_scanFrom text.toList).1 .between trivial (Option.isSome_of_mem scanned)
  exact ⟨lexemes, divided, by rw [spelled, String.ofList_toList]⟩

/-- Texts whose lexemes differ in blanks only say the same, or are both unreadable. -/
theorem read?_congr {first second : List Lexeme} (firstDivided : Lexeme.Divided first)
    (secondDivided : Lexeme.Divided second)
    (same : first.filter (·.kind ≠ .blank) = second.filter (·.kind ≠ .blank)) :
    read? (String.ofList (Lexeme.spell first)) = read? (String.ofList (Lexeme.spell second)) := by
  have scans : Token.scan (Lexeme.spell first) = Token.scan (Lexeme.spell second) := by
    rw [← Token.ofLexemes_eq_scan firstDivided, ← Token.ofLexemes_eq_scan secondDivided,
      ← Token.ofLexemes_filter firstDivided.formed, ← Token.ofLexemes_filter secondDivided.formed,
      same]
  rw [read?, read?, String.toList_ofList, String.toList_ofList, scans]

end DesiredState.Json
