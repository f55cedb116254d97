import DesiredState.Text.Percent

/-!
# Percent-encoded text

A percent-encoded text consists of characters that stand for themselves and of percent signs
(`mem_encode`), and no two texts are encoded alike (`encode_inj`).

**Why no two.** A byte is written as one character that is no percent sign, or as a percent sign
and two digits. So where the writing of a byte ends is seen from its first character, and a text
can be read off its encoded form byte by byte (`encodeByte_append_inj`).
-/

set_option autoImplicit false

namespace DesiredState.Text

namespace Hex

theorem isUnreserved_upper : ∀ {value : Nat}, value < 16 →
    Percent.isUnreserved (upper value) = true := by
  decide

/-- Different numbers have different digits. -/
theorem upper_inj : ∀ {first : Nat}, first < 16 → ∀ {second : Nat}, second < 16 →
    upper first = upper second → first = second := by
  decide

end Hex

namespace Percent

/-- A byte is written with characters that stand for themselves and percent signs. -/
theorem mem_encodeByte {byte : UInt8} {character : Char} (member : character ∈ encodeByte byte) :
    isUnreserved character = true ∨ character = '%' := by
  have small : byte.toNat < 256 := byte.toNat_lt
  simp only [encodeByte] at member
  split at member
  · rename_i unreserved
    rw [List.mem_singleton.mp member]
    exact .inl unreserved
  · rcases List.mem_cons.mp member with percent | digits
    · exact .inr percent
    · rcases List.mem_cons.mp digits with rfl | low
      · exact .inl (Hex.isUnreserved_upper (by omega))
      · rw [List.mem_singleton.mp low]
        exact .inl (Hex.isUnreserved_upper (by omega))

/-- **An encoded text** consists of characters that stand for themselves and percent signs. -/
theorem mem_encode {text : String} {character : Char}
    (member : character ∈ (encode text).toList) :
    isUnreserved character = true ∨ character = '%' := by
  rw [encode, String.toList_ofList] at member
  obtain ⟨byte, _, inside⟩ := List.mem_flatMap.mp member
  exact mem_encodeByte inside

/-! ## Reading off -/

theorem toNat_ofNat_toNat (byte : UInt8) : (Char.ofNat byte.toNat).toNat = byte.toNat := by
  have small : byte.toNat < 256 := byte.toNat_lt
  have valid : byte.toNat.isValidChar := .inl (by omega)
  rw [Char.ofNat, dif_pos valid]
  rfl

/-- The first byte that was written and what follows it can be told from what is written. -/
theorem encodeByte_append_inj {first second : UInt8} {rest others : List Char}
    (same : encodeByte first ++ rest = encodeByte second ++ others) :
    first = second ∧ rest = others := by
  have small : first.toNat < 256 := first.toNat_lt
  have little : second.toNat < 256 := second.toNat_lt
  simp only [encodeByte] at same
  split at same
  · rename_i plain
    split at same
    · -- both stand for themselves
      obtain ⟨here, later⟩ := List.cons.inj same
      have number : first.toNat = second.toNat := by
        rw [← toNat_ofNat_toNat first, here, toNat_ofNat_toNat]
      exact ⟨UInt8.toNat_inj.mp number, later⟩
    · rw [(List.cons.inj same).1] at plain
      exact absurd plain (by decide)
  · split at same
    · rename_i plain
      rw [← (List.cons.inj same).1] at plain
      exact absurd plain (by decide)
    · -- both are written with two digits
      obtain ⟨_, digits⟩ := List.cons.inj same
      obtain ⟨high, last⟩ := List.cons.inj digits
      obtain ⟨low, later⟩ := List.cons.inj last
      have upper := Hex.upper_inj (by omega) (by omega) high
      have lower := Hex.upper_inj (by omega) (by omega) low
      have number : first.toNat = second.toNat := by omega
      exact ⟨UInt8.toNat_inj.mp number, later⟩

theorem encodeByte_ne_nil (byte : UInt8) : encodeByte byte ≠ [] := by
  simp only [encodeByte]
  split <;> exact List.cons_ne_nil _ _

/-- Bytes can be told from what they are written as. -/
theorem flatMap_encodeByte_inj : ∀ {first second : List UInt8},
    first.flatMap encodeByte = second.flatMap encodeByte → first = second
  | [], [], _ => rfl
  | [], byte :: bytes, same => by
      rw [List.flatMap_nil, List.flatMap_cons] at same
      exact absurd (List.append_eq_nil_iff.mp same.symm).1 (encodeByte_ne_nil byte)
  | byte :: bytes, [], same => by
      rw [List.flatMap_nil, List.flatMap_cons] at same
      exact absurd (List.append_eq_nil_iff.mp same).1 (encodeByte_ne_nil byte)
  | byte :: bytes, other :: others, same => by
      rw [List.flatMap_cons, List.flatMap_cons] at same
      obtain ⟨rfl, later⟩ := encodeByte_append_inj same
      rw [flatMap_encodeByte_inj later]

/-- **No two texts are encoded alike.** -/
theorem encode_inj {first second : String} : encode first = encode second ↔ first = second := by
  constructor
  · intro same
    have bytes := flatMap_encodeByte_inj (String.ofList_injective same)
    exact String.toByteArray_inj.mp (ByteArray.ext (Array.toList_inj.mp bytes))
  · rintro rfl
    rfl

end Percent

end DesiredState.Text
