/-!
# UTF-8

A list of bytes is cut into the longest pieces that start a character: a piece is either
the bytes of one character or an ill-formed one, which ends before the first byte that
cannot continue it. Decoding is strict, and refuses ill-formed pieces, or lenient, and shows
U+FFFD for each of them.
-/

set_option autoImplicit false

namespace DesiredState.Text.Utf8

/-- What the first byte of a character says: its payload, and for each byte that has to follow
the range it must lie in. -/
def lead? (byte : Nat) : Option (Nat × List (Nat × Nat)) :=
  let any : Nat × Nat := (0x80, 0xBF)
  if byte < 0x80 then some (byte, [])
  else if 0xC2 ≤ byte ∧ byte ≤ 0xDF then some (byte % 32, [any])
  else if byte = 0xE0 then some (0, [(0xA0, 0xBF), any])
  else if byte = 0xED then some (byte % 16, [(0x80, 0x9F), any])
  else if 0xE1 ≤ byte ∧ byte ≤ 0xEF then some (byte % 16, [any, any])
  else if byte = 0xF0 then some (0, [(0x90, 0xBF), any, any])
  else if 0xF1 ≤ byte ∧ byte ≤ 0xF3 then some (byte % 8, [any, any, any])
  else if byte = 0xF4 then some (byte % 8, [(0x80, 0x8F), any, any])
  else none

/-- The pieces of the bytes that follow; `pending` holds the value so far and the ranges of the
bytes that are still due. An ill-formed piece is `none`. -/
def pieces : Option (Nat × List (Nat × Nat)) → List UInt8 → List (Option Char)
  | none, [] => []
  | some _, [] => [none]
  | none, byte :: rest =>
      match lead? byte.toNat with
      | none => none :: pieces none rest
      | some (value, []) => some (Char.ofNat value) :: pieces none rest
      | some (value, ranges) => pieces (some (value, ranges)) rest
  | some (_, []), byte :: rest => none :: pieces none (byte :: rest)
  | some (value, (low, high) :: ranges), byte :: rest =>
      if low ≤ byte.toNat ∧ byte.toNat ≤ high then
        let next := 64 * value + byte.toNat % 64
        if ranges.isEmpty then some (Char.ofNat next) :: pieces none rest
        else pieces (some (next, ranges)) rest
      else
        match lead? byte.toNat with
        | none => none :: none :: pieces none rest
        | some (value, []) => none :: some (Char.ofNat value) :: pieces none rest
        | some (value, ranges) => none :: pieces (some (value, ranges)) rest
termination_by pending bytes => (bytes.length, if pending.isSome then 1 else 0)

/-- The text of a list of bytes, if it is well formed. -/
def decode? (bytes : List UInt8) : Option String :=
  ((pieces none bytes).mapM id).map String.ofList

/-- The text of a list of bytes with U+FFFD for each ill-formed piece. -/
def decodeLenient (bytes : List UInt8) : String :=
  String.ofList ((pieces none bytes).map (·.getD '\uFFFD'))

end DesiredState.Text.Utf8
