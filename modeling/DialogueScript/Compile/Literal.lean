import DialogueScript.Text.Numeral

/-!
# Values of literals

A literal that starts with `0x` is an unsigned hexadecimal number of at most 32 bits, and any other
a signed decimal number of 32 bits. Its value is the low half of its 32 bits, read as a 16-bit
integer with a sign, so that numbers which differ by a multiple of 65536 have one value.
-/

set_option autoImplicit false
set_option relaxedAutoImplicit false

namespace DialogueScript

/-- Why a literal has no value, with the literal. -/
inductive LiteralError where
  | hex (literal : List Char)
  | decimal (literal : List Char)
deriving DecidableEq, Repr

/-- The wording of a literal without a value. -/
def LiteralError.message : LiteralError → String
  | hex literal => "'" ++ String.ofList literal ++ "' is not a hexadecimal number"
  | decimal literal => "'" ++ String.ofList literal ++ "' is not a decimal number"

namespace Literal

/-- The number behind `0x`. -/
def hexNumber? (digits : List Char) : Option Int :=
  (Numeral.hex? digits).bind fun n => if n < 0x100000000 then some n else none

/-- The number of a decimal literal, which may start with a sign. -/
def decimalNumber? (literal : List Char) : Option Int :=
  let number? : Option Int := match literal with
    | '+' :: digits => (Numeral.decimal? digits).map Int.ofNat
    | '-' :: digits => (Numeral.decimal? digits).map fun n => -Int.ofNat n
    | digits => (Numeral.decimal? digits).map Int.ofNat
  number?.bind fun n => if -0x80000000 ≤ n ∧ n < 0x80000000 then some n else none

/-- The value of a literal. -/
def value : List Char → Except LiteralError Int16
  | '0' :: 'x' :: digits =>
    match hexNumber? digits with
    | some n => .ok (Int16.ofInt n)
    | none => .error (.hex ('0' :: 'x' :: digits))
  | literal =>
    match decimalNumber? literal with
    | some n => .ok (Int16.ofInt n)
    | none => .error (.decimal literal)

end Literal

end DialogueScript
