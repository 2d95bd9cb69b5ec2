/-!
# The value of a run of digits

`Numeral.value?` is the number that a nonempty run of digits stands for in a base. Leading zeros
are allowed and letters stand for digits in either case; a run that is empty or holds anything else
has no value.
-/

set_option autoImplicit false
set_option relaxedAutoImplicit false

namespace DialogueScript.Numeral

/-- The value of a decimal digit. -/
def decimalDigit? (c : Char) : Option Nat :=
  if c.isDigit then some (c.toNat - '0'.toNat) else none

/-- The value of a hexadecimal digit in either case. -/
def hexDigit? (c : Char) : Option Nat :=
  if c.isDigit then some (c.toNat - '0'.toNat)
  else if 'a' ≤ c ∧ c ≤ 'f' then some (c.toNat - 'a'.toNat + 10)
  else if 'A' ≤ c ∧ c ≤ 'F' then some (c.toNat - 'A'.toNat + 10)
  else none

/-- Reads digits behind a number that is already read. -/
def extend? (base : Nat) (digit? : Char → Option Nat) (read : Nat) : List Char → Option Nat
  | [] => some read
  | c :: rest => (digit? c).bind fun d => extend? base digit? (read * base + d) rest

/-- The number that a nonempty run of digits stands for. -/
def value? (base : Nat) (digit? : Char → Option Nat) : List Char → Option Nat
  | [] => none
  | digits => extend? base digit? 0 digits

/-- The number that a nonempty run of decimal digits stands for. -/
def decimal? : List Char → Option Nat :=
  value? 10 decimalDigit?

/-- The number that a nonempty run of hexadecimal digits stands for. -/
def hex? : List Char → Option Nat :=
  value? 16 hexDigit?

end DialogueScript.Numeral
