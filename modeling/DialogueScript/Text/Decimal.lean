/-!
# Decimal numerals

`Decimal.ofNat` and `Decimal.ofInt` write a number with the fewest decimal digits, a negative one
behind a minus sign. Reading digits is the business of `DialogueScript.Numeral`.
-/

set_option autoImplicit false
set_option relaxedAutoImplicit false

namespace DialogueScript.Decimal

/-- The decimal digit of a number below ten. -/
def digit (n : Nat) : Char :=
  Char.ofNat ('0'.toNat + n)

/-- The decimal digits of a number, the most significant first. -/
def digits (n : Nat) : List Char :=
  if n < 10 then [digit n] else digits (n / 10) ++ [digit (n % 10)]

/-- A number in decimal. -/
def ofNat (n : Nat) : String :=
  String.ofList (digits n)

/-- A signed number in decimal. -/
def ofInt (n : Int) : String :=
  if n < 0 then "-" ++ ofNat n.natAbs else ofNat n.natAbs

end DialogueScript.Decimal
