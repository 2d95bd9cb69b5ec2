import DialogueScript.Text.Visible

/-!
# Quoted text

`quote` writes a text between double quotes so that it can be read back: a backslash announces a
quote, a backslash, one of the common controls by a letter, or any other character that does not
show by its number in hexadecimal.
-/

set_option autoImplicit false
set_option relaxedAutoImplicit false

namespace DialogueScript.Text

/-- A hexadecimal digit in lower case. -/
def hexDigit (n : Nat) : Char :=
  if n < 10 then Char.ofNat ('0'.toNat + n) else Char.ofNat ('a'.toNat + (n - 10))

/-- The hexadecimal digits of a number, the most significant first. -/
def hexDigits (n : Nat) : List Char :=
  if n < 16 then [hexDigit n] else hexDigits (n / 16) ++ [hexDigit (n % 16)]

/-- The number of a character behind a backslash. -/
def codePointEscape (c : Char) : List Char :=
  ['\\', 'u', '\x7b'] ++ hexDigits c.toNat ++ ['\x7d']

/-- A character inside quotes. The marks are the quotes that need a backslash. -/
def escape (marks : List Char) (c : Char) : List Char :=
  if c = '\x00' then ['\\', '0']
  else if c = '\t' then ['\\', 't']
  else if c = '\r' then ['\\', 'r']
  else if c = '\n' then ['\\', 'n']
  else if c = '\\' ∨ c ∈ marks then ['\\', c]
  else if isVisible c then [c]
  else codePointEscape c

/-- A text between double quotes. -/
def quote (marks : List Char) (text : String) : String :=
  String.ofList ('"' :: text.toList.flatMap (escape marks) ++ ['"'])

end DialogueScript.Text
