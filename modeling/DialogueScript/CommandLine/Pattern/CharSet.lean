/-!
# Sets of characters

A `CharSet` lists the characters that may stand at one place of a text as ranges in ascending order.
Ranges that touch or overlap are joined, so that every set is written in one way only.
-/

set_option autoImplicit false
set_option relaxedAutoImplicit false

namespace DialogueScript

/-- The characters whose numbers are in a closed interval. -/
structure CharRange where
  first : Nat
  last : Nat
deriving DecidableEq, Repr

/-- A set of characters. -/
structure CharSet where
  /-- Ranges in ascending order with gaps between them. -/
  ranges : List CharRange
deriving DecidableEq, Repr

namespace CharSet

/-- No character. -/
def none : CharSet := ⟨[]⟩

/-- The characters from one to another. -/
def range (first last : Char) : CharSet := ⟨[⟨first.toNat, last.toNat⟩]⟩

/-- A set of one character. -/
def single (c : Char) : CharSet := range c c

/-- The largest number of a character. -/
def maxNumber : Nat := 0x10FFFF

/-- The number of the next character. No characters have the numbers of surrogates. -/
def numberAfter (n : Nat) : Nat := if n = 0xD7FF then 0xE000 else n + 1

/-- The number of the previous character. -/
def numberBefore (n : Nat) : Nat := if n = 0xE000 then 0xD7FF else n - 1

/-- A range with those behind it, all in the order of their first characters, as the ranges of a
set. -/
def join (range : CharRange) : List CharRange → List CharRange
  | [] => [range]
  | next :: rest =>
    if next.first ≤ range.last + 1 then join ⟨range.first, max range.last next.last⟩ rest
    else range :: join next rest

/-- The characters of two sets. -/
def union (a b : CharSet) : CharSet :=
  match a.ranges.merge b.ranges (fun x y => x.first ≤ y.first) with
  | [] => none
  | range :: rest => ⟨join range rest⟩

/-- The ranges between those of a set, from a number on. -/
def gaps (start : Nat) : List CharRange → List CharRange
  | [] => if start ≤ maxNumber then [⟨start, maxNumber⟩] else []
  | range :: rest =>
    let behind := gaps (numberAfter range.last) rest
    if start < range.first then ⟨start, numberBefore range.first⟩ :: behind else behind

/-- The characters that a set does not hold. -/
def complement (a : CharSet) : CharSet := ⟨gaps 0 a.ranges⟩

/-- The characters that two sets share. -/
def intersection (a b : CharSet) : CharSet := (a.complement.union b.complement).complement

/-- The characters of a set that another does not hold. -/
def difference (a b : CharSet) : CharSet := a.intersection b.complement

/-- The characters that exactly one of two sets holds. -/
def symmetricDifference (a b : CharSet) : CharSet := (a.union b).difference (a.intersection b)

/-- Every character. -/
def any : CharSet := none.complement

/-- Every character but the line feed. -/
def inLine : CharSet := (single '\n').complement

/-- Every character but the line feed and the carriage return. -/
def inRow : CharSet := ((single '\n').union (single '\r')).complement

/-- The decimal digits of ASCII. -/
def digit : CharSet := range '0' '9'

/-- The letters and digits of ASCII and the underscore. -/
def word : CharSet := digit.union ((range 'A' 'Z').union ((single '_').union (range 'a' 'z')))

/-- The white space of ASCII. -/
def space : CharSet := (range '\t' '\r').union (single ' ')

/-- Whether a character is in a set. -/
def holds (set : CharSet) (c : Char) : Bool :=
  set.ranges.any fun range => range.first ≤ c.toNat && c.toNat ≤ range.last

/-- The letters of ASCII that differ only in case from the letters of a set. -/
def otherCase (set : CharSet) : CharSet :=
  let upper := set.intersection (range 'A' 'Z')
  let lower := set.intersection (range 'a' 'z')
  union ⟨lower.ranges.map fun range => ⟨range.first - 0x20, range.last - 0x20⟩⟩
    ⟨upper.ranges.map fun range => ⟨range.first + 0x20, range.last + 0x20⟩⟩

/-- A set to which every letter of ASCII belongs in both cases. -/
def ignoringCase (set : CharSet) : CharSet := set.union set.otherCase

/-- The only character of a set that has no more. -/
def only? (set : CharSet) : Option Char :=
  match set.ranges with
  | [range] => if range.first = range.last then some (Char.ofNat range.first) else Option.none
  | _ => Option.none

/-- Whether a set holds no character outside of ASCII. -/
def isAscii (set : CharSet) : Bool := set.ranges.all (·.last < 0x80)

end CharSet

end DialogueScript
