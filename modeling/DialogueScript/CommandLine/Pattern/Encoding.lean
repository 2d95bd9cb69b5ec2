import DialogueScript.CommandLine.Pattern.CharSet
import DialogueScript.Text.Utf8

/-!
# Encodings of sets of characters

A matcher reads the bytes of a text in UTF-8. `CharRange.sequences` takes a range of characters
apart so that the encodings of each piece are all combinations of a byte from one range, a byte from
the next and so on. A piece is such a combination if its characters take equally many bytes and if,
wherever the leading bits of its ends differ, all combinations of the bits behind them occur.
-/

set_option autoImplicit false
set_option relaxedAutoImplicit false

namespace DialogueScript

/-- The bytes in a closed interval. -/
structure ByteRange where
  first : UInt8
  last : UInt8
deriving DecidableEq, Repr

/-- Encodings with a byte of each range in turn. -/
abbrev ByteSequence := List ByteRange

namespace CharRange

/-- The first range of two into which a range is cut, and the second one. -/
structure Cut where
  first : CharRange
  second : CharRange
deriving DecidableEq, Repr

/-- Cuts a range behind a number if there is more behind it. -/
def cutBehind? (range : CharRange) (n : Nat) : Option Cut :=
  if range.first ≤ n ∧ n < range.last then some ⟨⟨range.first, n⟩, ⟨n + 1, range.last⟩⟩ else none

/-- Cuts the surrogates out of a range, which have no encoding. -/
def cutSurrogates? (range : CharRange) : Option Cut :=
  if range.first < 0xE000 ∧ 0xD7FF < range.last then
    some ⟨⟨range.first, 0xD7FF⟩, ⟨0xE000, range.last⟩⟩
  else none

/-- Cuts a range of which the ends are in different blocks of so many characters: behind the block
of the first end if that does not start it, or in front of the block of the second one if that does
not end it. -/
def cutBlocks? (range : CharRange) (size : Nat) : Option Cut :=
  if range.first / size = range.last / size then none
  else if range.first % size ≠ 0 then
    range.cutBehind? (range.first / size * size + (size - 1))
  else if range.last % size ≠ size - 1 then
    range.cutBehind? (range.last / size * size - 1)
  else none

/-- The first cut that a range needs. An encoding ends with up to three bytes that hold six bits
each, so the characters that differ in these bytes only make blocks of `0x40`, `0x1000` and
`0x40000`. -/
def cut? (range : CharRange) : Option Cut :=
  range.cutSurrogates? <|> range.cutBehind? 0x7F <|> range.cutBehind? 0x7FF <|>
    range.cutBehind? 0xFFFF <|> range.cutBlocks? 0x40 <|> range.cutBlocks? 0x1000 <|>
    range.cutBlocks? 0x40000

/-- The encodings of a range that needs no cut. -/
def sequence (range : CharRange) : ByteSequence :=
  List.zipWith ByteRange.mk (Utf8.encode [Char.ofNat range.first])
    (Utf8.encode [Char.ofNat range.last])

/-- The encodings of a range after at most so many cuts in turn. -/
def sequencesWithin : Nat → CharRange → List ByteSequence
  | 0, range => [range.sequence]
  | fuel + 1, range =>
    if range.last < range.first then []
    else if range.last < 0x80 then [range.sequence]
    else
      match range.cut? with
      | some cut => sequencesWithin fuel cut.first ++ sequencesWithin fuel cut.second
      | none => [range.sequence]

/-- The encodings of a range. There are no more than eleven cuts in turn: one at the surrogates,
three between lengths, and two for each of three bytes, and a piece without characters. -/
def sequences (range : CharRange) : List ByteSequence := sequencesWithin 16 range

end CharRange

/-- The encodings of a set, in ascending order. -/
def CharSet.sequences (set : CharSet) : List ByteSequence :=
  set.ranges.flatMap CharRange.sequences

end DialogueScript
