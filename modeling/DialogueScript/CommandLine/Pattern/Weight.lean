import DialogueScript.CommandLine.Pattern.Encoding
import DialogueScript.CommandLine.Pattern.Plain

/-!
# The weight of patterns

A matcher turns a pattern in plain form into states with links between them, once for reading a text
forward and once for reading it backward. `Pattern.weight` adds up what they take, so that a pattern
that takes too much can be refused before it is used: counts make short notations large.

A state that reads bytes has links for the ranges of bytes it reads, and a choice has links to its
alternatives. Equal ends of the encodings of a set share their states when a text is read forward,
and equal beginnings when it is read backward.
-/

set_option autoImplicit false
set_option relaxedAutoImplicit false

namespace DialogueScript.Pattern

/-- How a matcher reads a text. -/
inductive Direction where
  | forward
  | backward
deriving DecidableEq, Repr

/-- What a matcher takes. -/
abbrev Weight := Nat

namespace Weight

/-- The most that a matcher may take. -/
def max : Weight := 10485760

/-- A state. -/
def state : Weight := 32

/-- A state that reads a byte of one of so many ranges. -/
def reader (ranges : Nat) : Weight := state + 8 * ranges

/-- What several things take together. -/
def total : List Weight → Weight
  | [] => 0
  | weight :: rest => weight + total rest

/-- A choice between so many alternatives. -/
def choice (alternatives : Nat) : Weight := state + 4 * alternatives

/-! ### Sets -/

/-- A set of ASCII: a reader and the state behind it. -/
def ofAscii (set : CharSet) : Weight := reader set.ranges.length + state

/-- The different first ranges of some encodings. -/
def heads (sequences : List ByteSequence) : List ByteRange :=
  (sequences.filterMap List.head?).eraseDups

/-- The encodings behind a first range. -/
def tails (sequences : List ByteSequence) (range : ByteRange) : List ByteSequence :=
  sequences.filterMap fun
    | first :: rest => if first = range then some rest else none
    | [] => none

/-- What may still be read at the readers for some encodings of at most so many bytes. -/
def readers : Nat → List ByteSequence → List (List ByteSequence)
  | 0, _ => []
  | fuel + 1, sequences =>
    if sequences.all List.isEmpty then []
    else
      sequences :: (heads sequences).flatMap fun range => readers fuel (tails sequences range)

/-- Encodings that are read forward. Where the same may still be read there is one reader. -/
def ofForward (sequences : List ByteSequence) : Weight :=
  state + total ((readers 4 sequences).eraseDups.map fun rest => reader (heads rest).length)

/-- The parts of a list from its beginning on, without the empty one. -/
def beginnings {α : Type} : List α → List (List α)
  | [] => []
  | a :: rest => [a] :: (beginnings rest).map (a :: ·)

/-- Encodings that are read backward: one choice between all of them, and a state for every range
that differs or has something else in front of it. -/
def ofBackward (sequences : List ByteSequence) : Weight :=
  choice sequences.length + state + state * (sequences.flatMap beginnings).eraseDups.length

/-- A set. -/
def ofSet (direction : Direction) (set : CharSet) : Weight :=
  if set.isAscii then ofAscii set
  else
    match direction with
    | .forward => ofForward set.sequences
    | .backward => ofBackward set.sequences

/-! ### Choices between texts -/

/-- The parts of a list between its empty elements. -/
def segments {α : Type} : List (List α) → List (List (List α))
  | [] => [[]]
  | word :: rest =>
    match segments rest with
    | [] => [[]]
    | segment :: others =>
      if word.isEmpty then [] :: segment :: others else (word :: segment) :: others

/-- The bytes that are read at a place where some words of at most so many bytes go on. Words that
end there separate those in front of them from those behind, and words that go on with the same byte
are read together. If no word goes on there is nothing to read. -/
def ofWords : Nat → List (List UInt8) → Weight
  | 0, _ => 0
  | fuel + 1, words =>
    let segments := segments (words.dropWhile List.isEmpty)
    let goOn := segments.filter (!·.isEmpty)
    let ends := segments.length - 1 + if (words.head?.any List.isEmpty) then 1 else 0
    if goOn.isEmpty then 0
    else
      choice (goOn.length + ends) + total (goOn.map fun segment =>
        let bytes := (segment.filterMap List.head?).eraseDups
        (if bytes.length = 1 then state else reader bytes.length) +
          total (bytes.map fun byte => ofWords fuel (segment.filterMap fun
            | first :: rest => if first = byte then some rest else none
            | [] => none)))

/-- A choice between texts only, which are read together as long as they agree. -/
def ofTexts (direction : Direction) (texts : List (List Char)) : Weight :=
  let words := texts.map Utf8.encode
  let words := match direction with
    | .forward => words
    | .backward => words.map List.reverse
  state + ofWords ((words.map List.length).foldl Nat.max 0 + 1) words

/-! ### Repetitions -/

/-- A repetition of what takes so much each time and, if it never is empty, takes one choice to do
without. -/
def ofRepeated (each : Weight) (isNeverEmpty : Bool) (least : Nat) : Option Nat → Weight
  | none =>
    if least = 0 then
      if isNeverEmpty then each + choice 2 else each + 2 * choice 2 + state
    else least * each + choice 2
  | some 0 => least * each
  | some more =>
    if least = 0 ∧ more = 1 then each + choice 2 + state
    else (if least = 0 then state else least * each) + more * (each + choice 2) + state

end Weight

/-! ### Patterns -/

/-- The texts between which a pattern chooses, if it does nothing else. -/
def texts? : Pattern → Option (List (List Char))
  | text chars => some [chars]
  | either a b => return (← a.texts?) ++ (← b.texts?)
  | _ => none

/-- What a matcher takes for a pattern, and what it takes for it as branches of a choice. -/
def weights (direction : Direction) : Pattern → Weight × Weight
  | empty => alone Weight.state
  | text chars => alone (Weight.state * (Utf8.encode chars).length)
  | oneOf set => alone (.ofSet direction set)
  | anchor _ => alone Weight.state
  | sequence a b => alone ((a.weights direction).1 + (b.weights direction).1)
  | either a b =>
    let branches := (a.weights direction).2 + (b.weights direction).2
    match (either a b).texts? with
    | some texts => (.ofTexts direction texts, branches)
    | none => (Weight.choice 0 + Weight.state + branches, branches)
  | repeated a least more _ =>
    alone (.ofRepeated (a.weights direction).1 (a.leastLength?.any (0 < ·)) least more)
  | group _ a =>
    let remembered := match direction with
      | .forward => 2 * Weight.state
      | .backward => 0
    alone ((a.weights direction).1 + remembered)
where
  alone (weight : Weight) : Weight × Weight := (weight, weight + 4)

/-- What a matcher takes for a pattern, with a state at its end and a loop in front of it unless it
only starts where it must. Forward it remembers where the whole pattern occurs. -/
def weight (direction : Direction) (pattern : Pattern) : Weight :=
  let loop := Weight.choice 2 + Weight.reader 1 + Weight.state
  let isFixed := match direction with
    | .forward => pattern.startsAtFirst
    | .backward => pattern.endsAtLast
  let remembered := match direction with
    | .forward => 2 * Weight.state
    | .backward => 0
  (if isFixed then Weight.state else loop) + remembered + (pattern.weights direction).1 +
    Weight.state

end DialogueScript.Pattern
