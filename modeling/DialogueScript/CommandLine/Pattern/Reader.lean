import DialogueScript.CommandLine.Pattern.Fault
import DialogueScript.Text.WhiteSpace

/-!
# Reading the notation of patterns

A `Reader` stands at a place of a notation and knows the `Flags` that hold there. A `Reading` moves
it on and may fail with a fault. A notation that is well-formed may still ask for something that is
not to be had: this is remembered by `Reading.complain`, the first time it happens, since a fault of
the notation itself goes before it wherever it stands.

Where the flag for it holds, white space and comments behind what is read are passed over.
-/

set_option autoImplicit false
set_option relaxedAutoImplicit false

namespace DialogueScript.Pattern

/-! ### Flags -/

/-- The flags that hold in a group. -/
structure Flags where
  /-- Letters stand for both of their cases. -/
  ignoresCase : Bool := false
  /-- The ends of lines stand in the place of those of the text. -/
  isMultiline : Bool := false
  /-- The dot is a line feed too. -/
  dotIsAll : Bool := false
  /-- A carriage return ends a line too. -/
  endsAtReturn : Bool := false
  /-- Repetitions prefer few occurrences, and many if they are marked. -/
  prefersFew : Bool := false
  /-- Characters outside of ASCII count. -/
  isUnicode : Bool := true
  /-- White space and comments are passed over. -/
  ignoresSpace : Bool := false
deriving DecidableEq, Repr, Inhabited

namespace Flags

/-- The signs of all flags. -/
def signs : List Char := ['i', 'm', 's', 'R', 'u', 'x', 'U']

/-- Flags with the one of a sign set or unset. -/
def set (flags : Flags) (isSet : Bool) : Char → Flags
  | 'i' => { flags with ignoresCase := isSet }
  | 'm' => { flags with isMultiline := isSet }
  | 's' => { flags with dotIsAll := isSet }
  | 'U' => { flags with prefersFew := isSet }
  | 'R' => { flags with endsAtReturn := isSet }
  | 'u' => { flags with isUnicode := isSet }
  | 'x' => { flags with ignoresSpace := isSet }
  | _ => flags

/-- Flags with those in front of a dash set and those behind it unset. -/
def setAll (flags : Flags) (signs : List Char) : Flags :=
  let unset := (signs.dropWhile (· != '-')).drop 1
  unset.foldl (·.set false ·) ((signs.takeWhile (· != '-')).foldl (·.set true ·) flags)

/-- The number of characters of white space and comments in front of a text. A comment goes from a
number sign to the end of its line. -/
def spaceLength (inComment : Bool) : List Char → Nat
  | [] => 0
  | c :: rest =>
    if c = '\n' then 1 + spaceLength false rest
    else if inComment || Text.isWhiteSpace c then 1 + spaceLength inComment rest
    else if c = '#' then 1 + spaceLength true rest
    else 0

end Flags

/-! ### Nesting -/

/-- The parts of a notation from the outside in: at every depth the first one. -/
abbrev Nesting := List Span

namespace Nesting

/-- The parts of two notations that stand side by side. -/
def beside : Nesting → Nesting → Nesting
  | [], second => second
  | first, [] => first
  | span :: first, _ :: second => span :: beside first second

/-- The first part that too many others are around. -/
def tooDeep? (nesting : Nesting) : Option Span := nesting[maxNesting]?

end Nesting

/-! ### Readers -/

/-- A place in a notation and what is known there. -/
structure Reader where
  offset : Nat
  /-- What is not read yet. -/
  rest : List Char
  flags : Flags
  /-- The names of groups and where they stand. -/
  names : List (List Char × Span)
  /-- The first thing that is asked for and not to be had. -/
  complaint : Option PatternFault
deriving DecidableEq, Repr

namespace Reader

/-- A reader at the beginning of a notation. -/
def new (text : List Char) : Reader := ⟨0, text, {}, [], none⟩

/-- A reader behind the next characters. -/
def drop (reader : Reader) (count : Nat) : Reader :=
  { reader with
      offset := reader.offset + min count reader.rest.length
      rest := reader.rest.drop count }

/-- A reader behind the white space and comments that are passed over. -/
def dropSpace (reader : Reader) : Reader :=
  if reader.flags.ignoresSpace then reader.drop (Flags.spaceLength false reader.rest) else reader

end Reader

/-- A step of reading. -/
abbrev Reading := StateT Reader (Except PatternFault)

namespace Reading

/-- The next character. -/
def next : Reading (Option Char) := return (← get).rest.head?

/-- Where the reader stands. -/
def offset : Reading Nat := return (← get).offset

/-- The flags that hold. -/
def flags : Reading Flags := return (← get).flags

/-- Lets other flags hold. -/
def setFlags (flags : Flags) : Reading Unit := modify ({ · with flags })

/-- Fails because of what stands between two offsets. -/
def fail {α : Type} (reason : PatternReason) (start stop : Nat) : Reading α :=
  throw (.part reason ⟨start, stop⟩ none)

/-- Remembers that something is not to be had. -/
def complain (reason : PatternReason) (span : Span) : Reading Unit :=
  modify fun reader =>
    { reader with complaint := reader.complaint <|> some (.part reason span none) }

/-- Passes over the next character. -/
def skip : Reading Unit := modify (·.drop 1)

/-- Passes over white space and comments where that is asked for. -/
def skipSpace : Reading Unit := modify Reader.dropSpace

/-- Passes over the next character and over the white space and comments behind it. -/
def advance : Reading Unit := do
  skip
  skipSpace

/-- Passes over a word if it comes next, and says whether it does. -/
def accept (word : String) : Reading Bool := do
  let comes := word.toList.isPrefixOf (← get).rest
  if comes then modify (·.drop word.length)
  return comes

/-- At most so many next characters as long as they pass a test, without what is passed over. -/
def takeWhile (test : Char → Bool) : Nat → Reading (List Char)
  | 0 => return []
  | count + 1 => do
    match ← next with
    | none => return []
    | some c =>
      if test c then
        advance
        return c :: (← takeWhile test count)
      else return []

/-- The next characters as long as they pass a test, without what is passed over. -/
def takeAllWhile (test : Char → Bool) : Reading (List Char) := do
  takeWhile test (← get).rest.length

end Reading

end DialogueScript.Pattern
