import DialogueScript.Text.Decimal
import DialogueScript.Text.Position
import DialogueScript.Text.Split

/-!
# Faults of patterns

A `PatternFault` says why the notation of a pattern is refused. Most faults point to a part of it,
a `Span`, and some to an earlier part too that is in conflict with the first.

`PatternFault.message` shows the pattern with marks below the parts it points to. The rows of a
pattern that has several are numbered.
-/

set_option autoImplicit false
set_option relaxedAutoImplicit false

namespace DialogueScript

/-- The part of a text between two offsets. -/
structure Span where
  start : Nat
  stop : Nat
deriving DecidableEq, Repr

/-- What is wrong with a part of a notation. -/
inductive PatternReason where
  /-- A set asks for a condition that no character meets. -/
  | anchorInSet
  | emptyRange
  /-- A bound of a range is not a character. -/
  | boundOfRange
  | openSet
  /-- A count is too large. -/
  | largeCount
  | noHexDigits
  /-- No character has the number. -/
  | noScalar
  | hexDigit
  | openEscape
  | unknownEscape
  | danglingDash
  | repeatedFlag
  | repeatedDash
  | openFlags
  | unknownFlag
  | repeatedName
  | emptyName
  | charOfName
  | openName
  | openGroup
  | unopenedGroup
  /-- The least count is above the greatest one. -/
  | emptyCounts
  | noCount
  | openCounts
  /-- A repetition has nothing to repeat. -/
  | noOperand
  /-- A named boundary does not end. -/
  | openBoundary
  | unknownBoundary
  /-- A brace behind a boundary has nothing behind it. -/
  | boundaryBrace
  /-- A backslash is no name of a property. -/
  | propertyName
  | backReference
  | lookAround
  /-- Too many parts are around the part. -/
  | deepNesting
  /-- A set or a property needs characters outside of ASCII, which are switched off. -/
  | noUnicode
  /-- The text that is described would be no UTF-8. -/
  | noUtf8
  | unknownProperty
  | unknownPropertyValue
  /-- A class of characters is known in ASCII only. -/
  | unicodeClass
  /-- The cases of letters are known in ASCII only. -/
  | unicodeCase
deriving DecidableEq, Repr

/-- How many parts may be one in another. -/
def maxNesting : Nat := 250

/-- The wording of a reason. -/
def PatternReason.message : PatternReason → String
  | anchorInSet => "invalid escape sequence found in character class"
  | emptyRange => "invalid character class range, the start must be <= the end"
  | boundOfRange => "invalid range boundary, must be a literal"
  | openSet => "unclosed character class"
  | largeCount => "decimal literal invalid"
  | noHexDigits => "hexadecimal literal empty"
  | noScalar => "hexadecimal literal is not a Unicode scalar value"
  | hexDigit => "invalid hexadecimal digit"
  | openEscape => "incomplete escape sequence, reached end of pattern prematurely"
  | unknownEscape => "unrecognized escape sequence"
  | danglingDash => "dangling flag negation operator"
  | repeatedFlag => "duplicate flag"
  | repeatedDash => "flag negation operator repeated"
  | openFlags => "expected flag but got end of regex"
  | unknownFlag => "unrecognized flag"
  | repeatedName => "duplicate capture group name"
  | emptyName => "empty capture group name"
  | charOfName => "invalid capture group character"
  | openName => "unclosed capture group name"
  | openGroup => "unclosed group"
  | unopenedGroup => "unopened group"
  | emptyCounts => "invalid repetition count range, the start must be <= the end"
  | noCount => "repetition quantifier expects a valid decimal"
  | openCounts => "unclosed counted repetition"
  | noOperand => "repetition operator missing expression"
  | openBoundary =>
    "special word boundary assertion is either unclosed or contains an invalid character"
  | unknownBoundary =>
    "unrecognized special word boundary assertion, " ++
      "valid choices are: start, end, start-half or end-half"
  | boundaryBrace =>
    "found either the beginning of a special word boundary or a bounded repetition " ++
      "on a \\b with an opening brace, but no closing brace"
  | propertyName => "invalid Unicode character class"
  | backReference => "backreferences are not supported"
  | lookAround => "look-around, including look-ahead and look-behind, is not supported"
  | deepNesting =>
    "exceed the maximum number of nested parentheses/brackets (" ++ Decimal.ofNat maxNesting ++ ")"
  | noUnicode => "Unicode not allowed here"
  | noUtf8 => "pattern can match invalid UTF-8"
  | unknownProperty => "Unicode property not found"
  | unknownPropertyValue => "Unicode property value not found"
  | unicodeClass =>
    "Unicode-aware Perl class not found (make sure the unicode-perl feature is enabled)"
  | unicodeCase =>
    "Unicode-aware case insensitivity matching is not available " ++
      "(make sure the unicode-case feature is enabled)"

/-- Why a pattern is refused. -/
inductive PatternFault where
  /-- Something is wrong with a part of the notation, perhaps because of an earlier part. -/
  | part (reason : PatternReason) (span : Span) (earlier : Option Span)
  /-- An anchor asks for words of more than ASCII. -/
  | unicodeWords
  /-- A matcher would take more than so much for the pattern. -/
  | weight (max : Nat)
deriving DecidableEq, Repr

namespace PatternFault

/-! ### Marks -/

/-- A span by the positions of its ends. -/
structure Extent where
  start : Position
  stop : Position
deriving DecidableEq, Repr

/-- The positions of a span's ends in a text. -/
def extent (text : List Char) (span : Span) : Extent :=
  ⟨Position.start.after (text.take span.start), Position.start.after (text.take span.stop)⟩

/-- Whether both ends are on one line. -/
def Extent.isOnLine (extent : Extent) : Bool := extent.start.line = extent.stop.line

/-- Marks below extents on one line behind a margin, in their order, at least one mark for each. -/
def marks (margin : Nat) (extents : List Extent) : String :=
  extents.foldl (fun row extent =>
    let gap := margin + (extent.start.column - 1) - row.length
    row ++ String.ofList (List.replicate gap ' ') ++
      String.ofList (List.replicate (max 1 (extent.stop.column - extent.start.column)) '^')) ""

/-- The rows of a pattern behind their numbers, if they have any, each with the marks below it. -/
def markedRows (number : Nat → String) (extents : List Extent) (line : Nat) :
    List (List Char) → String
  | [] => ""
  | row :: rows =>
    let here := extents.filter fun extent => extent.isOnLine && extent.start.line == line
    let marks := if here.isEmpty then "" else marks (number line).length here ++ "\n"
    number line ++ String.ofList row ++ "\n" ++ marks ++ markedRows number extents (line + 1) rows

/-- The number of a row, padded to the width of the largest one. -/
def rowNumber (count line : Nat) : String :=
  let digits := Decimal.ofNat line
  let pad := (Decimal.ofNat count).length - digits.length
  String.ofList (List.replicate pad ' ') ++ digits ++ ": "

/-- A row of a text without the carriage return at its end, which belongs to the line ending. -/
def dropReturn (row : List Char) : List Char :=
  if row.getLast? = some '\r' then row.dropLast else row

/-- Where an extent over several lines begins and ends. -/
def Extent.description (extent : Extent) : String :=
  "on line " ++ Decimal.ofNat extent.start.line ++
    " (column " ++ Decimal.ofNat extent.start.column ++
    ") through line " ++ Decimal.ofNat extent.stop.line ++
    " (column " ++ Decimal.ofNat (extent.stop.column - 1) ++ ")\n"

/-- A pattern with marks below the extents. -/
def markedPattern (pattern : List Char) (extents : List Extent) : String :=
  let rows := Text.split '\n' pattern
  if rows.length = 1 then markedRows (fun _ => "    ") extents 1 rows
  else
    let last := rows.getLast?.getD []
    let divider := String.ofList (List.replicate 79 '~') ++ "\n"
    let shown := rows.dropLast.map dropReturn ++ if last.isEmpty then [] else [last]
    divider ++ markedRows (rowNumber rows.length) extents 1 shown ++ divider ++
      String.join ((extents.filter (!·.isOnLine)).map Extent.description)

/-! ### Wording -/

/-- The wording of a fault of a pattern. -/
def message (pattern : List Char) : PatternFault → String
  | part reason span earlier =>
    let extents := (earlier.toList ++ [span]).map (extent pattern)
    "regex parse error:\n" ++ markedPattern pattern extents ++ "error: " ++ reason.message
  | unicodeWords => "error building NFA"
  | weight max => "Compiled regex exceeds size limit of " ++ Decimal.ofNat max ++ " bytes."

end PatternFault

end DialogueScript
