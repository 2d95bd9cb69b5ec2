import DialogueScript.CommandLine.Pattern.Plain
import DialogueScript.CommandLine.Pattern.Reader
import DialogueScript.Text.Numeral

/-!
# Characters and backslashes in patterns

A `Sign` is the least part of a notation: a character that stands for itself, or a backslash with
what is behind it. `Reading.escape` reads the latter. The meaning of a sign depends on the flags and
on whether it stands in a set.

Where characters outside of ASCII count, classes and properties of characters are not to be had, nor
are letters in both cases: their tables are no part of this program. Where only ASCII counts, the
complement of a class is not to be had, for a single byte outside of ASCII is no text.
-/

set_option autoImplicit false
set_option relaxedAutoImplicit false

namespace DialogueScript.Pattern

/-- A character as it is written. -/
structure WrittenChar where
  char : Char
  /-- Whether two hexadecimal digits are written, which stand for a byte if only ASCII counts. -/
  isByte : Bool
  span : Span
deriving DecidableEq, Repr

/-- A class of characters with a letter. -/
inductive LetterClass where
  | digit
  | space
  | word
deriving DecidableEq, Repr

/-- The characters of a class in ASCII. -/
def LetterClass.set : LetterClass → CharSet
  | digit => .digit
  | space => .space
  | word => .word

/-- The least part of a notation. -/
inductive Sign where
  | char (c : WrittenChar)
  | letterClass (letters : LetterClass) (isComplement : Bool) (span : Span)
  /-- A property of characters. -/
  | property (name : List Char) (span : Span)
  | anchor (condition : Anchor) (span : Span)
deriving DecidableEq, Repr

/-- Where a sign stands. -/
def Sign.span : Sign → Span
  | char c => c.span
  | letterClass _ _ span => span
  | property _ span => span
  | anchor _ span => span

namespace Reading

/-! ### Numbers of characters -/

/-- Whether a character is a hexadecimal digit. -/
def isHexDigit (c : Char) : Bool := (Numeral.hexDigit? c).isSome

/-- How many digits the number of a character has behind a letter. -/
def hexSize? : Char → Option Nat
  | 'x' => some 2
  | 'u' => some 4
  | 'U' => some 8
  | _ => none

/-- The character with a number in hexadecimal, which stands between two offsets. -/
def scalar (digits : List Char) (start stop : Nat) : Reading Char :=
  match (Numeral.hex? digits).filter (·.isValidChar) with
  | some n => return Char.ofNat n
  | none => fail .noScalar start stop

/-- Reads the number of a character in braces. -/
def bracedScalar : Reading Char := do
  let brace ← offset
  advance
  let digits ← takeAllWhile isHexDigit
  let stop ← offset
  match ← next with
  | none => fail .openEscape brace stop
  | some '\x7d' =>
    advance
    if digits.isEmpty then fail .noHexDigits brace (← offset)
    else scalar digits (brace + 1) stop
  | some _ => fail .hexDigit stop (stop + 1)

/-- Reads the number of a character with so many digits. -/
def sizedScalar (size : Nat) : Reading Char := do
  let start ← offset
  let digits ← takeWhile isHexDigit size
  let stop ← offset
  if digits.length = size then scalar digits start stop
  else if (← next).isNone then fail .openEscape stop stop
  else fail .hexDigit stop (stop + 1)

/-- Reads a character by its number, from the letter behind the backslash at an offset on. -/
def hex (start size : Nat) : Reading Sign := do
  advance
  if (← next) = some '\x7b' then
    let c ← bracedScalar
    return .char ⟨c, false, ⟨start, ← offset⟩⟩
  else
    let c ← sizedScalar size
    return .char ⟨c, size = 2, ⟨start, ← offset⟩⟩

/-! ### Properties and boundaries -/

/-- Reads a property of characters, from the letter behind the backslash at an offset on. -/
def property (start : Nat) : Reading Sign := do
  advance
  let here ← offset
  match ← next with
  | none => fail .openEscape here here
  | some '\\' => fail .propertyName here (here + 1)
  | some '\x7b' =>
    advance
    let name ← takeAllWhile (· != '\x7d')
    let stop ← offset
    if (← next).isNone then fail .openEscape stop stop
    skip
    return .property name ⟨start, ← offset⟩
  | some c =>
    advance
    return .property [c] ⟨start, ← offset⟩

/-- Whether a character may stand in the name of a boundary. -/
def isBoundaryChar (c : Char) : Bool := c.isAlpha || c == '-'

/-- The kinds of boundaries with a name. -/
def boundaryNamed? (name : List Char) : Option Boundary :=
  match String.ofList name with
  | "start" => some .first
  | "end" => some .last
  | "start-half" => some .noneBefore
  | "end-half" => some .noneBehind
  | _ => none

/-- Reads the name of a boundary in braces, behind the backslash at an offset. Braces that hold no
name may be counts and are left alone. -/
def boundaryName (start : Nat) : Reading Boundary := do
  let reader ← get
  let brace := reader.offset
  advance
  let inside ← offset
  match ← next with
  | none => fail .boundaryBrace start inside
  | some c =>
    if isBoundaryChar c then
      let name ← takeAllWhile isBoundaryChar
      let stop ← offset
      if (← next) ≠ some '\x7d' then fail .openBoundary brace stop
      skip
      match boundaryNamed? name with
      | some boundary => return boundary
      | none => fail .unknownBoundary inside stop
    else
      set reader
      return .edge

/-! ### Escapes -/

/-- Whether a backslash makes a character stand for itself. -/
def isEscapable (c : Char) : Bool :=
  c.toNat < 0x80 && !c.isAlphanum && c != '<' && c != '>'

/-- The control that a letter behind a backslash stands for. -/
def controlOf? : Char → Option Char
  | 'a' => some '\x07'
  | 'f' => some '\x0c'
  | 't' => some '\t'
  | 'n' => some '\n'
  | 'r' => some '\r'
  | 'v' => some '\x0b'
  | _ => none

/-- The class that a letter behind a backslash stands for, or its complement. -/
def classOf? : Char → Option (LetterClass × Bool)
  | 'd' => some (.digit, false)
  | 's' => some (.space, false)
  | 'w' => some (.word, false)
  | 'D' => some (.digit, true)
  | 'S' => some (.space, true)
  | 'W' => some (.word, true)
  | _ => none

/-- The condition on words that a character behind a backslash stands for. -/
def boundaryOf? : Char → Option Boundary
  | 'b' => some .edge
  | 'B' => some .noEdge
  | '<' => some .first
  | '>' => some .last
  | _ => none

/-- The end of the text that a letter behind a backslash stands for. -/
def endOf? : Char → Option Anchor
  | 'A' => some .first
  | 'z' => some .last
  | _ => none

/-- Reads a single character behind the backslash at an offset. -/
def letter (start : Nat) (c : Char) : Reading Sign := do
  skip
  let span : Span := ⟨start, ← offset⟩
  match classOf? c, boundaryOf? c, endOf? c, controlOf? c with
  | some (letters, isComplement), _, _, _ => return .letterClass letters isComplement span
  | none, some boundary, _, _ =>
    let isUnicode := (← flags).isUnicode
    if boundary = .edge ∧ (← next) = some '\x7b' then
      let boundary ← boundaryName start
      return .anchor (.words isUnicode boundary) ⟨start, ← offset⟩
    else return .anchor (.words isUnicode boundary) span
  | none, none, some condition, _ => return .anchor condition span
  | none, none, none, some control => return .char ⟨control, false, span⟩
  | none, none, none, none =>
    if isEscapable c then return .char ⟨c, false, span⟩
    else fail .unknownEscape span.start span.stop

/-- Reads a backslash and what is behind it. -/
def escape : Reading Sign := do
  let start ← offset
  skip
  match ← next with
  | none => fail .openEscape start (← offset)
  | some c =>
    if c.isDigit then fail .backReference start (start + 2)
    else if c = 'p' ∨ c = 'P' then property start
    else
      match hexSize? c with
      | some size => hex start size
      | none => letter start c

/-- Reads a character that stands for itself, or a backslash and what is behind it. -/
def charOrEscape (c : Char) : Reading Sign := do
  if c = '\\' then escape
  else
    let start ← offset
    skip
    return .char ⟨c, false, ⟨start, start + 1⟩⟩

end Reading

/-! ### Meanings -/

/-- The name of a property without what does not distinguish it from others: a first syllable,
spaces and dashes, and the case of letters. -/
def plainPropertyName (name : List Char) : List Char :=
  let name := name.map Char.toLower
  let stem := if "is".toList.isPrefixOf name then name.drop 2 else name
  stem.filter fun c => c.toNat < 0x80 && c != ' ' && c != '_' && c != '-'

/-- Why a property of characters is not to be had: a name that also abbreviates another property is
looked for among the values of categories. -/
def propertyReason (name : List Char) : PatternReason :=
  if ["cf", "sc", "lc"].contains (String.ofList (plainPropertyName name)) then .unknownPropertyValue
  else .unknownProperty

namespace Reading

/-- The complement of a set that stands at a span, if it is asked for. -/
def complementIf (isComplement : Bool) (span : Span) (set : CharSet) : Reading CharSet := do
  if isComplement then
    unless (← flags).isUnicode do complain .noUtf8 span
    return set.complement
  else return set

/-- A set that stands at a span with letters in both cases, if they are asked for. -/
def inBothCases (span : Span) (set : CharSet) : Reading CharSet := do
  let flags ← flags
  if flags.ignoresCase then
    if flags.isUnicode && !set.ranges.isEmpty then complain .unicodeCase span
    return set.ignoringCase
  else return set

end Reading

/-- Complains about a character that is a byte outside of ASCII. -/
def WrittenChar.checkByte (c : WrittenChar) : Reading Unit := do
  if c.isByte && 0x80 ≤ c.char.toNat && !(← Reading.flags).isUnicode then
    Reading.complain .noUtf8 c.span

/-- What a character stands for. -/
def WrittenChar.meaning (c : WrittenChar) : Reading Pattern := do
  c.checkByte
  return .ofSet (← Reading.inBothCases c.span (.single c.char))

/-- What a character stands for as a part of a set, where the case of letters is left to the set. -/
def WrittenChar.inSet (c : WrittenChar) : Reading CharSet := do
  c.checkByte
  if 0x80 ≤ c.char.toNat && !c.isByte && !(← Reading.flags).isUnicode then
    Reading.complain .noUnicode c.span
  return .single c.char

namespace Sign

/-- The characters that a class or a property stands for. -/
def classMeaning (letters : LetterClass) (isComplement : Bool) (span : Span) : Reading CharSet := do
  if (← Reading.flags).isUnicode then Reading.complain .unicodeClass span
  Reading.complementIf isComplement span letters.set

/-- The characters that a property stands for, which are not to be had. -/
def propertyMeaning (name : List Char) (span : Span) : Reading CharSet := do
  Reading.complain (if (← Reading.flags).isUnicode then propertyReason name else .noUnicode) span
  return .none

/-- What a sign stands for. -/
def meaning : Sign → Reading Pattern
  | char c => c.meaning
  | letterClass letters isComplement span => do
    return .ofSet (← classMeaning letters isComplement span)
  | property name span => return .ofSet (← propertyMeaning name span)
  | anchor condition _ => return .anchor condition

/-- What a sign stands for as a member of a set. -/
def inSet : Sign → Reading CharSet
  | char c => c.inSet
  | letterClass letters isComplement span => classMeaning letters isComplement span
  | property name span => propertyMeaning name span
  | anchor _ span => Reading.fail .anchorInSet span.start span.stop

/-- The character that a sign stands for as a bound of a range. -/
def bound : Sign → Reading WrittenChar
  | char c => return c
  | sign => Reading.fail .boundOfRange sign.span.start sign.span.stop

end Sign

end DialogueScript.Pattern
