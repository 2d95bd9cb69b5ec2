import DialogueScript.Syntax.Parser
import DialogueScript.Syntax.Tree

/-!
# The grammar of message scripts

`parse` reads a source into its `Document`, or says where it cannot be read and what was expected
there. Spacing inside brackets is spaces and tabs; blanks before the first window may also be line
endings. Plain text is any run of characters that are not brackets, so that a header, a speaker and
a tag are told apart by the bracket that opens them.

A literal is a digit, or a minus sign and a digit, and then any letters and digits. This is wider
than the numbers that have a value: a malformed number is a matter for the compilation, which
reports it where it stands.
-/

set_option autoImplicit false
set_option relaxedAutoImplicit false

namespace DialogueScript.Syntax

/-! ### Classes of characters -/

/-- The spacing inside brackets. -/
def isSpacing (c : Char) : Bool :=
  c == ' ' || c == '\t'

/-- What may stand before the first window. -/
def isBlank (c : Char) : Bool :=
  isSpacing c || c == '\r' || c == '\n'

/-- The brackets, which plain text cannot hold. -/
def isReserved (c : Char) : Bool :=
  c == '[' || c == ']' || c == '<' || c == '>'

/-- A character of plain text. -/
def isPlain (c : Char) : Bool :=
  !isReserved c

/-- The first character of an identifier: an ASCII letter or an underscore. -/
def isIdentifierHead (c : Char) : Bool :=
  c.isAlpha || c == '_'

/-- A later character of an identifier or of a tag id. -/
def isIdentifierTail (c : Char) : Bool :=
  c.isAlphanum || c == '_'

/-! ### Constructs -/

namespace Grammar

open DialogueScript.Syntax.Parser

/-- Spacing, which may be absent. -/
def spacing : Parser (List Char) :=
  span isSpacing

/-- The identifier of a window. -/
def identifier : Parser (List Char) :=
  attempt .identifier do
    let head ← one isIdentifierHead
    let tail ← span isIdentifierTail
    return head :: tail

/-- The id of a tag. -/
def tagId : Parser (List Char) :=
  attempt .tagId do
    let head ← one Char.isAlpha
    let tail ← span isIdentifierTail
    return head :: tail

/-- A literal of a tag. -/
def literal : Parser (List Char) :=
  attempt .intLiteral do
    let sign ← optional (one (· == '-'))
    let head ← one Char.isDigit
    let tail ← span Char.isAlphanum
    return sign.toList ++ head :: tail

/-- A literal with the spacing in front of it. -/
def argument : Parser Argument := do
  let gap ← span1 isSpacing
  let literal ← literal
  return { gap, literal }

/-- A tag. -/
def tag : Parser Tag :=
  attempt .tag do
    char '<'
    let lead ← spacing
    let id ← optional tagId
    let args ← many argument
    let tail ← spacing
    char '>'
    return { lead, id, args, tail }

/-- A run of plain text. -/
def run : Parser (List Char) :=
  attempt .text (span1 isPlain)

/-- A piece of a text with tags. -/
def item : Parser Item :=
  orElse (do return .tag (← tag)) (do return .run (← run))

/-- A text with tags. -/
def taggedText : Parser TaggedText :=
  attempt .tagText (many item)

/-- A speaker name in its brackets. -/
def speaker : Parser TaggedText :=
  attempt .speakerName do
    char '['
    let name ← taggedText
    char ']'
    return name

/-- The identifier of a window with the spacing in front of it. -/
def label : Parser Label := do
  let gap ← span1 isSpacing
  let identifier ← identifier
  return { gap, identifier }

/-- A dialog window. -/
def dialog : Parser Dialog :=
  attempt .dialogWindow do
    char '['
    let lead ← spacing
    let keyword ← keyword ['d', 'l', 'g']
    let label ← optional label
    let gap ← spacing
    let speaker ← optional speaker
    let tail ← spacing
    char ']'
    let body ← taggedText
    return { lead, keyword, label, gap, speaker, tail, body }

/-- A selection window. -/
def selection : Parser Selection :=
  attempt .selectionWindow do
    char '['
    let lead ← spacing
    let keyword ← keyword ['s', 'e', 'l']
    let label ← optional label
    let tail ← spacing
    char ']'
    let body ← taggedText
    return { lead, keyword, label, tail, body }

/-- A window of either kind. -/
def window : Parser Window :=
  attempt .messageWindow
    (orElse (do return .dialog (← dialog)) (do return .selection (← selection)))

/-- A whole source. -/
def document : Parser Document :=
  attempt .compilationUnit do
    let blanks ← span isBlank
    let windows ← many window
    attempt .endOfInput atEnd
    return { blanks, windows }

end Grammar

/-! ### Syntax errors -/

/-- Why a source cannot be read: the rules expected at its furthest failure. -/
structure SyntaxError where
  expected : List Rule
  position : Position
deriving DecidableEq, Repr

namespace SyntaxError

/-- The names of the rules, the last one behind an `or`. -/
def enumerate : List Rule → String
  | [] => ""
  | [a] => a.name
  | [a, b] => a.name ++ " or " ++ b.name
  | rules => ", ".intercalate (rules.dropLast.map Rule.name) ++ ", or " ++
      (rules.getLast?.map Rule.name).getD ""

/-- The wording of a syntax error. -/
def message (error : SyntaxError) : String :=
  "expected " ++ enumerate error.expected

instance : ToString SyntaxError where
  toString error := "syntax error at " ++ toString error.position ++ ": " ++ error.message

end SyntaxError

/-- Reads a source. -/
def parse (source : List Char) : Except SyntaxError Document :=
  let outcome := Grammar.document ⟨0, source⟩
  match outcome.result with
  | some (document, _) => .ok document
  | none =>
    let furthest := Furthest.start.follow outcome.trail
    .error ⟨furthest.expected, Position.start.after (source.take furthest.offset)⟩

end DialogueScript.Syntax
