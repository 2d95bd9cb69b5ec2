import DialogueScript.Diagnostics.Event
import DialogueScript.Syntax.Grammar
import DialogueScript.Compile.Literal
import DialogueScript.Text.Utf8

/-!
# What a compilation finds

A compilation leaves a list of findings: the constructs that it enters, what it warns about, and, if
it fails, the one cause of the failure and the fact that it gives up. Every finding has a severity,
a wording and mostly a position, and so becomes an event on the channel of a compiler.
-/

set_option autoImplicit false
set_option relaxedAutoImplicit false

namespace DialogueScript

/-- Why a source that can be read does not compile. -/
inductive Defect where
  | noWindows
  | dialogWithoutName
  | selectionWithoutName
  | tagWithoutId
  | unknownTag (id : List Char)
  | callWithoutArguments
  | callWithoutIndex
  | malformedLiteral (error : LiteralError)
deriving DecidableEq, Repr

/-- The wording of a defect. -/
def Defect.message : Defect → String
  | noWindows => "Expected at least one message window"
  | dialogWithoutName => "Expected dialog window name"
  | selectionWithoutName => "Expected selection window name"
  | tagWithoutId => "Expected tag id"
  | unknownTag id => "Unknown tag with id " ++ String.ofList id
  | callWithoutArguments => "Expected function tag arguments"
  | callWithoutIndex => "Expected function index"
  | malformedLiteral error => "Invalid integer format: " ++ error.message

/-- Something that a compilation reports. -/
inductive Finding where
  /-- A construct is entered. -/
  | entered (rule : Syntax.Rule) (position : Position)
  /-- A tag ends a line without tokens. -/
  | emptyLine (position : Position)
  /-- A speaker name has more than one line. -/
  | extraNameLines (count : Nat) (position : Position)
  /-- The source has a defect. -/
  | defect (defect : Defect) (position : Position)
  /-- The source is not in the language. -/
  | syntaxError (error : Syntax.SyntaxError)
  /-- The bytes of the source are not text. -/
  | notUtf8 (fault : Utf8.Fault) (position : Position)
  /-- The source cannot be read to its end. -/
  | unreadable (reason : String)
  /-- The compilation fails. -/
  | gaveUp (position : Option Position)
deriving DecidableEq, Repr

namespace Finding

/-- The severity of a finding. -/
def level : Finding → Level
  | entered .. => .info
  | emptyLine .. => .warning
  | extraNameLines .. => .warning
  | defect .. => .error
  | syntaxError .. => .error
  | notUtf8 .. => .error
  | unreadable .. => .error
  | gaveUp .. => .fatal

/-- The wording of a finding. -/
def message : Finding → String
  | entered rule position => "Compiling " ++ rule.name ++ " (" ++ toString position ++ ")"
  | emptyLine _ => "Empty line"
  | extraNameLines count _ =>
    "Speaker name has " ++ Decimal.ofNat count ++ " lines; only the first is used"
  | .defect d _ => d.message
  | syntaxError error => "Syntax error: " ++ error.message
  | notUtf8 fault _ => "Source is not valid UTF-8: " ++ fault.message
  | unreadable reason => "Unable to read source: " ++ reason
  | gaveUp _ => "Failed to compile message script"

/-- The position that a finding concerns. -/
def position : Finding → Option Position
  | entered _ position => some position
  | emptyLine position => some position
  | extraNameLines _ position => some position
  | defect _ position => some position
  | syntaxError error => some error.position
  | notUtf8 _ position => some position
  | unreadable _ => none
  | gaveUp position => position

/-- A finding as an event on a channel. -/
def toEvent (channel : String) (finding : Finding) : Event :=
  ⟨channel, finding.level, finding.message, finding.position⟩

end Finding

end DialogueScript
