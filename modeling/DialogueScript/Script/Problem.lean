import DialogueScript.Script.Basic
import DialogueScript.Text.Decimal

/-!
# Problems of a script

A script may be well compiled and still be wrong: no window at all, an identifier that is blank or
that an earlier window has already, or a line feed inside a text. `Script.problems` lists these,
window by window, and for every window first what concerns its identifier and then its lines, the
name line of a speaker before all others.
-/

set_option autoImplicit false
set_option relaxedAutoImplicit false

namespace DialogueScript

/-- What may be wrong with a compiled script. -/
inductive Problem where
  | noWindows
  | duplicateIdentifier (identifier : String)
  /-- The identifier of the window at an index is blank. -/
  | emptyIdentifier (index : Nat)
  /-- A text in a line of a window holds a line feed. Lines are counted from one, and line zero is
  the name line of the speaker. -/
  | embeddedNewline (identifier : String) (line : Nat)
deriving DecidableEq, Repr

/-- The wording of a problem. -/
def Problem.message : Problem → String
  | noWindows => "script contains no windows"
  | duplicateIdentifier identifier => "duplicate window identifier '" ++ identifier ++ "'"
  | emptyIdentifier index =>
    "window #" ++ Decimal.ofNat index ++ " has an empty identifier"
  | embeddedNewline identifier line =>
    "window '" ++ identifier ++ "' line " ++ Decimal.ofNat line ++
      " has text containing a newline"

/-- A text that holds a line feed. -/
def Token.hasNewline : Token → Bool
  | .text content => content.toList.contains '\n'
  | _ => false

/-- A line with a text that holds a line feed. -/
def Line.hasNewline (line : Line) : Bool :=
  line.tokens.any Token.hasNewline

/-- An identifier of white space only. -/
def isBlankIdentifier (identifier : String) : Bool :=
  (Text.trim identifier.toList).isEmpty

/-- The problems of the lines of a window, the first of which has the given number. -/
def lineProblems (identifier : String) (number : Nat) : List Line → List Problem
  | [] => []
  | line :: rest =>
    (if line.hasNewline then [.embeddedNewline identifier number] else []) ++
      lineProblems identifier (number + 1) rest

namespace Window

/-- The problems of a window that concern its lines. -/
def linesProblems (window : Window) : List Problem :=
  lineProblems window.identifier 0 window.nameLine?.toList ++
    lineProblems window.identifier 1 window.lines

/-- The problems of a window that concern its identifier, where `seen` holds the identifiers of the
windows in front of it that are not blank. -/
def identifierProblems (window : Window) (index : Nat) (seen : List String) : List Problem :=
  if isBlankIdentifier window.identifier then [.emptyIdentifier index]
  else if window.identifier ∈ seen then [.duplicateIdentifier window.identifier]
  else []

/-- The identifiers known behind a window. -/
def remember (window : Window) (seen : List String) : List String :=
  if isBlankIdentifier window.identifier then seen else window.identifier :: seen

end Window

/-- The problems of the windows of a script from an index on. -/
def windowProblems (index : Nat) (seen : List String) : List Window → List Problem
  | [] => []
  | window :: rest =>
    window.identifierProblems index seen ++ window.linesProblems ++
      windowProblems (index + 1) (window.remember seen) rest

/-- The problems of a script. -/
def Script.problems (script : Script) : List Problem :=
  (if script.windows.isEmpty then [.noWindows] else []) ++ windowProblems 0 [] script.windows

end DialogueScript
