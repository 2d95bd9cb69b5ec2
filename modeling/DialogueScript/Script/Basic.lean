import DialogueScript.Text.WhiteSpace

/-!
# Compiled message scripts

A `Script` is what a source compiles to: windows in order, each with an identifier and lines, under
a format version. A line is a list of tokens: text, a break inside the line, or a call of a game
function, which two indices select and whose arguments are 16-bit integers. A dialog window may
have a speaker, whose name is itself a line or is resolved while the game runs.
-/

set_option autoImplicit false
set_option relaxedAutoImplicit false

namespace DialogueScript

/-- The binary layout that a script is meant for. -/
inductive FormatVersion where
  | v1
  | v1BigEndian
deriving DecidableEq, Repr, Inhabited

namespace FormatVersion

/-- The name of a format version. -/
def name : FormatVersion → String
  | v1 => "v1"
  | v1BigEndian => "v1-big-endian"

/-- The format version of a name, spelled exactly. -/
def ofName? (name : String) : Option FormatVersion :=
  [v1, v1BigEndian].find? fun version => version.name = name

/-- A name in the form in which spellings of it are compared: without white space around it and
without upper-case ASCII letters. -/
def normalize (spelling : String) : String :=
  String.ofList ((Text.trim spelling.toList).map Char.toLower)

/-- The format version that a user asks for, by its name or a short form of it; a spelling that
names none is given back as it was compared. -/
def ofSpelling (spelling : String) : Except String FormatVersion :=
  let name := normalize spelling
  if name = "v1" ∨ name = "1" then .ok v1
  else if name = "v1-big-endian" ∨ name = "v1be" then .ok v1BigEndian
  else .error name

/-- What is said about a spelling that names no format version. -/
def unknownMessage (name : String) : String :=
  "unknown format version '" ++ name ++ "' (expected v1 | v1-big-endian)"

instance : ToString FormatVersion := ⟨name⟩

end FormatVersion

/-- The smallest unit of a line. -/
inductive Token where
  | text (content : String)
  /-- A break inside a line. -/
  | newLine
  /-- A call of a game function. -/
  | function (table index : Int16) (arguments : List Int16)
deriving DecidableEq, Repr

/-- Tokens shown together. -/
structure Line where
  tokens : List Token
deriving DecidableEq, Repr

namespace Line

/-- A line without tokens. -/
def isEmpty (line : Line) : Bool :=
  line.tokens.isEmpty

/-- The text of a line, without its calls and breaks. -/
def plainText (line : Line) : String :=
  String.join (line.tokens.map fun
    | .text content => content
    | _ => "")

end Line

/-- Who speaks in a dialog window. -/
inductive Speaker where
  | named (nameLine : Line)
  /-- The game finds the name while it runs. -/
  | variablyNamed
deriving DecidableEq, Repr

/-- A box of dialog, with or without a speaker. -/
structure DialogWindow where
  identifier : String
  speaker : Option Speaker
  lines : List Line
deriving DecidableEq, Repr

/-- A prompt, each line of which is a choice. -/
structure SelectionWindow where
  identifier : String
  lines : List Line
deriving DecidableEq, Repr

/-- A window of either kind. -/
inductive Window where
  | dialog (window : DialogWindow)
  | selection (window : SelectionWindow)
deriving DecidableEq, Repr

namespace Window

/-- The identifier of a window. -/
def identifier : Window → String
  | dialog window => window.identifier
  | selection window => window.identifier

/-- The lines of a window. -/
def lines : Window → List Line
  | dialog window => window.lines
  | selection window => window.lines

/-- The line with the name of the speaker, where there is one. -/
def nameLine? : Window → Option Line
  | dialog { speaker := some (.named line), .. } => some line
  | _ => none

end Window

/-- A compiled script. -/
structure Script where
  formatVersion : FormatVersion
  windows : List Window
deriving DecidableEq, Repr

namespace Script

/-- The index of the first window with an identifier. -/
def windowIndex? (script : Script) (identifier : String) : Option Nat :=
  script.windows.findIdx? (·.identifier = identifier)

/-- The first window with an identifier. -/
def window? (script : Script) (identifier : String) : Option Window :=
  script.windows.find? (·.identifier = identifier)

end Script

end DialogueScript
