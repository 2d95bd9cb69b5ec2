import DialogueScript.Script.Basic
import DialogueScript.Text.Decimal

/-!
# Scripts in source notation

Tokens, lines and window headers are written in the notation of message scripts, and
`Script.listing` writes a whole script with one header or line a row. Without its rows that start
with `#`, a listing is a source again.
-/

set_option autoImplicit false
set_option relaxedAutoImplicit false

namespace DialogueScript

/-- A token in source notation. -/
def Token.source : Token → String
  | .text content => content
  | .newLine => "<n>"
  | .function table index arguments =>
    "<f" ++ String.join ((table :: index :: arguments).map spaced) ++ ">"
where
  /-- A literal behind a space. -/
  spaced (n : Int16) : String :=
    " " ++ Decimal.ofInt n.toInt

/-- A line in source notation, without the tag that ends it. -/
def Line.source (line : Line) : String :=
  String.join (line.tokens.map Token.source)

/-- The speaker part of a window header in source notation. -/
def Speaker.source : Speaker → String
  | .named nameLine => " [" ++ nameLine.source ++ "]"
  | .variablyNamed => " [?]"

/-- The header of a window in source notation. -/
def Window.header : Window → String
  | .dialog window =>
    "[dlg " ++ window.identifier ++ (window.speaker.map Speaker.source).getD "" ++ "]"
  | .selection window => "[sel " ++ window.identifier ++ "]"

/-- The rows of a window: its header, a remark on a speaker without a name, and its lines. -/
def Window.rows (window : Window) : List String :=
  let remarks := match window with
    | .dialog { speaker := some .variablyNamed, .. } => ["# speaker resolved at runtime"]
    | _ => []
  window.header :: remarks ++ window.lines.map fun line => line.source ++ "<e>"

/-- The rows of a script, the first of which names its format version. -/
def Script.rows (script : Script) : List String :=
  ("# format " ++ script.formatVersion.name) :: script.windows.flatMap Window.rows

/-- A script in source notation, every row with a line feed behind it. -/
def Script.listing (script : Script) : String :=
  String.join (script.rows.map (· ++ "\n"))

end DialogueScript
