import DialogueScript.Script.Basic
import DialogueScript.Text.Decimal
import DialogueScript.Text.Quoted

/-!
# Scripts in RON

`Script.ron` writes a script as RON text, every field and every element of a
list on a row of its own, indented by four spaces for each bracket it stands in and with a comma
behind it. Lists without elements are written `[]`. A text is quoted, with a backslash in front of
single and double quotes.
-/

set_option autoImplicit false
set_option relaxedAutoImplicit false

namespace DialogueScript

namespace Ron

/-- The space in front of a row. -/
def indent (depth : Nat) : String :=
  String.ofList (List.replicate (4 * depth) ' ')

/-- A row inside brackets at a depth. -/
def row (depth : Nat) (content : String) : String :=
  indent (depth + 1) ++ content ++ ",\n"

/-- A list whose elements are written one level deeper. -/
def list {α : Type} (render : Nat → α → String) (depth : Nat) (values : List α) : String :=
  match values with
  | [] => "[]"
  | values =>
    "[\n" ++ String.join (values.map fun value => row depth (render (depth + 1) value)) ++
      indent depth ++ "]"

/-- Named fields, whose values are written one level deeper. -/
def fields (depth : Nat) (fields : List (String × (Nat → String))) : String :=
  "(\n" ++ String.join (fields.map fun (name, render) =>
    row depth (name ++ ": " ++ render (depth + 1))) ++ indent depth ++ ")"

/-- A text between double quotes. -/
def quoted (content : String) : String :=
  Text.quote ['\'', '"'] content

/-- An integer. -/
def integer (n : Int16) : String :=
  Decimal.ofInt n.toInt

end Ron

open Ron

/-- A format version. Its name is marked as one where it is no plain word. -/
def FormatVersion.ron : FormatVersion → String
  | .v1 => "v1"
  | .v1BigEndian => "r#v1-big-endian"

/-- A token at a depth. -/
def Token.ron (depth : Nat) : Token → String
  | .text content => "text(" ++ quoted content ++ ")"
  | .newLine => "newLine"
  | .function table index arguments =>
    "function" ++ fields depth
      [("table_index", fun _ => integer table),
        ("function_index", fun _ => integer index),
        ("arguments", fun inner => list (fun _ => integer) inner arguments)]

/-- A line at a depth. -/
def Line.ron (depth : Nat) (line : Line) : String :=
  list Token.ron depth line.tokens

/-- A speaker at a depth. -/
def Speaker.ron (depth : Nat) : Speaker → String
  | .named nameLine => "named" ++ fields depth [("name_line", nameLine.ron)]
  | .variablyNamed => "variablyNamed"

/-- A speaker at a depth, or the word for none. -/
def optionalSpeakerRon (depth : Nat) : Option Speaker → String
  | some speaker => "Some(" ++ speaker.ron depth ++ ")"
  | none => "None"

/-- A window at a depth. -/
def Window.ron (depth : Nat) : Window → String
  | .dialog window =>
    "dialog(" ++ fields depth
      [("identifier", fun _ => quoted window.identifier),
        ("speaker", fun inner => optionalSpeakerRon inner window.speaker),
        ("lines", fun inner => list Line.ron inner window.lines)] ++ ")"
  | .selection window =>
    "selection(" ++ fields depth
      [("identifier", fun _ => quoted window.identifier),
        ("lines", fun inner => list Line.ron inner window.lines)] ++ ")"

/-- A script as RON text. -/
def Script.ron (script : Script) : String :=
  fields 0
    [("format_version", fun _ => script.formatVersion.ron),
      ("windows", fun inner => list Window.ron inner script.windows)]

end DialogueScript
