import DialogueScript.Json
import DialogueScript.Script.Basic

/-!
# Scripts as JSON

`Script.toJson` writes a script with all its fields, and `Script.ofJson?` reads one. A union is
written as the name of its case, or as an object whose one field has the name of the case and holds
what it carries. Reading is lenient where nothing is lost: fields with other names are passed over,
lists may be left out where they are empty, so may a speaker where there is none, and a case that
carries nothing may be written as an object that holds a null.
-/

set_option autoImplicit false
set_option relaxedAutoImplicit false

namespace DialogueScript

/-! ### Writing -/

/-- A case of a union with what it carries. -/
def Json.variant (name : String) (payload : Json) : Json :=
  .object [(name, payload)]

/-- An integer of 16 bits. -/
def Json.ofInt16 (n : Int16) : Json :=
  .integer n.toInt

def FormatVersion.toJson (version : FormatVersion) : Json :=
  .string version.name

def Token.toJson : Token → Json
  | .text content => .variant "text" (.string content)
  | .newLine => .string "newLine"
  | .function table index arguments =>
    .variant "function" (.object
      [("table_index", .ofInt16 table), ("function_index", .ofInt16 index),
        ("arguments", .array (arguments.map .ofInt16))])

def Line.toJson (line : Line) : Json :=
  .array (line.tokens.map Token.toJson)

def Speaker.toJson : Speaker → Json
  | .named nameLine => .variant "named" (.object [("name_line", nameLine.toJson)])
  | .variablyNamed => .string "variablyNamed"

/-- A speaker, or null where there is none. -/
def optionalSpeakerToJson : Option Speaker → Json
  | some speaker => speaker.toJson
  | none => .null

def DialogWindow.toJson (window : DialogWindow) : Json :=
  .object
    [("identifier", .string window.identifier),
      ("speaker", optionalSpeakerToJson window.speaker),
      ("lines", .array (window.lines.map Line.toJson))]

def SelectionWindow.toJson (window : SelectionWindow) : Json :=
  .object
    [("identifier", .string window.identifier),
      ("lines", .array (window.lines.map Line.toJson))]

def Window.toJson : Window → Json
  | .dialog window => .variant "dialog" window.toJson
  | .selection window => .variant "selection" window.toJson

def Script.toJson (script : Script) : Json :=
  .object
    [("format_version", script.formatVersion.toJson),
      ("windows", .array (script.windows.map Window.toJson))]

/-! ### Reading -/

namespace Json

/-- The value of a field that must be there. -/
def required {α : Type} (read : Json → Option α) (fields : List (String × Json)) (name : String) :
    Option α :=
  (fields.lookup name).bind read

/-- The elements of a list, each read in the same way. -/
def listOf {α : Type} (read : Json → Option α) (json : Json) : Option (List α) :=
  json.elements?.bind (·.mapM read)

/-- The elements of a list that may be left out where it is empty. -/
def optionalList {α : Type} (read : Json → Option α) (fields : List (String × Json))
    (name : String) : Option (List α) :=
  match fields.lookup name with
  | none => some []
  | some json => listOf read json

end Json

open Json

def FormatVersion.ofJson? (json : Json) : Option FormatVersion := do
  let (name, payload) ← json.variant?
  guard (isUnit payload)
  ofName? name

def Token.ofJson? (json : Json) : Option Token :=
  match json.variant? with
  | some ("newLine", payload) => if isUnit payload then some .newLine else none
  | some ("text", some (.string content)) => some (.text content)
  | some ("function", some (.object fields)) => do
    let table ← required int16? fields "table_index"
    let index ← required int16? fields "function_index"
    let arguments ← optionalList int16? fields "arguments"
    return .function table index arguments
  | _ => none

def Line.ofJson? (json : Json) : Option Line :=
  (listOf Token.ofJson? json).map Line.mk

def Speaker.ofJson? (json : Json) : Option Speaker :=
  match json.variant? with
  | some ("variablyNamed", payload) => if isUnit payload then some .variablyNamed else none
  | some ("named", some (.object fields)) =>
    (required Line.ofJson? fields "name_line").map .named
  | _ => none

/-- A speaker that may be left out or null where there is none. -/
def optionalSpeakerOfJson? (json : Option Json) : Option (Option Speaker) :=
  match json with
  | none => some none
  | some .null => some none
  | some json => (Speaker.ofJson? json).map some

def Window.ofJson? (json : Json) : Option Window :=
  match json.variant? with
  | some ("dialog", some (.object fields)) => do
    let identifier ← required string? fields "identifier"
    let speaker ← optionalSpeakerOfJson? (fields.lookup "speaker")
    let lines ← optionalList Line.ofJson? fields "lines"
    return .dialog { identifier, speaker, lines }
  | some ("selection", some (.object fields)) => do
    let identifier ← required string? fields "identifier"
    let lines ← optionalList Line.ofJson? fields "lines"
    return .selection { identifier, lines }
  | _ => none

def Script.ofJson? (json : Json) : Option Script := do
  let fields ← json.fields?
  let formatVersion ← required FormatVersion.ofJson? fields "format_version"
  let windows ← optionalList Window.ofJson? fields "windows"
  return { formatVersion, windows }

end DialogueScript
