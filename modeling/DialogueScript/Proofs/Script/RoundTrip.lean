import DialogueScript.Script.Json
import Mathlib

/-!
# Scripts can be read back

What a script is written as in JSON is read as the script (`Script.ofJson?_toJson`). This holds of
each of its parts, from the integers of a call up.
-/

set_option autoImplicit false
set_option relaxedAutoImplicit false

namespace DialogueScript

open Json

theorem int16?_ofInt16 (n : Int16) : int16? (.ofInt16 n) = some n := by
  have hlow := n.le_toInt
  have hhigh := n.toInt_le
  rw [ofInt16, int16?, if_pos ⟨hlow, hhigh⟩, Int16.ofInt_toInt]

/-- Assumes: every element can be read back. So can the list. -/
theorem listOf_map {α : Type} {read : Json → Option α} {write : α → Json} {list : List α}
    (h : ∀ a ∈ list, read (write a) = some a) :
    listOf read (.array (list.map write)) = some list := by
  change (list.map write).mapM read = some list
  induction list with
  | nil => rfl
  | cons a rest ih =>
    rw [List.map_cons, List.mapM_cons, h a List.mem_cons_self,
      ih fun b hb ↦ h b (List.mem_cons_of_mem a hb)]
    rfl

theorem FormatVersion.ofJson?_toJson (version : FormatVersion) :
    ofJson? version.toJson = some version := by
  cases version <;> rfl

theorem Token.ofJson?_toJson (token : Token) : ofJson? token.toJson = some token := by
  cases token with
  | text content => rfl
  | newLine => rfl
  | function table index arguments =>
    let fields := [("table_index", ofInt16 table), ("function_index", ofInt16 index),
      ("arguments", Json.array (arguments.map ofInt16))]
    have htable : required int16? fields "table_index" = some table := int16?_ofInt16 table
    have hindex : required int16? fields "function_index" = some index := int16?_ofInt16 index
    have harguments : optionalList int16? fields "arguments" = some arguments :=
      listOf_map fun n _ ↦ int16?_ofInt16 n
    simp only [toJson, ofJson?, variant, variant?, htable, hindex, harguments, fields]
    rfl

theorem Line.ofJson?_toJson (line : Line) : ofJson? line.toJson = some line :=
  congrArg (Option.map Line.mk) (listOf_map fun token _ ↦ token.ofJson?_toJson)

theorem Speaker.ofJson?_toJson (speaker : Speaker) : ofJson? speaker.toJson = some speaker := by
  cases speaker with
  | named nameLine => exact congrArg (Option.map Speaker.named) nameLine.ofJson?_toJson
  | variablyNamed => rfl

theorem optionalSpeakerOfJson?_toJson (speaker : Option Speaker) :
    optionalSpeakerOfJson? (some (optionalSpeakerToJson speaker)) = some speaker := by
  cases speaker with
  | none => rfl
  | some speaker =>
    cases speaker with
    | named nameLine =>
      exact congrArg (Option.map some) (Speaker.named nameLine).ofJson?_toJson
    | variablyNamed => rfl

theorem Window.ofJson?_toJson (window : Window) : ofJson? window.toJson = some window := by
  cases window with
  | dialog window =>
    obtain ⟨identifier, speaker, lines⟩ := window
    let fields := [("identifier", Json.string identifier),
      ("speaker", optionalSpeakerToJson speaker), ("lines", Json.array (lines.map Line.toJson))]
    have hidentifier : required string? fields "identifier" = some identifier := rfl
    have hspeaker : optionalSpeakerOfJson? (fields.lookup "speaker") = some speaker :=
      optionalSpeakerOfJson?_toJson speaker
    have hlines : optionalList Line.ofJson? fields "lines" = some lines :=
      listOf_map fun line _ ↦ line.ofJson?_toJson
    simp only [toJson, DialogWindow.toJson, ofJson?, variant, variant?, hidentifier, hspeaker,
      hlines, fields]
    rfl
  | selection window =>
    obtain ⟨identifier, lines⟩ := window
    let fields := [("identifier", Json.string identifier),
      ("lines", Json.array (lines.map Line.toJson))]
    have hidentifier : required string? fields "identifier" = some identifier := rfl
    have hlines : optionalList Line.ofJson? fields "lines" = some lines :=
      listOf_map fun line _ ↦ line.ofJson?_toJson
    simp only [toJson, SelectionWindow.toJson, ofJson?, variant, variant?, hidentifier, hlines,
      fields]
    rfl

theorem Script.ofJson?_toJson (script : Script) : ofJson? script.toJson = some script := by
  obtain ⟨version, windows⟩ := script
  let fields := [("format_version", version.toJson),
    ("windows", Json.array (windows.map Window.toJson))]
  have hversion : required FormatVersion.ofJson? fields "format_version" = some version :=
    version.ofJson?_toJson
  have hwindows : optionalList Window.ofJson? fields "windows" = some windows :=
    listOf_map fun window _ ↦ window.ofJson?_toJson
  simp only [toJson, ofJson?, fields?, Option.bind_eq_bind, Option.bind_some, hversion, hwindows,
    fields]
  rfl

end DialogueScript
