import DialogueScript.Compile.Lines
import DialogueScript.Options.Basic

/-!
# Windows and whole documents

`Document.script` compiles a document window by window. A window needs an identifier, which is
looked for before its texts are. The name of a speaker is the first line of the text in its
brackets; further lines are compiled too but left out with a warning, and a text without lines
names no speaker.
-/

set_option autoImplicit false
set_option relaxedAutoImplicit false

namespace DialogueScript.Syntax

/-- The identifier of a window at a position, or the defect that it has none. -/
def requiredName (label : Option Label) (defect : Defect) (position : Position) : Step String :=
  match label with
  | some label => pure (String.ofList label.identifier)
  | none => .fail defect position

/-- The speaker that a name stands for. -/
def speakerOf (name : TaggedText) (place : Place) : Step (Option Speaker) := do
  .report (.entered .speakerName place.position)
  let textPlace := speakerTextPlace place
  let lines ← name.lines textPlace
  .reportIf (1 < lines.length) (.extraNameLines lines.length textPlace.position)
  return lines.head?.map .named

/-- The speaker of a window, if its header holds one. -/
def optionalSpeaker (name : Option TaggedText) (place : Place) : Step (Option Speaker) :=
  match name with
  | some name => speakerOf name place
  | none => pure none

namespace Dialog

/-- The compiled form of a dialog window. -/
def compile (window : Dialog) (place : Place) : Step DialogWindow := do
  .report (.entered .dialogWindow place.position)
  let identifier ← requiredName window.label .dialogWithoutName place.position
  let speaker ← optionalSpeaker window.speaker (window.speakerPlace place)
  let lines ← window.body.lines (window.bodyPlace place)
  return { identifier, speaker, lines }

end Dialog

namespace Selection

/-- The compiled form of a selection window. -/
def compile (window : Selection) (place : Place) : Step SelectionWindow := do
  .report (.entered .selectionWindow place.position)
  let identifier ← requiredName window.label .selectionWithoutName place.position
  let lines ← window.body.lines (window.bodyPlace place)
  return { identifier, lines }

end Selection

/-- The compiled form of a window at its place. -/
def compileWindow (window : Located Window) : Step DialogueScript.Window :=
  match window.value with
  | .dialog dialog => .dialog <$> dialog.compile window.place
  | .selection selection => .selection <$> selection.compile window.place

/-- The compiled form of a document. -/
def Document.script (document : Document) (formatVersion : FormatVersion) : Step Script := do
  .report (.entered .compilationUnit Position.start)
  match document.windows with
  | [] => .fail .noWindows Position.start
  | windows => Script.mk formatVersion <$>
      Step.forEach compileWindow (locate Window.text document.windowsPlace windows)

end DialogueScript.Syntax
