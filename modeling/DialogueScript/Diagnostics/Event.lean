import DialogueScript.Diagnostics.Level
import DialogueScript.Text.Position

/-!
# Diagnostic events

An `Event` is a message on a named channel, with a severity and, where it concerns one, a position
in a source. A `LogRecord` is the form in which a program's log takes an event: the channel becomes
the target and the position part of the text.
-/

set_option autoImplicit false
set_option relaxedAutoImplicit false

namespace DialogueScript

/-- A message on a channel. -/
structure Event where
  channel : String
  level : Level
  message : String
  position : Option Position
deriving DecidableEq, Repr

/-- A line of a program's log. -/
structure LogRecord where
  target : String
  level : LogLevel
  text : String
deriving DecidableEq, Repr

namespace Event

/-- The message of an event with the position behind it in parentheses. -/
def text (event : Event) : String :=
  match event.position with
  | some position => event.message ++ " (" ++ toString position ++ ")"
  | none => event.message

instance : ToString Event where
  toString event := event.channel ++ " " ++ event.level.name ++ ": " ++ event.text

/-- An event as a line of a log. -/
def toLogRecord (event : Event) : LogRecord :=
  ⟨event.channel, event.level.toLogLevel, event.text⟩

end Event

end DialogueScript
