/-!
# Levels of severity

`Level` is how severe a diagnostic event is, and `LogLevel` the coarser scale of a program's log,
where a fatal event counts as an error.
-/

set_option autoImplicit false
set_option relaxedAutoImplicit false

namespace DialogueScript

/-- The severity of an event, from the least to the most severe. -/
inductive Level where
  | debug
  | info
  | warning
  | error
  | fatal
deriving DecidableEq, Repr, Ord

namespace Level

instance : LT Level := ltOfOrd
instance : LE Level := leOfOrd

/-- Every level. -/
def all : List Level :=
  [debug, info, warning, error, fatal]

/-- The name of a level. -/
def name : Level → String
  | debug => "debug"
  | info => "info"
  | warning => "warning"
  | error => "error"
  | fatal => "fatal"

/-- The level of a name. -/
def ofName? (name : String) : Option Level :=
  all.find? (·.name = name)

end Level

/-- The severity of a log record, from the most to the least severe. -/
inductive LogLevel where
  | error
  | warn
  | info
  | debug
  | trace
deriving DecidableEq, Repr, Ord

namespace LogLevel

instance : LT LogLevel := ltOfOrd
instance : LE LogLevel := leOfOrd

/-- Every level of a log. -/
def all : List LogLevel :=
  [error, warn, info, debug, trace]

/-- The name of a level of a log. -/
def name : LogLevel → String
  | error => "ERROR"
  | warn => "WARN"
  | info => "INFO"
  | debug => "DEBUG"
  | trace => "TRACE"

end LogLevel

/-- The level at which an event is logged. -/
def Level.toLogLevel : Level → LogLevel
  | debug => .debug
  | info => .info
  | warning => .warn
  | error => .error
  | fatal => .error

end DialogueScript
