import DialogueScript.Script.Basic

/-!
# Options of a compiler

A compiler stamps its scripts with a format version and reports on a named channel.
-/

set_option autoImplicit false
set_option relaxedAutoImplicit false

namespace DialogueScript

/-- What a user may choose about a compiler. -/
structure Options where
  formatVersion : FormatVersion := .v1
  channel : String := "MessageScriptCompiler"
deriving DecidableEq, Repr, Inhabited

end DialogueScript
