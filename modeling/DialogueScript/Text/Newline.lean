/-!
# Removing line endings

Line endings lay out a source and carry no text of their own. `stripNewlines` first removes every
carriage return together with the line feed behind it, and then every line feed that is left. A
carriage return on its own stays.
-/

set_option autoImplicit false
set_option relaxedAutoImplicit false

namespace DialogueScript

/-- A text without the pairs of a carriage return and a line feed, found from the left. -/
def dropPairs : List Char → List Char
  | '\r' :: '\n' :: rest => dropPairs rest
  | c :: rest => c :: dropPairs rest
  | [] => []

/-- A text without its line endings. -/
def stripNewlines (text : List Char) : List Char :=
  (dropPairs text).filter (· != '\n')

theorem newline_notMem_stripNewlines (text : List Char) : '\n' ∉ stripNewlines text := by
  simp [stripNewlines]

end DialogueScript
