/-!
# Splitting

`Text.split` takes a text apart at every occurrence of a character.
-/

set_option autoImplicit false
set_option relaxedAutoImplicit false

namespace DialogueScript.Text

/-- The parts of a text between the occurrences of a character, at least one. -/
def split (mark : Char) : List Char → List (List Char)
  | [] => [[]]
  | c :: rest =>
    match split mark rest with
    | [] => [[]]
    | part :: parts => if c = mark then [] :: part :: parts else (c :: part) :: parts

end DialogueScript.Text
