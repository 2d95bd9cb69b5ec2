import DialogueScript.Compile.Step
import DialogueScript.Syntax.Node
import DialogueScript.Script.Basic
import DialogueScript.Text.Newline

/-!
# Lines of a text with tags

Three tags mean something, in either case of their letter. `<f table index …>` calls a game
function, `<n>` breaks the current line and `<e>` ends it. Line endings of the source are dropped
from plain text, and a run of nothing else gives no token, so that a source may be laid out freely
between its tags.

`TaggedText.lines` collects the tokens up to each `<e>` into a line. A line that ends without
tokens is kept and reported, and tokens behind the last `<e>` form one more line.
-/

set_option autoImplicit false
set_option relaxedAutoImplicit false

namespace DialogueScript

/-- What a tag may mean. -/
inductive Control where
  | call
  | newLine
  | endLine
deriving DecidableEq, Repr

/-- The meaning of a tag id. -/
def Control.ofId? (id : List Char) : Option Control :=
  match id.map Char.toLower with
  | ['f'] => some call
  | ['n'] => some newLine
  | ['e'] => some endLine
  | _ => none

namespace Syntax

/-- The value of a literal at its place. -/
def literalValue (literal : Located (List Char)) : Step Int16 :=
  match Literal.value literal.value with
  | .ok n => pure n
  | .error error => .fail (.malformedLiteral error) literal.place.position

namespace Tag

/-- The call of a tag: two indices and any number of arguments. -/
def call (tag : Tag) (place : Place) : Step Token :=
  match tag.literals place with
  | [] => .fail .callWithoutArguments place.position
  | table :: others => do
    let table ← literalValue table
    match others with
    | [] => .fail .callWithoutIndex place.position
    | index :: arguments => do
      let index ← literalValue index
      let arguments ← Step.forEach literalValue arguments
      return .function table index arguments

/-- The token of a tag, or none if the tag ends a line. -/
def token (tag : Tag) (place : Place) : Step (Option Token) :=
  match tag.id with
  | none => .fail .tagWithoutId place.position
  | some id =>
    match Control.ofId? id with
    | none => .fail (.unknownTag id) place.position
    | some .call => do
      .report (.entered .tag place.position)
      some <$> tag.call place
    | some .newLine => pure (some .newLine)
    | some .endLine => pure none

end Tag

/-- The tokens of a run of plain text, which are one or none. -/
def runTokens (run : List Char) : List Token :=
  match stripNewlines run with
  | [] => []
  | kept => [.text (String.ofList kept)]

/-- The lines of a text from a place on, where `begun` holds the tokens of the current line. -/
def TaggedText.linesFrom (place : Place) (begun : List Token) :
    TaggedText → Step (List Line)
  | [] => pure (if begun.isEmpty then [] else [⟨begun⟩])
  | .run run :: rest => linesFrom (place.after run) (begun ++ runTokens run) rest
  | .tag tag :: rest => do
    match ← tag.token place with
    | some token => linesFrom (place.after tag.text) (begun ++ [token]) rest
    | none => do
      .reportIf begun.isEmpty (.emptyLine place.position)
      (⟨begun⟩ :: ·) <$> linesFrom (place.after tag.text) [] rest

/-- The lines of a text with tags. -/
def TaggedText.lines (text : TaggedText) (place : Place) : Step (List Line) := do
  .report (.entered .tagText place.position)
  linesFrom place [] text

end Syntax

end DialogueScript
