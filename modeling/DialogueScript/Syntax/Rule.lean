import DialogueScript.Text.Position

/-!
# The rules of the grammar

`Rule` enumerates the constructs of a message script by which parts of a source are known: nodes of
the tree, traces of a compilation and syntax errors all name them. The order in which `Rule.all`
lists them is the order in which a syntax error does.
-/

set_option autoImplicit false
set_option relaxedAutoImplicit false

namespace DialogueScript.Syntax

/-- A construct of the grammar. -/
inductive Rule where
  | endOfInput
  | compilationUnit
  | messageWindow
  | dialogWindow
  | selectionWindow
  | speakerName
  | tagText
  | tag
  | text
  | identifier
  | tagId
  | intLiteral
deriving DecidableEq, Repr

namespace Rule

/-- Every rule, in the order of the grammar. -/
def all : List Rule :=
  [endOfInput, compilationUnit, messageWindow, dialogWindow, selectionWindow, speakerName, tagText,
    tag, text, identifier, tagId, intLiteral]

theorem mem_all (rule : Rule) : rule ∈ all := by
  cases rule <;> decide

theorem nodup_all : all.Nodup := by
  decide

/-- The name under which a rule is reported. -/
def name : Rule → String
  | endOfInput => "EOI"
  | compilationUnit => "compilation_unit"
  | messageWindow => "message_window"
  | dialogWindow => "dialog_window"
  | selectionWindow => "selection_window"
  | speakerName => "speaker_name"
  | tagText => "tag_text"
  | tag => "tag"
  | text => "text"
  | identifier => "identifier"
  | tagId => "tag_id"
  | intLiteral => "int_literal"

/-- The rule with a given name. -/
def ofName? (name : String) : Option Rule :=
  all.find? fun rule => rule.name = name

end Rule

end DialogueScript.Syntax
