/-!
# Concrete syntax trees

A `Document` is a message script as it is spelled: blanks, then windows, each with a header in
square brackets and a text with tags. The tree keeps every character of its source, also the
spacing that means nothing, so `Document.text` gives the source back and a position in the source
can be counted from the tree alone.

* A dialog window `[dlg name [speaker]] text` may have a speaker, whose name is itself a text with
  tags; a selection window `[sel name] text` has none.
* A text with tags (`TaggedText`) is a list of plain runs and tags.
* A tag `<id literal …>` may lack its id and may have any number of literals.

The tree does not say which ids and literals mean something.
-/

set_option autoImplicit false
set_option relaxedAutoImplicit false

namespace DialogueScript.Syntax

/-- A literal of a tag with the spacing in front of it. -/
structure Argument where
  gap : List Char
  literal : List Char
deriving DecidableEq, Repr

/-- A tag: spacing, an id, literals, and spacing before the closing bracket. -/
structure Tag where
  lead : List Char
  id : Option (List Char)
  args : List Argument
  tail : List Char
deriving DecidableEq, Repr

/-- A piece of a text with tags. -/
inductive Item where
  /-- A run of plain characters. -/
  | run (text : List Char)
  /-- A tag. -/
  | tag (tag : Tag)
deriving DecidableEq, Repr

/-- Plain runs and tags in the order of the source. -/
abbrev TaggedText := List Item

/-- The identifier of a window with the spacing in front of it. -/
structure Label where
  gap : List Char
  identifier : List Char
deriving DecidableEq, Repr

/-- A dialog window: `lead` follows the opening bracket, `gap` stands before the speaker and `tail`
before the closing bracket. -/
structure Dialog where
  lead : List Char
  keyword : List Char
  label : Option Label
  gap : List Char
  speaker : Option TaggedText
  tail : List Char
  body : TaggedText
deriving DecidableEq, Repr

/-- A selection window: `lead` follows the opening bracket and `tail` stands before the closing
bracket. -/
structure Selection where
  lead : List Char
  keyword : List Char
  label : Option Label
  tail : List Char
  body : TaggedText
deriving DecidableEq, Repr

/-- A window of either kind. -/
inductive Window where
  | dialog (window : Dialog)
  | selection (window : Selection)
deriving DecidableEq, Repr

/-- A whole source: blanks, then windows. -/
structure Document where
  blanks : List Char
  windows : List Window
deriving DecidableEq, Repr

/-! ### Spelling -/

/-- The characters of a literal and the spacing in front of it. -/
def Argument.text (argument : Argument) : List Char :=
  argument.gap ++ argument.literal

namespace Tag

/-- The characters in front of the id. -/
def beforeId (tag : Tag) : List Char :=
  '<' :: tag.lead

/-- The characters in front of the literals. -/
def beforeArgs (tag : Tag) : List Char :=
  tag.beforeId ++ tag.id.getD []

/-- The characters of a tag. -/
def text (tag : Tag) : List Char :=
  tag.beforeArgs ++ tag.args.flatMap Argument.text ++ tag.tail ++ ['>']

end Tag

/-- The characters of a piece of text. -/
def Item.text : Item → List Char
  | .run text => text
  | .tag t => t.text

/-- The characters of a text with tags. -/
def TaggedText.text (items : TaggedText) : List Char :=
  items.flatMap Item.text

/-- The characters of an identifier and the spacing in front of it. -/
def Label.text (label : Label) : List Char :=
  label.gap ++ label.identifier

/-- The characters of a speaker name, brackets included. -/
def speakerText (name : TaggedText) : List Char :=
  '[' :: name.text ++ [']']

namespace Dialog

/-- The characters in front of the label. -/
def beforeLabel (window : Dialog) : List Char :=
  '[' :: window.lead ++ window.keyword

/-- The characters in front of the speaker. -/
def beforeSpeaker (window : Dialog) : List Char :=
  window.beforeLabel ++ (window.label.map Label.text).getD [] ++ window.gap

/-- The characters of the header, brackets included. -/
def header (window : Dialog) : List Char :=
  window.beforeSpeaker ++ (window.speaker.map speakerText).getD [] ++ window.tail ++ [']']

/-- The characters of a dialog window. -/
def text (window : Dialog) : List Char :=
  window.header ++ window.body.text

end Dialog

namespace Selection

/-- The characters in front of the label. -/
def beforeLabel (window : Selection) : List Char :=
  '[' :: window.lead ++ window.keyword

/-- The characters of the header, brackets included. -/
def header (window : Selection) : List Char :=
  window.beforeLabel ++ (window.label.map Label.text).getD [] ++ window.tail ++ [']']

/-- The characters of a selection window. -/
def text (window : Selection) : List Char :=
  window.header ++ window.body.text

end Selection

/-- The characters of a window. -/
def Window.text : Window → List Char
  | .dialog window => window.text
  | .selection window => window.text

/-- The characters of a whole source. -/
def Document.text (document : Document) : List Char :=
  document.blanks ++ document.windows.flatMap Window.text

end DialogueScript.Syntax
