import DialogueScript.Syntax.Tree
import DialogueScript.Syntax.Rule

/-!
# Syntax trees as uniform nodes

A `Node` is a part of a source under the rule that reads it, with its place, its characters and its
parts. `Document.node` presents a whole document this way, for tools that walk a tree by the names
of its rules. Spacing and brackets belong to the characters of a node but are no parts of it.
-/

set_option autoImplicit false
set_option relaxedAutoImplicit false

namespace DialogueScript.Syntax

/-- A part of a source, with its own parts in the order of the source. -/
structure Node where
  rule : Rule
  place : Place
  text : List Char
  children : List Node
deriving Repr

namespace Node

/-- A node without parts. -/
def leaf (rule : Rule) (place : Place) (text : List Char) : Node :=
  ⟨rule, place, text, []⟩

/-- The parts of a node that belong to a rule. -/
def childrenOf (node : Node) (rule : Rule) : List Node :=
  node.children.filter (·.rule = rule)

/-- The first part of a node that belongs to a rule. -/
def child? (node : Node) (rule : Rule) : Option Node :=
  node.children.find? (·.rule = rule)

end Node

/-! ### Where the parts of a tree stand -/

namespace Tag

/-- The literals of a tag, each with its place. -/
def literals (tag : Tag) (place : Place) : List (Located (List Char)) :=
  (locate Argument.text (place.after tag.beforeArgs) tag.args).map fun argument =>
    ⟨argument.place.after argument.value.gap, argument.value.literal⟩

end Tag

/-- The place of the identifier of a label. -/
def Label.identifierPlace (label : Label) (place : Place) : Place :=
  place.after label.gap

namespace Dialog

/-- The place of the speaker. -/
def speakerPlace (window : Dialog) (place : Place) : Place :=
  place.after window.beforeSpeaker

/-- The place of the text of the window. -/
def bodyPlace (window : Dialog) (place : Place) : Place :=
  place.after window.header

end Dialog

/-- The place of the text of a speaker name. -/
def speakerTextPlace (place : Place) : Place :=
  place.after ['[']

/-- The place of the text of the window. -/
def Selection.bodyPlace (window : Selection) (place : Place) : Place :=
  place.after window.header

/-- The place of the first window. -/
def Document.windowsPlace (document : Document) : Place :=
  Place.start.after document.blanks

/-! ### Nodes -/

/-- The node of a tag. -/
def Tag.node (tag : Tag) (place : Place) : Node :=
  let id := tag.id.toList.map (.leaf .tagId (place.after tag.beforeId))
  let literals := (tag.literals place).map fun literal =>
    .leaf .intLiteral literal.place literal.value
  ⟨.tag, place, tag.text, id ++ literals⟩

/-- The node of a piece of text. -/
def Item.node (item : Item) (place : Place) : Node :=
  match item with
  | .run text => .leaf .text place text
  | .tag t => t.node place

/-- The node of a text with tags. -/
def TaggedText.node (items : TaggedText) (place : Place) : Node :=
  ⟨.tagText, place, items.text,
    (locate Item.text place items).map fun item => item.value.node item.place⟩

/-- The node of a speaker name. -/
def speakerNode (name : TaggedText) (place : Place) : Node :=
  ⟨.speakerName, place, speakerText name, [name.node (speakerTextPlace place)]⟩

/-- The node of an identifier. -/
def Label.node (label : Label) (place : Place) : Node :=
  .leaf .identifier (label.identifierPlace place) label.identifier

/-- The node of a dialog window. -/
def Dialog.node (window : Dialog) (place : Place) : Node :=
  let identifier := window.label.toList.map (·.node (place.after window.beforeLabel))
  let speaker := window.speaker.toList.map (speakerNode · (window.speakerPlace place))
  ⟨.dialogWindow, place, window.text,
    identifier ++ speaker ++ [window.body.node (window.bodyPlace place)]⟩

/-- The node of a selection window. -/
def Selection.node (window : Selection) (place : Place) : Node :=
  let identifier := window.label.toList.map (·.node (place.after window.beforeLabel))
  ⟨.selectionWindow, place, window.text,
    identifier ++ [window.body.node (window.bodyPlace place)]⟩

/-- The node of a window, which holds the node of its kind. -/
def Window.node (window : Window) (place : Place) : Node :=
  let inner := match window with
    | .dialog w => w.node place
    | .selection w => w.node place
  ⟨.messageWindow, place, window.text, [inner]⟩

/-- The node of a whole source, which ends with an empty node for the end of the source. -/
def Document.node (document : Document) : Node :=
  let windows := (locate Window.text document.windowsPlace document.windows).map fun window =>
    window.value.node window.place
  ⟨.compilationUnit, .start, document.text,
    windows ++ [.leaf .endOfInput (Place.start.after document.text) []]⟩

/-- The windows of the node of a document. -/
theorem childrenOf_messageWindow_document (document : Document) :
    document.node.childrenOf .messageWindow =
      (locate Window.text document.windowsPlace document.windows).map
        fun window ↦ window.value.node window.place := by
  rw [Document.node, Node.childrenOf, List.filter_append]
  have hwindows : ∀ windows : List (Located Window),
      (windows.map fun window ↦ window.value.node window.place).filter
        (·.rule = .messageWindow) = windows.map fun window ↦ window.value.node window.place := by
    intro windows
    exact List.filter_eq_self.mpr (by simp [Window.node])
  rw [hwindows]
  exact List.append_nil _

end DialogueScript.Syntax
