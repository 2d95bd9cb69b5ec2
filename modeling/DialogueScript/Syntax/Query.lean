import DialogueScript.Syntax.Node

/-!
# Walking a syntax tree

A `Selector` picks parts of a node, and `Node.walk` follows a list of selectors from a node. Each of
them answers how many parts it picks and the one that the walk goes on to; the walk ends at the
first that has none to go on to.
-/

set_option autoImplicit false
set_option relaxedAutoImplicit false

namespace DialogueScript.Syntax

/-- A way from a node to one of its parts. -/
inductive Selector where
  /-- The first part that belongs to a rule. -/
  | child (rule : Rule)
  /-- The part at an index among those that belong to a rule. -/
  | children (rule : Rule) (index : Nat)
  /-- The part at an index. -/
  | element (index : Nat)

/-- What a selector finds: how many parts it picks, and the one to go on to. -/
structure Found where
  count : Nat
  node : Option Node

/-- The parts of a node that a selector picks. -/
def Node.select (node : Node) : Selector → Found
  | .child rule =>
    let found := node.child? rule
    ⟨found.toList.length, found⟩
  | .children rule index =>
    let found := node.childrenOf rule
    ⟨found.length, found[index]?⟩
  | .element index => ⟨node.children.length, node.children[index]?⟩

/-- Follows selectors one behind another, up to the first that leads nowhere. -/
def Node.walk (node : Node) : List Selector → List Found
  | [] => []
  | selector :: rest =>
    let found := node.select selector
    found :: match found.node with
      | none => []
      | some next => next.walk rest

end DialogueScript.Syntax
