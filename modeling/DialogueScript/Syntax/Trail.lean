import DialogueScript.Syntax.Rule

/-!
# Attempted rules and the furthest failure

A syntax error names what could have come next at the furthest character that parsing reached.
Parsing leaves a `Trail`: every rule that was tried, with the place where it was tried, whether it
failed, and the rules tried on its behalf. `Furthest` folds a trail into the furthest place at which
a rule failed and the rules that were expected there.

A rule that fails stands for the rules tried on its behalf at its own place, since it names them in
one word; but where exactly one of them has been recorded, that one is the better answer and is
kept. Rules that failed further on are kept too, and rules that failed further back are forgotten.
What was recorded on behalf of a rule that succeeded stays.
-/

set_option autoImplicit false
set_option relaxedAutoImplicit false

namespace DialogueScript.Syntax

/-- The rules tried by a parse, in order. -/
inductive Trail where
  /-- No rule was tried. -/
  | empty
  /-- A rule was tried at an offset, then came the rest of the trail. -/
  | tried (rule : Rule) (offset : Nat) (failed : Bool) (inner later : Trail)
deriving DecidableEq, Repr

namespace Trail

/-- One trail behind another. -/
def append : Trail → Trail → Trail
  | empty, second => second
  | tried rule offset failed inner later, second =>
    tried rule offset failed inner (append later second)

instance : Append Trail := ⟨append⟩

@[simp] theorem empty_append (second : Trail) : empty ++ second = second := rfl

@[simp] theorem tried_append (rule : Rule) (offset : Nat) (failed : Bool)
    (inner later second : Trail) :
    tried rule offset failed inner later ++ second =
      tried rule offset failed inner (later ++ second) := rfl

@[simp] theorem append_empty (first : Trail) : first ++ empty = first := by
  induction first with
  | empty => rfl
  | tried rule offset failed inner later _ ih => simp [ih]

theorem append_assoc (first second third : Trail) :
    first ++ second ++ third = first ++ (second ++ third) := by
  induction first with
  | empty => rfl
  | tried rule offset failed inner later _ ih => simp [ih]

end Trail

/-- The furthest offset at which a rule failed, and the rules expected there. -/
structure Furthest where
  offset : Nat
  rules : List Rule
deriving DecidableEq, Repr

namespace Furthest

/-- Nothing has failed yet. -/
def start : Furthest := ⟨0, []⟩

/-- The number of rules expected at an offset. -/
def count (seen : Furthest) (offset : Nat) : Nat :=
  if seen.offset = offset then seen.rules.length else 0

/-- Records that `rule` failed at `offset`, where `before` was known when it was tried and `inner`
after the rules tried on its behalf. -/
def close (rule : Rule) (offset : Nat) (before inner : Furthest) : Furthest :=
  if inner.count offset = before.count offset + 1 then inner
  else if offset < inner.offset then inner
  else if offset = inner.offset then ⟨offset, inner.rules.take (before.count offset) ++ [rule]⟩
  else ⟨offset, [rule]⟩

/-- What is known after a trail. -/
def follow (seen : Furthest) : Trail → Furthest
  | .empty => seen
  | .tried rule offset failed inner later =>
    let within := seen.follow inner
    (if failed then close rule offset seen within else within).follow later

/-- The rules expected at the furthest failure, each once and in the order of the grammar. -/
def expected (seen : Furthest) : List Rule :=
  Rule.all.filter (· ∈ seen.rules)

end Furthest

end DialogueScript.Syntax
