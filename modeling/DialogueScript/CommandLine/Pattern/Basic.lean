import DialogueScript.CommandLine.Pattern.CharSet

/-!
# Patterns

A `Pattern` describes texts by a regular expression, and `Pattern.occursIn` says whether a text has
a part that it describes. It goes through the text once, from one character to the next with the
patterns that may describe what follows.

An `Anchor` is a condition on the characters around a place in the text.
-/

set_option autoImplicit false
set_option relaxedAutoImplicit false

namespace DialogueScript

/-! ### Anchors -/

/-- A place in a text: the characters in front of it and behind it, if there are any. -/
structure Gap where
  before : Option Char
  behind : Option Char
deriving DecidableEq, Repr

namespace Gap

/-- Whether a word of ASCII reaches up to a place. -/
def wordBefore (gap : Gap) : Bool := gap.before.any CharSet.word.holds

/-- Whether a word of ASCII begins or goes on at a place. -/
def wordBehind (gap : Gap) : Bool := gap.behind.any CharSet.word.holds

end Gap

/-- A condition on the words around a place. -/
inductive Boundary where
  /-- A word begins or ends. -/
  | edge
  /-- No word begins or ends. -/
  | noEdge
  /-- A word begins. -/
  | first
  /-- A word ends. -/
  | last
  /-- There is no word in front. -/
  | noneBefore
  /-- There is no word behind. -/
  | noneBehind
deriving DecidableEq, Repr

/-- Whether a condition on words holds at a place. -/
def Boundary.holds (gap : Gap) : Boundary → Bool
  | edge => gap.wordBefore != gap.wordBehind
  | noEdge => gap.wordBefore == gap.wordBehind
  | first => !gap.wordBefore && gap.wordBehind
  | last => gap.wordBefore && !gap.wordBehind
  | noneBefore => !gap.wordBefore
  | noneBehind => !gap.wordBehind

/-- A condition on the characters around a place. -/
inductive Anchor where
  /-- The beginning of the text. -/
  | first
  /-- The end of the text. -/
  | last
  /-- The beginning of a line, where a carriage return may end lines too. -/
  | lineFirst (endsAtReturn : Bool)
  /-- The end of a line, where a carriage return may end lines too. -/
  | lineLast (endsAtReturn : Bool)
  /-- A condition on words, which may be meant to hold letters outside of ASCII too. Those are not
  known here, and a pattern that asks for them is not used. -/
  | words (isUnicode : Bool) (boundary : Boundary)
deriving DecidableEq, Repr

/-- Whether a condition holds at a place. A carriage return and a line feed behind it end one line
together. -/
def Anchor.holds (gap : Gap) : Anchor → Bool
  | first => gap.before.isNone
  | last => gap.behind.isNone
  | lineFirst endsAtReturn =>
    gap.before.all (· == '\n') ||
      endsAtReturn && gap.before == some '\r' && gap.behind != some '\n'
  | lineLast endsAtReturn =>
    gap.behind.isNone || gap.behind == some '\n' && !(endsAtReturn && gap.before == some '\r') ||
      endsAtReturn && gap.behind == some '\r'
  | words _ boundary => boundary.holds gap

/-! ### Patterns -/

/-- A regular expression. -/
inductive Pattern where
  | empty
  /-- Characters one behind another. -/
  | text (chars : List Char)
  /-- One character of a set. -/
  | oneOf (set : CharSet)
  /-- The empty text at some places. -/
  | anchor (condition : Anchor)
  | sequence (a b : Pattern)
  | either (a b : Pattern)
  /-- So many occurrences, and any number or so many more, of which many or few are preferred. -/
  | repeated (a : Pattern) (least : Nat) (more : Option Nat) (prefersMany : Bool)
  /-- What a numbered group describes. -/
  | group (number : Nat) (a : Pattern)
deriving DecidableEq, Repr

namespace Pattern

/-- Whether a pattern describes the empty text at a place. -/
def isEmptyAt (gap : Gap) : Pattern → Bool
  | empty => true
  | text chars => chars.isEmpty
  | oneOf _ => false
  | anchor condition => condition.holds gap
  | sequence a b => a.isEmptyAt gap && b.isEmptyAt gap
  | either a b => a.isEmptyAt gap || b.isEmptyAt gap
  | repeated a least _ _ => least == 0 || a.isEmptyAt gap
  | group _ a => a.isEmptyAt gap

/-- A pattern in front of another. -/
def andThen : Pattern → Pattern → Pattern
  | empty, b => b
  | a, b => sequence a b

/-- A repetition with one occurrence less, if there may be one. -/
def oneLess (a : Pattern) (prefersMany : Bool) : Nat → Option Nat → Option Pattern
  | least + 1, more => some (repeated a least more prefersMany)
  | 0, none => some (repeated a 0 none prefersMany)
  | 0, some (more + 1) => some (repeated a 0 (some more) prefersMany)
  | 0, some 0 => none

/-- What may stand behind the first character of the texts that a pattern describes at a place and
that begin with it: the derivatives of the pattern by the character. Of a repetition, any number of
required occurrences in front may be empty where one is. -/
def rests (before : Option Char) (c : Char) : Pattern → List Pattern
  | empty => []
  | text [] => []
  | text (d :: chars) =>
    if c = d then [if chars.isEmpty then empty else text chars] else []
  | oneOf set => if set.holds c then [empty] else []
  | anchor _ => []
  | sequence a b =>
    (rests before c a).map (·.andThen b) ++
      if a.isEmptyAt ⟨before, some c⟩ then rests before c b else []
  | either a b => rests before c a ++ rests before c b
  | repeated a least more prefersMany =>
    let others :=
      if a.isEmptyAt ⟨before, some c⟩ then oneLess a prefersMany 0 (more.map (least + ·))
      else oneLess a prefersMany least more
    match others with
    | some others => (rests before c a).map (·.andThen others)
    | none => []
  | group _ a => rests before c a

/-- Whether one of some patterns that have begun describes the next characters, or a pattern those
from here or from a later place on. -/
def occursFrom (pattern : Pattern) (begun : List Pattern) (before : Option Char) :
    List Char → Bool
  | [] => (pattern :: begun).any (isEmptyAt ⟨before, none⟩)
  | c :: rest =>
    (pattern :: begun).any (isEmptyAt ⟨before, some c⟩) ||
      pattern.occursFrom ((pattern :: begun).flatMap (rests before c)).eraseDups (some c) rest

/-- Whether a part of a text is described by a pattern. -/
def occursIn (pattern : Pattern) (text : List Char) : Bool :=
  pattern.occursFrom [] none text

end Pattern

end DialogueScript
