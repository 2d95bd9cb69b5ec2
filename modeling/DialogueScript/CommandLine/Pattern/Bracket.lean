import DialogueScript.CommandLine.Pattern.Escape

/-!
# Sets in brackets

`Reading.brackets` reads a set of characters. It holds characters, ranges, classes, sets with names
and further sets; between these, `&&`, `--` and `~~` take what is in both, in the first, or in only
one of what stands in front and behind. Dashes and a closing bracket stand for themselves right
behind the opening bracket.
-/

set_option autoImplicit false
set_option relaxedAutoImplicit false

namespace DialogueScript.Pattern

/-! ### Sets that are not read to the end -/

/-- What combines two sets. -/
inductive SetOperator where
  | intersection
  | difference
  | symmetricDifference
deriving DecidableEq, Repr

namespace SetOperator

/-- The combination of two sets. -/
def apply : SetOperator → CharSet → CharSet → CharSet
  | intersection => .intersection
  | difference => .difference
  | symmetricDifference => .symmetricDifference

/-- The operator that a text begins with. -/
def leading? : List Char → Option SetOperator
  | '&' :: '&' :: _ => some intersection
  | '-' :: '-' :: _ => some difference
  | '~' :: '~' :: _ => some symmetricDifference
  | _ => none

end SetOperator

/-- A set with where it stands and the parts that are in it. -/
structure WrittenSet where
  set : CharSet
  span : Span
  nesting : Nesting
deriving DecidableEq, Repr

/-- The members of a set that are read, the last one first. -/
abbrev Members := List WrittenSet

/-- The union of members, which is a part of its own if there are several. -/
def Members.union : Members → WrittenSet
  | [] => ⟨.none, ⟨0, 0⟩, []⟩
  | [member] => member
  | last :: members =>
    let first := members.getLast?.getD last
    let span : Span := ⟨first.span.start, last.span.stop⟩
    ⟨members.foldl (fun union member => member.set.union union) last.set, span,
      span :: members.foldl (fun nesting member => member.nesting.beside nesting) last.nesting⟩

/-- A set whose closing bracket is not read yet. -/
structure OpenSet where
  /-- From the opening bracket up to the members, without the ones that stand for themselves only
  right behind it. -/
  opening : Span
  isComplement : Bool
  /-- What is in front of the last operator. -/
  operand : Option (WrittenSet × SetOperator)
  /-- What is behind it. -/
  members : Members
deriving DecidableEq, Repr

namespace OpenSet

/-- A set with a further member. -/
def add (pending : OpenSet) (member : WrittenSet) : OpenSet :=
  { pending with members := member :: pending.members }

/-- Fails because the closing bracket is missing. -/
def fail {α : Type} (pending : OpenSet) : Reading α :=
  Reading.fail .openSet pending.opening.start pending.opening.stop

/-- What stands between the brackets up to here. An operator takes letters in both cases on either
side before it combines them. -/
def content (pending : OpenSet) : Reading WrittenSet := do
  let behind := pending.members.union
  match pending.operand with
  | none => return behind
  | some (before, operator) =>
    let span : Span := ⟨before.span.start, behind.span.stop⟩
    let second ← Reading.inBothCases behind.span behind.set
    let first ← Reading.inBothCases before.span before.set
    return ⟨operator.apply first second, span, span :: before.nesting.beside behind.nesting⟩

/-- A set with an operator behind its content. -/
def operate (pending : OpenSet) (operator : SetOperator) : Reading OpenSet := do
  return { pending with operand := some (← pending.content, operator), members := [] }

/-- The set whose closing bracket is in front of the reader. -/
def close (pending : OpenSet) : Reading WrittenSet := do
  let content ← pending.content
  let span : Span := ⟨pending.opening.start, ← Reading.offset⟩
  let set ← Reading.inBothCases span content.set
  return ⟨← Reading.complementIf pending.isComplement span set, span, span :: content.nesting⟩

end OpenSet

/-! ### Sets with names -/

/-- A set of ASCII with a name. -/
def namedSet? (name : List Char) : Option CharSet :=
  let range := CharSet.range
  let letter := CharSet.union (range 'a' 'z') (range 'A' 'Z')
  let alphanumeric := letter.union .digit
  match String.ofList name with
  | "alnum" => some alphanumeric
  | "alpha" => some letter
  | "ascii" => some (range '\x00' '\x7f')
  | "blank" => some (CharSet.union (.single '\t') (.single ' '))
  | "cntrl" => some (CharSet.union (range '\x00' '\x1f') (.single '\x7f'))
  | "digit" => some .digit
  | "graph" => some (range '!' '~')
  | "lower" => some (range 'a' 'z')
  | "print" => some (range ' ' '~')
  | "punct" => some ((range '!' '/').union ((range ':' '@').union
      ((range '[' '\x60').union (range '\x7b' '~'))))
  | "space" => some .space
  | "upper" => some (range 'A' 'Z')
  | "word" => some .word
  | "xdigit" => some (CharSet.digit.union ((range 'a' 'f').union (range 'A' 'F')))
  | _ => none

/-- A set with a name as it is written. -/
structure NamedSet where
  set : CharSet
  isComplement : Bool
  /-- The number of characters that it takes. -/
  length : Nat
deriving DecidableEq, Repr

/-- The set with a name that a text begins with, between brackets and colons. -/
def NamedSet.leading? (text : List Char) : Option NamedSet :=
  match text with
  | '[' :: ':' :: inside =>
    let isComplement := inside.head? = some '^'
    let inside := if isComplement then inside.drop 1 else inside
    let name := inside.takeWhile (· != ':')
    match namedSet? name, inside.drop name.length with
    | some set, ':' :: ']' :: rest => some ⟨set, isComplement, text.length - rest.length⟩
    | _, _ => none
  | _ => none

namespace Reading

/-! ### Members -/

/-- Reads dashes or a closing bracket right behind the opening one of a set, which starts at an
offset. -/
def firstMembers (start : Nat) : Reading Members := do
  let here ← offset
  match ← takeAllWhile (· == '-') with
  | [] =>
    if (← next) = some ']' then
      advance
      if (← next).isNone then fail .openSet start (← offset)
      return [⟨.single ']', ⟨here, here + 1⟩, []⟩]
    else return []
  | dashes =>
    if (← next).isNone then fail .openSet start start
    let stop ← offset
    return dashes.map fun _ => ⟨.single '-', ⟨here, stop⟩, []⟩

/-- Reads the beginning of a set. -/
def openSet : Reading OpenSet := do
  let start ← offset
  advance
  let isComplement := (← next) = some '^'
  if isComplement then advance
  if (← next).isNone then fail .openSet start (← offset)
  let members ← firstMembers start
  return ⟨⟨start, ← offset⟩, isComplement, none, members⟩

/-- Reads a character or what stands behind a backslash in a set. -/
def memberSign (pending : OpenSet) : Reading Sign := do
  match ← next with
  | some c => charOrEscape c
  | none => pending.fail

/-- Whether the dash that comes next is between the bounds of a range. -/
def isRange : Reading Bool := do
  let reader ← get
  match reader.rest, ((reader.drop 1).dropSpace).rest.head? with
  | '-' :: _, some c => return c != ']' && c != '-'
  | '-' :: _, none => return true
  | _, _ => return false

/-- Reads a member of a set that is a sign, or a range between two of them. -/
def member (pending : OpenSet) : Reading OpenSet := do
  let low ← memberSign pending
  skipSpace
  if (← next).isNone then pending.fail
  if ← isRange then
    advance
    let high ← memberSign pending
    let span : Span := ⟨low.span.start, high.span.stop⟩
    let first ← low.bound
    let last ← high.bound
    if last.char < first.char then fail .emptyRange span.start span.stop
    discard first.inSet
    discard last.inSet
    return pending.add ⟨.range first.char last.char, span, []⟩
  else return pending.add ⟨← low.inSet, low.span, []⟩

/-! ### Sets -/

/-- Reads the innermost of some sets, and those around it, to the end of the outermost one. Every
round takes at least a character. -/
def sets (pending : OpenSet) (around : List OpenSet) : Nat → Reading WrittenSet
  | 0 => pending.fail
  | fuel + 1 => do
    skipSpace
    let reader ← get
    match reader.rest, SetOperator.leading? reader.rest, NamedSet.leading? reader.rest, around with
    | [], _, _, _ => pending.fail
    | _, some operator, _, _ =>
      modify (·.drop 2)
      sets (← pending.operate operator) around fuel
    | _, _, some named, _ =>
      modify (·.drop named.length)
      let span : Span := ⟨reader.offset, reader.offset + named.length⟩
      let set ← complementIf named.isComplement span (← inBothCases span named.set)
      sets (pending.add ⟨set, span, []⟩) around fuel
    | '[' :: _, _, _, _ => do
      let inner ← openSet
      sets inner (pending :: around) fuel
    | ']' :: _, _, _, [] =>
      skip
      pending.close
    | ']' :: _, _, _, outer :: around =>
      skip
      let set ← pending.close
      sets (outer.add set) around fuel
    | _, _, _, _ => do
      let pending ← member pending
      sets pending around fuel

/-- Reads a set. -/
def brackets : Reading WrittenSet := do
  let pending ← openSet
  sets pending [] ((← get).rest.length + 1)

end Reading

end DialogueScript.Pattern
