import DialogueScript.CommandLine.Pattern.Bracket
import DialogueScript.CommandLine.Pattern.Weight
import DialogueScript.Text.Alphanumeric

/-!
# The notation of patterns

`Pattern.ofString` reads a pattern. A character stands for itself, except that a dot is any
character but a line feed, `^` and `$` are the ends of the text, a bar stands between alternatives,
`*`, `+`, `?` and counts in braces repeat what is in front of them, parentheses make a group,
brackets a set, and a backslash takes the meaning from a character or gives one to a letter.

A group may have a name, and flags behind a question mark, which hold up to its end.
-/

set_option autoImplicit false
set_option relaxedAutoImplicit false

namespace DialogueScript.Pattern

/-! ### Groups -/

/-- A part of a notation: what it describes, where it starts, and the parts that are in it. -/
structure Part where
  /-- The texts that are described, or none if the part is flags. -/
  pattern : Option Pattern
  start : Nat
  nesting : Nesting
deriving DecidableEq, Repr

namespace Part

/-- What a part describes. Flags describe the empty text. -/
def described (part : Part) : Pattern := part.pattern.getD .empty

/-- A part between two offsets with several parts in it, of which the last one is given first. -/
def around (start stop : Nat) (combine : List Pattern → Pattern) (inside : List Part) : Part :=
  let nesting := inside.foldl (fun nesting part => part.nesting.beside nesting) []
  ⟨some (combine (inside.reverse.map described)), start, ⟨start, stop⟩ :: nesting⟩

/-- A part that ends at an offset and repeats what is in it, at least so often and any number or so
many times more. -/
def repeated (part : Part) (stop least : Nat) (more : Option Nat) (prefersMany : Bool) : Part :=
  ⟨some (part.described.repeatOf least more prefersMany), part.start,
    ⟨part.start, stop⟩ :: part.nesting⟩

end Part

/-- A group whose end is not read yet. -/
structure Group where
  /-- Where its opening parenthesis stands. -/
  start : Nat
  /-- The flags that hold around it. -/
  outerFlags : Flags
  /-- Whether the text that it describes is remembered. -/
  isRemembered : Bool
  /-- Where its content starts. -/
  contentStart : Nat
  /-- The alternatives that are complete, the last one first. -/
  alternatives : List Part
  /-- Where the current alternative starts. -/
  alternativeStart : Nat
  /-- The parts of the current alternative, the last one first. -/
  parts : List Part
deriving DecidableEq, Repr

namespace Group

/-- A group that begins. -/
def new (start contentStart : Nat) (outerFlags : Flags) (isRemembered : Bool) : Group :=
  ⟨start, outerFlags, isRemembered, contentStart, [], contentStart, []⟩

/-- The current alternative, which ends at an offset: its parts one behind another. -/
def alternative (group : Group) (stop : Nat) : Part :=
  match group.parts with
  | [] => ⟨some .empty, group.alternativeStart, []⟩
  | [part] => part
  | parts => .around group.alternativeStart stop sequenceOf parts

/-- The content of a group, which ends at an offset: its alternatives. -/
def content (group : Group) (stop : Nat) : Part :=
  match group.alternatives with
  | [] => group.alternative stop
  | others => .around group.contentStart stop choiceOf (group.alternative stop :: others)

/-- The group as a part, whose closing parenthesis stands at an offset. -/
def close (group : Group) (stop : Nat) : Part :=
  let content := group.content stop
  let pattern :=
    if group.isRemembered then .group group.start content.described else content.described
  ⟨some pattern, group.start, ⟨group.start, stop + 1⟩ :: content.nesting⟩

/-- A group with a part behind the others. -/
def add (group : Group) (part : Part) : Group :=
  { group with parts := part :: group.parts }

/-- A group with a bar at an offset, behind which the next alternative begins. -/
def nextAlternative (group : Group) (bar : Nat) : Group :=
  { group with
      alternatives := group.alternative bar :: group.alternatives
      alternativeStart := bar + 1
      parts := [] }

/-- The last part and the group without it, if the part may be repeated. -/
def operand? (group : Group) : Option (Part × Group) :=
  match group.parts with
  | part :: parts => if part.pattern.isSome then some (part, { group with parts }) else none
  | [] => none

end Group

namespace Reading

/-! ### The beginning of a group -/

/-- Flags in a list of them, with their offsets, from an offset up to a colon or a closing
parenthesis. The ones that are read already stand the last one first. -/
def flagSigns (place : Nat) (read : List (Char × Nat)) :
    List Char → Except PatternFault (List (Char × Nat))
  | [] => .error (.part .openFlags ⟨place, place⟩ none)
  | c :: rest =>
    let here : Span := ⟨place, place + 1⟩
    if c = ':' ∨ c = ')' then
      match read with
      | ('-', dash) :: _ => .error (.part .danglingDash ⟨dash, dash + 1⟩ none)
      | _ => .ok read.reverse
    else if c ≠ '-' ∧ !Flags.signs.contains c then .error (.part .unknownFlag here none)
    else
      match read.lookup c with
      | some earlier =>
        let reason := if c = '-' then PatternReason.repeatedDash else .repeatedFlag
        .error (.part reason here (some ⟨earlier, earlier + 1⟩))
      | none => flagSigns (place + 1) ((c, place) :: read) rest

/-- Whether a character may stand in a name, of which it is the first one or not. -/
def isNameChar (isFirst : Bool) (c : Char) : Bool :=
  if isFirst then c == '_' || Text.isAlphabetic c
  else c == '_' || c == '.' || c == '[' || c == ']' || Text.isAlphanumeric c

/-- The name at an offset up to its closing bracket. -/
def nameAt (place : Nat) (isFirst : Bool) : List Char → Except PatternFault (List Char)
  | [] => .error (.part .openName ⟨place, place⟩ none)
  | c :: rest =>
    if c = '>' then
      if isFirst then .error (.part .emptyName ⟨place, place⟩ none) else .ok []
    else if isNameChar isFirst c then return c :: (← nameAt (place + 1) false rest)
    else .error (.part .charOfName ⟨place, place + 1⟩ none)

/-- Reads the name of a group with its closing bracket. -/
def groupName : Reading Unit := do
  let reader ← get
  let name ← nameAt reader.offset true reader.rest
  let span : Span := ⟨reader.offset, reader.offset + name.length⟩
  match reader.names.lookup name with
  | some earlier => throw (.part .repeatedName span (some earlier))
  | none =>
    set { reader with names := (name, span) :: reader.names }
    modify (·.drop (name.length + 1))

/-- What a parenthesis opens. -/
inductive Opening where
  /-- A group, of which the text that it describes may be remembered. -/
  | group (isRemembered : Bool)
  /-- Flags for the rest of the group around them. -/
  | flags
deriving DecidableEq, Repr

/-- Reads flags with the colon or the parenthesis at their end. A lone question mark, at an offset,
repeats nothing. -/
def groupFlags (question : Nat) : Reading Opening := do
  let reader ← get
  let signs := (← flagSigns reader.offset [] reader.rest).map Prod.fst
  modify (·.drop signs.length)
  let beginsGroup := (← next) = some ':'
  skip
  if !beginsGroup && signs.isEmpty then fail .noOperand question question
  setFlags (reader.flags.setAll signs)
  return if beginsGroup then .group false else .flags

/-- What asks for a condition on the text around a place. -/
def lookArounds : List String := ["?=", "?!", "?<=", "?<!"]

/-- Reads a parenthesis and what it opens, up to the content of a group. -/
def opening : Reading Opening := do
  let start ← offset
  advance
  let inside ← get
  match lookArounds.find? (·.toList.isPrefixOf inside.rest) with
  | some word => fail .lookAround start (inside.offset + word.length)
  | none =>
    if ← accept "?P<" then
      groupName
      return .group true
    else if ← accept "?<" then
      groupName
      return .group true
    else if ← accept "?" then
      if (← next).isNone then fail .openGroup start (start + 1)
      groupFlags inside.offset
    else return .group true

/-! ### Repetitions -/

/-- The largest count. -/
def maxCount : Nat := 0xFFFFFFFF

/-- Reads a count, perhaps between spaces. What is wrong with it is told only where the count is
needed. -/
def count : Reading (Except PatternFault Nat) := do
  modify fun reader => reader.drop (reader.rest.takeWhile Text.isWhiteSpace).length
  let start ← offset
  let digits ← takeAllWhile Char.isDigit
  let span : Span := ⟨start, ← offset⟩
  discard (takeAllWhile Text.isWhiteSpace)
  return match Numeral.decimal? digits with
    | none => .error (.part .noCount span none)
    | some n => if maxCount < n then .error (.part .largeCount span none) else .ok n

/-- How often something occurs. -/
structure Repetition where
  least : Nat
  /-- How many more occurrences there may be, or none if any number. -/
  more : Option Nat
  prefersMany : Bool
deriving DecidableEq, Repr

/-- Reads the question mark behind a repetition by which few occurrences are preferred, or many if a
flag says that few are. -/
def preference : Reading Bool := do
  let isMarked ← accept "?"
  return isMarked == (← flags).prefersFew

/-- Reads a repetition by counts in braces. -/
def counts : Reading Repetition := do
  let start ← offset
  let failOpen {α : Type} : Reading α := do fail .openCounts start (← offset)
  advance
  if (← next).isNone then failOpen
  let least ← count
  if (← next).isNone then failOpen
  let (least, most) ←
    if (← next) = some ',' then
      advance
      match ← next with
      | none => failOpen
      | some '\x7d' => pure (← least, none)
      | some _ =>
        let least ← least
        pure (least, some (← (← count)))
    else
      let least ← least
      pure (least, some least)
  if (← next) ≠ some '\x7d' then failOpen
  advance
  let prefersMany ← preference
  match most with
  | none => return ⟨least, none, prefersMany⟩
  | some most =>
    if most < least then fail .emptyCounts start (← offset)
    return ⟨least, some (most - least), prefersMany⟩

/-- Whether a character begins a repetition. -/
def isRepetition (c : Char) : Bool := c == '*' || c == '+' || c == '?' || c == '\x7b'

/-- Reads the repetition that a character begins. -/
def repetition (c : Char) : Reading Repetition := do
  if c = '\x7b' then counts
  else
    skip
    let prefersMany ← preference
    return match c with
      | '*' => ⟨0, none, prefersMany⟩
      | '+' => ⟨1, none, prefersMany⟩
      | _ => ⟨0, some 1, prefersMany⟩

/-! ### Patterns -/

/-- The set of characters that the dot at an offset stands for. -/
def dot (place : Nat) : Reading CharSet := do
  let flags ← flags
  unless flags.isUnicode do complain .noUtf8 ⟨place, place + 1⟩
  return if flags.dotIsAll then .any else if flags.endsAtReturn then .inRow else .inLine

/-- Reads what a character begins that neither begins nor ends a group or a repetition. -/
def part (c : Char) : Reading Part := do
  let start ← offset
  let flags ← flags
  match c with
  | '[' =>
    let set ← brackets
    return ⟨some (.ofSet set.set), start, set.nesting⟩
  | '.' =>
    skip
    return ⟨some (.ofSet (← dot start)), start, []⟩
  | '^' =>
    skip
    let condition := if flags.isMultiline then .lineFirst flags.endsAtReturn else .first
    return ⟨some (.anchor condition), start, []⟩
  | '$' =>
    skip
    let condition := if flags.isMultiline then .lineLast flags.endsAtReturn else .last
    return ⟨some (.anchor condition), start, []⟩
  | c => do
    let sign ← charOrEscape c
    return ⟨some (← sign.meaning), start, []⟩

/-- Reads the innermost of some groups, and those around it, to the end of the notation. Every round
takes at least a character. -/
def groups (group : Group) (around : List Group) : Nat → Reading Part
  | 0 => fail .openGroup group.start (group.start + 1)
  | fuel + 1 => do
    skipSpace
    let place ← offset
    match ← next, around with
    | none, [] => return group.content place
    | none, _ :: _ => fail .openGroup group.start (group.start + 1)
    | some '(', _ =>
      let outerFlags ← flags
      match ← opening with
      | .group isRemembered =>
        groups (.new place (← offset) outerFlags isRemembered) (group :: around) fuel
      | .flags => groups (group.add ⟨none, place, []⟩) around fuel
    | some ')', [] => fail .unopenedGroup place (place + 1)
    | some ')', outer :: around =>
      setFlags group.outerFlags
      skip
      groups (outer.add (group.close place)) around fuel
    | some '|', _ =>
      skip
      groups (group.nextAlternative place) around fuel
    | some c, _ =>
      match isRepetition c, group.operand? with
      | true, none => fail .noOperand place place
      | true, some (operand, others) =>
        let repetition ← repetition c
        let part := operand.repeated (← offset) repetition.least repetition.more
          repetition.prefersMany
        groups (others.add part) around fuel
      | false, _ =>
        let part ← part c
        groups (group.add part) around fuel

end Reading

/-- Checks that a matcher does not take too much for a pattern in a direction. -/
def checkWeight (direction : Direction) (pattern : Pattern) : Except PatternFault Unit := do
  if Weight.max < pattern.weight direction then throw (.weight Weight.max)

/-- Reads a pattern. A fault of the notation goes before what is asked for and not to be had, and
this before the weight of the pattern. -/
def ofString (text : List Char) : Except PatternFault Pattern := do
  let (part, reader) ← (Reading.groups (.new 0 0 {} false) [] (text.length + 1)).run (.new text)
  let pattern := part.described
  if let some span := part.nesting.tooDeep? then throw (.part .deepNesting span none)
  if let some fault := reader.complaint then throw fault
  checkWeight .forward pattern
  if pattern.needsUnicodeWords then throw .unicodeWords
  checkWeight .backward pattern
  return pattern

end DialogueScript.Pattern
