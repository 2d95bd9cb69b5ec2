import DialogueScript.Text.Utf8

/-!
# Removing controls

A text that goes to a terminal may hold control sequences, which move the cursor or set a color
instead of showing. `Text.dropControls` leaves out the sequences and every other control but white
space.

A sequence starts with the escape control. A bracket behind that opens a list of parameters, which
ends with a letter or the like; other openings begin a string that only a terminator or a further
escape control ends. The controls for cancelling and substituting end every sequence.

White space that interrupts a sequence shows, and so does the text behind it, but only up to the
next control: behind that the sequence goes on. A character outside of ASCII in that text ends the
sequence for good.
-/

set_option autoImplicit false
set_option relaxedAutoImplicit false

namespace DialogueScript.Text

/-- How far a control sequence is read. -/
inductive ControlSequence where
  /-- Behind the escape control. -/
  | escape
  /-- Behind further characters that decide what the sequence means. -/
  | intermediate
  /-- In a list of parameters. -/
  | parameters
  /-- At the beginning of a string for a device. -/
  | deviceStart
  /-- In the parameters of a string for a device. -/
  | deviceParameters
  /-- Behind the parameters of a string for a device. -/
  | deviceIntermediate
  /-- In a string that ends with the string terminator. -/
  | string
  /-- In a command for the operating system, which ends with a bell. -/
  | command
deriving DecidableEq, Repr

/-- Whether text shows. -/
inductive ControlMode where
  /-- Text shows. There may be a sequence that white space has interrupted. -/
  | shown (interrupted : Option ControlSequence)
  /-- A sequence is being read, which does not show. -/
  | hidden (sequence : ControlSequence)
deriving DecidableEq, Repr

/-- The escape control. -/
def escapeControl : Char := '\x1b'

/-- A control that ends every sequence: cancel or substitute. -/
def isCancel (c : Char) : Bool :=
  c == '\x18' || c == '\x1a'

/-- White space of ASCII, of which only the space is no control. -/
def isAsciiSpace (c : Char) : Bool :=
  c == ' ' || c == '\t' || c == '\n' || c == '\x0c' || c == '\r'

/-- A control of ASCII. -/
def isControl (c : Char) : Bool :=
  c.toNat < 0x20 || c == '\x7f'

/-- Whether a character holds the byte that terminates a string. -/
def holdsTerminator (c : Char) : Bool :=
  (Utf8.encode [c]).contains 0x9C

namespace ControlSequence

/-- Where a character leads in a sequence. Controls and characters outside of ASCII lead nowhere
except in strings. -/
def next (sequence : ControlSequence) (c : Char) : ControlMode :=
  let n := c.toNat
  let isIntermediate := 0x20 ≤ n ∧ n ≤ 0x2F
  let isParameter := 0x30 ≤ n ∧ n ≤ 0x3B
  let isPrivate := 0x3C ≤ n ∧ n ≤ 0x3F
  let isLast := 0x40 ≤ n ∧ n ≤ 0x7E
  match sequence with
  | escape =>
    if isIntermediate then .hidden intermediate
    else if c = '[' then .hidden parameters
    else if c = ']' then .hidden command
    else if c = 'P' then .hidden deviceStart
    else if c = 'X' ∨ c = '^' ∨ c = '_' then .hidden string
    else if isParameter ∨ isPrivate ∨ isLast then .shown none
    else .hidden escape
  | intermediate =>
    if isParameter ∨ isPrivate ∨ isLast then .shown none else .hidden intermediate
  | parameters => if isLast then .shown none else .hidden parameters
  | deviceStart =>
    if isIntermediate then .hidden deviceIntermediate
    else if isParameter ∨ isPrivate then .hidden deviceParameters
    else if isLast then .hidden string
    else .hidden deviceStart
  | deviceParameters =>
    if isIntermediate then .hidden deviceIntermediate
    else if isPrivate ∨ isLast then .hidden string
    else .hidden deviceParameters
  | deviceIntermediate =>
    if isParameter ∨ isPrivate ∨ isLast then .hidden string else .hidden deviceIntermediate
  | string => if holdsTerminator c then .shown none else .hidden string
  | command => if c = '\x07' then .shown none else .hidden command

/-- Whether white space interrupts a sequence instead of belonging to it. -/
def isInterruptible : ControlSequence → Bool
  | escape => true
  | intermediate => true
  | parameters => true
  | _ => false

end ControlSequence

/-- The mode behind a character, and whether the character shows. -/
def ControlMode.step (mode : ControlMode) (c : Char) : ControlMode × Bool :=
  if c = escapeControl then (.hidden .escape, false)
  else if isCancel c then (.shown none, false)
  else
    match mode with
    | .shown interrupted =>
      if 0x80 ≤ c.toNat then (.shown none, true)
      else if isAsciiSpace c || !isControl c then (.shown interrupted, true)
      else (interrupted.elim (.shown none) .hidden, false)
    | .hidden sequence =>
      if isControl c && isAsciiSpace c && sequence.isInterruptible then
        (.shown (some sequence), true)
      else (sequence.next c, false)

/-- The characters of a text that show, from a mode on. -/
def ControlMode.filter (mode : ControlMode) : List Char → List Char
  | [] => []
  | c :: rest =>
    let (mode, shows) := mode.step c
    if shows then c :: mode.filter rest else mode.filter rest

/-- A text without control sequences and without controls but white space. -/
def dropControls (text : List Char) : List Char :=
  ControlMode.filter (.shown none) text

end DialogueScript.Text
