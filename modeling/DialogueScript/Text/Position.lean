import DialogueScript.Text.Decimal

/-!
# Lines and columns

A position is a line and a column, both counted from one, and every character of a text is one
column wide except the line feed, which opens the next line. Reading a text from a position is
therefore a fold over its characters (`Position.after`), and reading two texts one after the other
is reading their concatenation (`Position.after_append`). A carriage return in front of a line feed
needs no rule of its own: the column it adds is forgotten when the line feed opens the next line.

`Place` pairs a position with the number of characters read, and `locate` hands every element of a
list the place at which its text starts.
-/

set_option autoImplicit false
set_option relaxedAutoImplicit false

namespace DialogueScript

/-- A line and a column, both counted from one. -/
structure Position where
  line : Nat
  column : Nat
deriving DecidableEq, Repr

namespace Position

/-- The position of the first character of a text. -/
def start : Position := ⟨1, 1⟩

instance : Inhabited Position := ⟨start⟩

/-- The position behind a character. -/
def advance (p : Position) (c : Char) : Position :=
  if c = '\n' then ⟨p.line + 1, 1⟩ else ⟨p.line, p.column + 1⟩

/-- The position behind a text that is read from `p` on. -/
def after (p : Position) (text : List Char) : Position :=
  text.foldl advance p

@[simp] theorem after_nil (p : Position) : p.after [] = p := rfl

@[simp] theorem after_cons (p : Position) (c : Char) (text : List Char) :
    p.after (c :: text) = (p.advance c).after text := rfl

theorem after_append (p : Position) (first second : List Char) :
    p.after (first ++ second) = (p.after first).after second := by
  simp [after]

/-- A position is written as its line and its column with a colon between them. -/
instance : ToString Position where
  toString p := Decimal.ofNat p.line ++ ":" ++ Decimal.ofNat p.column

/-- Positions are compared by line, and on one line by column. -/
instance : Ord Position where
  compare p q := (compare p.line q.line).then (compare p.column q.column)

instance : LT Position := ltOfOrd
instance : LE Position := leOfOrd

end Position

/-- A position together with the number of characters in front of it. -/
structure Place where
  offset : Nat
  position : Position
deriving DecidableEq, Repr

namespace Place

/-- The place of the first character of a text. -/
def start : Place := ⟨0, .start⟩

instance : Inhabited Place := ⟨start⟩

/-- The place behind a text that is read from `place` on. -/
def after (place : Place) (text : List Char) : Place :=
  ⟨place.offset + text.length, place.position.after text⟩

@[simp] theorem after_nil (place : Place) : place.after [] = place := rfl

theorem after_append (place : Place) (first second : List Char) :
    place.after (first ++ second) = (place.after first).after second := by
  simp [after, Position.after_append, Nat.add_assoc]

@[simp] theorem position_after (place : Place) (text : List Char) :
    (place.after text).position = place.position.after text := rfl

@[simp] theorem offset_after (place : Place) (text : List Char) :
    (place.after text).offset = place.offset + text.length := rfl

end Place

/-- A value with the place at which its text starts. -/
structure Located (α : Type) where
  place : Place
  value : α

/-- The elements of a list whose texts follow one another from `place` on, each with the place at
which its text starts. -/
def locate {α : Type} (text : α → List Char) (place : Place) : List α → List (Located α)
  | [] => []
  | a :: rest => ⟨place, a⟩ :: locate text (place.after (text a)) rest

@[simp] theorem map_value_locate {α : Type} (text : α → List Char) (place : Place)
    (values : List α) : (locate text place values).map Located.value = values := by
  induction values generalizing place with
  | nil => rfl
  | cons a rest ih => simp [locate, ih]

end DialogueScript
