import DialogueScript.Syntax.Trail

/-!
# Parsers over a source of characters

A `Parser` reads from a `Cursor` and gives an `Outcome`: the trail of rules that it tried, and, if
it succeeds, a value with the cursor behind what it read. Choice is ordered and repetition is
greedy: `orElse` tries its second parser only where the first fails, and `many` and `optional` keep
what they have read when a further attempt fails, which then counts as not made, except that its
trail stays.
-/

set_option autoImplicit false
set_option relaxedAutoImplicit false

namespace DialogueScript.Syntax

/-- What is left of a source, and the number of characters in front of it. -/
structure Cursor where
  offset : Nat
  rest : List Char
deriving DecidableEq, Repr

/-- The cursor behind the next `n` characters. -/
def Cursor.skip (cursor : Cursor) (n : Nat) : Cursor :=
  ⟨cursor.offset + n, cursor.rest.drop n⟩

/-- What a parser answers. -/
structure Outcome (α : Type) where
  trail : Trail
  result : Option (α × Cursor)

/-- A parser for values of type `α`. -/
def Parser (α : Type) := Cursor → Outcome α

namespace Parser

variable {α β : Type}

/-- Reads nothing. -/
protected def pure (value : α) : Parser α := fun cursor =>
  ⟨.empty, some (value, cursor)⟩

/-- Reads one thing behind another. -/
protected def bind (first : Parser α) (next : α → Parser β) : Parser β := fun cursor =>
  match first cursor with
  | ⟨trail, none⟩ => ⟨trail, none⟩
  | ⟨trail, some (value, behind)⟩ =>
    let outcome := next value behind
    ⟨trail ++ outcome.trail, outcome.result⟩

instance : Monad Parser where
  pure := Parser.pure
  bind := Parser.bind

/-- Reads nothing and fails. -/
def fail : Parser α := fun _ => ⟨.empty, none⟩

/-- Succeeds at the end of the source. -/
def atEnd : Parser Unit := fun cursor =>
  ⟨.empty, if cursor.rest = [] then some ((), cursor) else none⟩

/-- Reads one character of a class. -/
def one (ok : Char → Bool) : Parser Char := fun cursor =>
  match cursor.rest with
  | c :: _ => ⟨.empty, if ok c then some (c, cursor.skip 1) else none⟩
  | [] => ⟨.empty, none⟩

/-- Reads a given character. -/
def char (c : Char) : Parser Unit := do
  let _ ← one (· == c)

/-- Reads as many characters of a class as there are. -/
def span (ok : Char → Bool) : Parser (List Char) := fun cursor =>
  let text := cursor.rest.takeWhile ok
  ⟨.empty, some (text, cursor.skip text.length)⟩

/-- Reads as many characters of a class as there are, and at least one. -/
def span1 (ok : Char → Bool) : Parser (List Char) := do
  let head ← one ok
  let tail ← span ok
  return head :: tail

/-- Reads a word whose letters may be in either case, and gives it as spelled. -/
def keyword (word : List Char) : Parser (List Char) := fun cursor =>
  let text := cursor.rest.take word.length
  ⟨.empty, if text.map Char.toLower = word then some (text, cursor.skip word.length) else none⟩

/-- Reads with the first parser that succeeds. -/
def orElse (first second : Parser α) : Parser α := fun cursor =>
  match first cursor with
  | ⟨trail, none⟩ =>
    let outcome := second cursor
    ⟨trail ++ outcome.trail, outcome.result⟩
  | found => found

/-- Reads with a parser if it succeeds, and otherwise nothing. -/
def optional (parser : Parser α) : Parser (Option α) := fun cursor =>
  match parser cursor with
  | ⟨trail, none⟩ => ⟨trail, some (none, cursor)⟩
  | ⟨trail, some (value, behind)⟩ => ⟨trail, some (some value, behind)⟩

/-- Reads with a parser for as long as it succeeds and gets ahead. -/
def many (parser : Parser α) (cursor : Cursor) : Outcome (List α) :=
  match parser cursor with
  | ⟨trail, none⟩ => ⟨trail, some ([], cursor)⟩
  | ⟨trail, some (value, behind)⟩ =>
    if behind.rest.length < cursor.rest.length then
      let others := many parser behind
      ⟨trail ++ others.trail, others.result.map fun (values, last) => (value :: values, last)⟩
    else ⟨trail, some ([], cursor)⟩
termination_by cursor.rest.length

/-- Reads with a parser as an attempt at a rule. -/
def attempt (rule : Rule) (parser : Parser α) : Parser α := fun cursor =>
  let outcome := parser cursor
  ⟨.tried rule cursor.offset outcome.result.isNone outcome.trail .empty, outcome.result⟩

end Parser

end DialogueScript.Syntax
