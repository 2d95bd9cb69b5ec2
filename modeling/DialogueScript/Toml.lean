import DialogueScript.Text.Numeral

/-!
# Texts and empty tables in TOML

`Toml.document?` reads a TOML document whose values are texts and tables without entries, and in
which an empty array may stand for such a table. The rows of a document define values or begin a
table, to which the definitions on the rows below belong; there may be comments and blank rows
between them. A value is named by the keys on the way to it, whether they stand in front of it with
dots between them, around it as a table in braces, or above it in brackets.

A key is bare or quoted, and a text is written in one of the four forms of the format: in double
quotes, where a backslash starts an escape, or in single quotes, where it does not, and each on one
row or, in tripled quotes, on several. In the latter, the line feed right behind the opening quotes
does not count, nor does the carriage return of a row that ends in one; and a backslash at the end
of a row drops the space up to the next text.

Values of other kinds, tables in braces with several entries or with tables that are not empty, and
arrays of tables belong to the format but not to this reader.
-/

set_option autoImplicit false
set_option relaxedAutoImplicit false

namespace DialogueScript.Toml

/-- A text that is read, with the characters behind it. -/
abbrev Reading := Option (List Char × List Char)

/-- A character in front of a text. -/
def Reading.cons (c : Char) (reading : Reading) : Reading :=
  reading.map fun (text, rest) => (c :: text, rest)

/-- A space or a tab. -/
def isSpacing (c : Char) : Bool :=
  c == ' ' || c == '\t'

/-- A character that may stand in a comment or a text: any but the controls, the tab apart. -/
def isPlain (c : Char) : Bool :=
  c == '\t' || (0x20 ≤ c.toNat && c.toNat != 0x7F)

/-! ### Texts -/

/-- What a letter behind a backslash stands for. -/
def letterEscape? : Char → Option Char
  | 'b' => some '\x08'
  | 't' => some '\t'
  | 'n' => some '\n'
  | 'f' => some '\x0c'
  | 'r' => some '\r'
  | '"' => some '"'
  | '\\' => some '\\'
  | _ => none

/-- The character with a number in hexadecimal, if it is a scalar value. -/
def scalar? (digits : List Char) : Option Char :=
  (Numeral.hex? digits).bind fun n => if n.isValidChar then some (Char.ofNat n) else none

/-- A character, unless there is none, in front of a text. -/
def consEscape (c : Option Char) (reading : Reading) : Reading :=
  c.bind (reading.cons ·)

/-- The rest of a text in double quotes on one row. -/
def basic : List Char → Reading
  | [] => none
  | '"' :: rest => some ([], rest)
  | '\\' :: 'u' :: a :: b :: c :: d :: rest => consEscape (scalar? [a, b, c, d]) (basic rest)
  | '\\' :: 'U' :: a :: b :: c :: d :: e :: f :: g :: h :: rest =>
    consEscape (scalar? [a, b, c, d, e, f, g, h]) (basic rest)
  | '\\' :: c :: rest => consEscape (letterEscape? c) (basic rest)
  | c :: rest => if isPlain c then (basic rest).cons c else none

/-- The rest of a text in single quotes on one row. -/
def literal : List Char → Reading
  | [] => none
  | '\'' :: rest => some ([], rest)
  | c :: rest => if isPlain c then (literal rest).cons c else none

/-- The end of a text on several rows, if its closing quotes come next: three quotes, in front of
which one or two more belong to the text. -/
def closing (quote : Char) (text : List Char) : Reading :=
  let quotes := text.takeWhile (· == quote)
  if quotes.length < 3 then none
  else some ((quotes.drop 3).take 2, text.drop (min quotes.length 5))

/-- Where a text on several rows is being read. -/
inductive Mode where
  | text
  /-- Behind a backslash, on the same row. -/
  | rowEnd
  /-- Behind a backslash, on a later row. -/
  | skipping
deriving DecidableEq

/-- The rest of a text in tripled double quotes. -/
def multilineBasic (mode : Mode) : List Char → Reading
  | [] => none
  | '\r' :: '\n' :: rest =>
    if mode = .text then (multilineBasic .text rest).cons '\n' else multilineBasic .skipping rest
  | '\n' :: rest =>
    if mode = .text then (multilineBasic .text rest).cons '\n' else multilineBasic .skipping rest
  | c :: rest =>
    if mode ≠ .text ∧ isSpacing c then multilineBasic mode rest
    else if mode = .rowEnd then none
    else if c = '"' then
      (closing '"' (c :: rest)).or ((multilineBasic .text rest).cons c)
    else if c = '\\' then
      match rest with
      | 'u' :: a :: b :: c :: d :: rest =>
        consEscape (scalar? [a, b, c, d]) (multilineBasic .text rest)
      | 'U' :: a :: b :: c :: d :: e :: f :: g :: h :: rest =>
        consEscape (scalar? [a, b, c, d, e, f, g, h]) (multilineBasic .text rest)
      | c :: behind =>
        if isSpacing c ∨ c = '\n' ∨ c = '\r' then multilineBasic .rowEnd (c :: behind)
        else consEscape (letterEscape? c) (multilineBasic .text behind)
      | [] => none
    else if isPlain c then (multilineBasic .text rest).cons c
    else none

/-- The rest of a text in tripled single quotes. -/
def multilineLiteral : List Char → Reading
  | [] => none
  | '\r' :: '\n' :: rest => (multilineLiteral rest).cons '\n'
  | c :: rest =>
    if c = '\'' then (closing c (c :: rest)).or ((multilineLiteral rest).cons c)
    else if c = '\n' ∨ isPlain c then (multilineLiteral rest).cons c
    else none

/-- A text without the line ending at its beginning. -/
def dropLineEnding : List Char → List Char
  | '\n' :: rest => rest
  | '\r' :: '\n' :: rest => rest
  | text => text

/-- A text in any of the four forms. -/
def text : List Char → Reading
  | '"' :: '"' :: '"' :: rest => multilineBasic .text (dropLineEnding rest)
  | '\'' :: '\'' :: '\'' :: rest => multilineLiteral (dropLineEnding rest)
  | '"' :: rest => basic rest
  | '\'' :: rest => literal rest
  | _ => none

/-! ### Keys -/

/-- A name in a table. -/
abbrev Key := List Char

/-- A character of a bare key. -/
def isBareKey (c : Char) : Bool :=
  c.isAlphanum || c == '-' || c == '_'

/-- A key, which is bare or a quoted text on one row. -/
def key : List Char → Reading
  | '"' :: rest => basic rest
  | '\'' :: rest => literal rest
  | text =>
    match text.takeWhile isBareKey with
    | [] => none
    | name => some (name, text.dropWhile isBareKey)

/-- Keys with dots between them and perhaps space around the dots. The characters behind them are
those behind the last one's space. -/
def keys (text : List Char) : Option (List Key × List Char) :=
  match key text with
  | none => none
  | some (name, rest) =>
    match rest.dropWhile isSpacing with
    | '.' :: behind =>
      let behind := behind.dropWhile isSpacing
      if behind.length < text.length then
        (keys behind).map fun (names, rest) => (name :: names, rest)
      else none
    | rest => some ([name], rest)
termination_by text.length

/-! ### Values -/

/-- A value that this reader knows. -/
inductive Value where
  | text (content : List Char)
  /-- A table or an array without entries. -/
  | empty
deriving DecidableEq, Repr

/-- A value with the keys on the way to it. -/
structure Definition where
  path : List Key
  value : Value
deriving DecidableEq, Repr

/-- The characters behind space, line endings and comments. -/
def dropRows (inComment : Bool) : List Char → List Char
  | '\r' :: '\n' :: rest => dropRows false rest
  | '\n' :: rest => dropRows false rest
  | c :: rest =>
    if inComment && isPlain c then dropRows true rest
    else if inComment then c :: rest
    else if isSpacing c then dropRows false rest
    else if c = '#' then dropRows true rest
    else c :: rest
  | [] => []

/-- A value that has no key within. -/
def plainValue (row : List Char) : Option (Value × List Char) :=
  match row with
  | '\x7b' :: rest =>
    match rest.dropWhile isSpacing with
    | '\x7d' :: rest => some (.empty, rest)
    | _ => none
  | '[' :: rest =>
    match dropRows false rest with
    | ']' :: rest => some (.empty, rest)
    | _ => none
  | row => (text row).map fun (content, rest) => (.text content, rest)

/-- Keys and a plain value with an equals sign between them. -/
def plainDefinition (row : List Char) : Option (Definition × List Char) := do
  let (path, rest) ← keys row
  match rest with
  | '=' :: rest =>
    let (value, rest) ← plainValue (rest.dropWhile isSpacing)
    return (⟨path, value⟩, rest)
  | _ => none

/-- A value, and the keys that stand within it if it is a table in braces. -/
def value (row : List Char) : Option (Definition × List Char) :=
  match plainValue row, row with
  | some (value, rest), _ => some (⟨[], value⟩, rest)
  | none, '\x7b' :: rest => do
    let (entry, rest) ← plainDefinition (rest.dropWhile isSpacing)
    match rest.dropWhile isSpacing with
    | '\x7d' :: rest => return (entry, rest)
    | _ => none
  | none, _ => none

/-- Keys and a value with an equals sign between them. -/
def definition (row : List Char) : Option (Definition × List Char) := do
  let (path, rest) ← keys row
  match rest with
  | '=' :: rest =>
    let (inner, rest) ← value (rest.dropWhile isSpacing)
    return (⟨path ++ inner.path, inner.value⟩, rest)
  | _ => none

/-! ### Documents -/

/-- What stands on a row. -/
inductive Row where
  | definition (definition : Definition)
  /-- The beginning of a table. -/
  | header (path : List Key)
deriving DecidableEq, Repr

/-- A row up to its end. -/
def row (text : List Char) : Option (Row × List Char) :=
  match text with
  | '[' :: rest =>
    match keys (rest.dropWhile isSpacing) with
    | some (path, ']' :: rest) => some (.header path, rest)
    | _ => none
  | text => (definition text).map fun (definition, rest) => (.definition definition, rest)

/-- The characters behind the end of a row, in front of which there may be space and a comment. -/
def rowEnd? (row : List Char) : Option (List Char) :=
  let row := row.dropWhile isSpacing
  let row := if row.head? = some '#' then row.dropWhile isPlain else row
  match row with
  | [] => some []
  | '\n' :: rest => some rest
  | '\r' :: '\n' :: rest => some rest
  | _ => none

/-- The rows of a document. -/
def rows? (document : List Char) : Option (List Row) :=
  let text := document.dropWhile isSpacing
  if text.isEmpty then some []
  else
    match rowEnd? text with
    | some rest => if rest.length < document.length then rows? rest else none
    | none =>
      match row text with
      | none => none
      | some (row, rest) =>
        match rowEnd? rest with
        | none => none
        | some rest =>
          if rest.length < document.length then (rows? rest).map (row :: ·) else none
termination_by document.length

/-- The definitions below a header. -/
structure Table where
  path : List Key
  definitions : List Definition
deriving DecidableEq, Repr

/-- The definitions of a document and its tables, in their order. -/
structure Document where
  definitions : List Definition
  tables : List Table
deriving DecidableEq, Repr

/-- A document with a row in front. -/
def Document.add (row : Row) (document : Document) : Document :=
  match row with
  | .definition definition => { document with definitions := definition :: document.definitions }
  | .header path => ⟨[], ⟨path, document.definitions⟩ :: document.tables⟩

/-- A document. -/
def document? (text : List Char) : Option Document :=
  (rows? text).map fun rows => rows.foldr Document.add ⟨[], []⟩

end DialogueScript.Toml
