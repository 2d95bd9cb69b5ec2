/-!
# JSON values

`Json` is a value of the JSON data model. The fields of an object stand in a list, in the order in
which they are written. Integers are kept apart from numbers with decimal places, since only the
former have a place in a script.
-/

set_option autoImplicit false
set_option relaxedAutoImplicit false

namespace DialogueScript

/-- A JSON value. -/
inductive Json where
  | null
  | bool (value : Bool)
  | integer (value : Int)
  /-- A number with decimal places, as an integer divided by a power of ten. -/
  | decimal (mantissa : Int) (places : Nat)
  | string (value : String)
  | array (elements : List Json)
  | object (fields : List (String × Json))
deriving Inhabited, Repr

namespace Json

/-- The fields of an object. -/
def fields? : Json → Option (List (String × Json))
  | object fields => some fields
  | _ => none

/-- The elements of an array. -/
def elements? : Json → Option (List Json)
  | array elements => some elements
  | _ => none

/-- The content of a string. -/
def string? : Json → Option String
  | string value => some value
  | _ => none

/-- An integer that fits into 16 bits with a sign. -/
def int16? : Json → Option Int16
  | integer value =>
    if -32768 ≤ value ∧ value ≤ 32767 then some (Int16.ofInt value) else none
  | _ => none

/-- A case of a union: its name, and what it carries, which is nothing where the name stands alone
as a string. -/
def variant? : Json → Option (String × Option Json)
  | string name => some (name, none)
  | object [(name, payload)] => some (name, some payload)
  | _ => none

/-- Whether a case carries nothing, or nothing but a null. -/
def isUnit : Option Json → Bool
  | none => true
  | some null => true
  | some _ => false

end Json

end DialogueScript
