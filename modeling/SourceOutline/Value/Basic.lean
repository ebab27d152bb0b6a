import SourceOutline.Number.Binary64

set_option autoImplicit false

/-! Values as settings give them and as metadata, log entries and answers hold them.

An object keeps its fields in the order in which their keys first came, and a key has one value. -/

namespace SourceOutline

inductive Value where
  | null
  | bool (value : Bool)
  | integer (value : Int)
  | real (value : Binary64)
  | text (value : String)
  | list (items : List Value)
  | object (fields : List (String × Value))
deriving Inhabited

abbrev Fields := List (String × Value)

namespace Fields

def get? (fields : Fields) (key : String) : Option Value :=
  fields.lookup key

/-- Give `key` a value: in its place if it has one already, at the end otherwise. -/
def put (key : String) (value : Value) : Fields → Fields
  | [] => [(key, value)]
  | (present, old) :: rest =>
      if present == key then (present, value) :: rest else (present, old) :: put key value rest

def putNew (key : String) (value : Value) (fields : Fields) : Fields :=
  if (fields.get? key).isSome then fields else fields.put key value

def putAll (fields later : Fields) : Fields :=
  later.foldl (fun fields (key, value) => fields.put key value) fields

def without (keys : List String) (fields : Fields) : Fields :=
  fields.filter fun (key, _) => !keys.contains key

def text? (fields : Fields) (key : String) : Option String :=
  match fields.get? key with
  | some (.text text) => some text
  | _ => none

def when (present : Bool) (key : String) (value : Value) : Fields :=
  if present then [(key, value)] else []

end Fields

namespace Value

def ofChars (chars : List Char) : Value :=
  .text (String.ofList chars)

def texts (items : List String) : Value :=
  .list (items.map .text)

def count (number : Nat) : Value :=
  .integer number

def ofText? : Option String → Value
  | some given => .text given
  | none => .null

/-- Whether a value counts as given: not nothing, not false, not zero and not empty. -/
def isGiven : Value → Bool
  | .null => false
  | .bool value => value
  | .integer value => value != 0
  | .real (.finite _ ticks) => ticks != 0
  | .real _ => true
  | .text value => !value.isEmpty
  | .list items => !items.isEmpty
  | .object fields => !fields.isEmpty

end Value

end SourceOutline
