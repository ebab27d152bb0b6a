import SourceOutline.Number.Decimal
import SourceOutline.Value.Basic

set_option autoImplicit false

/-! Reading values from JSON.  A number with a point or an exponent is a real one, any other an
integer, and the fields of an object keep their order. -/

namespace SourceOutline.Json

def isSpace (c : Char) : Bool :=
  c == ' ' || c == '\n' || c == '\t' || c == '\r'

def hexValue (c : Char) : Nat :=
  if c.isDigit then c.toNat - '0'.toNat
  else if 'a' ≤ c && c ≤ 'f' then c.toNat - 'a'.toNat + 10
  else c.toNat - 'A'.toNat + 10

def unitValue (a b c d : Char) : Nat :=
  ((hexValue a * 16 + hexValue b) * 16 + hexValue c) * 16 + hexValue d

/-- The character of a unit, together with the upper half of a pair that came before it. -/
def unitChar (high? : Option Nat) (unit : Nat) : Char :=
  match high? with
  | some high =>
      if 0xdc00 ≤ unit && unit < 0xe000 then
        Char.ofNat (0x10000 + (high - 0xd800) * 0x400 + (unit - 0xdc00))
      else Char.ofNat unit
  | none => Char.ofNat unit

def escapedChar : Char → Char
  | 'n' => '\n'
  | 't' => '\t'
  | 'r' => '\r'
  | 'b' => '\x08'
  | 'f' => '\x0c'
  | c => c

/-- The rest of a text up to its closing quote, and what follows.  The text read so far is in
reverse; `high?` is the upper half of a pair. -/
def readText (text : List Char) (high? : Option Nat) : List Char → Option (String × List Char)
  | [] => none
  | '"' :: rest => some (String.ofList text.reverse, rest)
  | '\\' :: 'u' :: a :: b :: c :: d :: rest =>
      let unit := unitValue a b c d
      if 0xd800 ≤ unit && unit < 0xdc00 then readText text (some unit) rest
      else readText (unitChar high? unit :: text) none rest
  | '\\' :: c :: rest => readText (escapedChar c :: text) none rest
  | c :: rest => readText (c :: text) none rest

def isNumeral (c : Char) : Bool :=
  c.isDigit || c == '+' || c == '-' || c == '.' || c == 'e' || c == 'E'

def numeralValue? (text : List Char) : Option Value :=
  (Number.readDecimal? text).map fun decimal =>
    if text.any fun c => c == '.' || c == 'e' || c == 'E' then .real decimal.toBinary64
    else .integer (if decimal.negative then -(decimal.mantissa : Int) else decimal.mantissa)

def wordValues : List (List Char × Value) :=
  [("true".toList, .bool true), ("false".toList, .bool false), ("null".toList, .null)]

def readScalar (text : List Char) : Option (Value × List Char) :=
  match wordValues.find? fun (word, _) => word.isPrefixOf text with
  | some (word, value) => some (value, text.drop word.length)
  | none =>
      (numeralValue? (text.takeWhile isNumeral)).map fun value =>
        (value, text.dropWhile isNumeral)

mutual

/-- A value at the start of a text, and what follows.  Every step takes a character, so the length
of the text is fuel enough. -/
def readValue : Nat → List Char → Option (Value × List Char)
  | 0, _ => none
  | fuel + 1, text =>
      match text.dropWhile isSpace with
      | '"' :: rest => (readText [] none rest).map fun (read, rest) => (.text read, rest)
      | '[' :: rest => readItems fuel [] rest
      | '{' :: rest => readFields fuel [] rest
      | rest => readScalar rest

def readItems : Nat → List Value → List Char → Option (Value × List Char)
  | 0, _, _ => none
  | fuel + 1, items, text =>
      match text.dropWhile isSpace with
      | ']' :: rest => some (.list items.reverse, rest)
      | ',' :: rest => readItems fuel items rest
      | rest =>
          match readValue fuel rest with
          | some (item, rest) => readItems fuel (item :: items) rest
          | none => none

def readFields : Nat → Fields → List Char → Option (Value × List Char)
  | 0, _, _ => none
  | fuel + 1, fields, text =>
      match text.dropWhile isSpace with
      | '}' :: rest => some (.object fields.reverse, rest)
      | ',' :: rest => readFields fuel fields rest
      | '"' :: rest =>
          match readText [] none rest with
          | some (key, rest) =>
              match rest.dropWhile isSpace with
              | ':' :: rest =>
                  match readValue fuel rest with
                  | some (value, rest) => readFields fuel ((key, value) :: fields) rest
                  | none => none
              | _ => none
          | none => none
      | _ => none

end

def parse? (text : String) : Option Value :=
  let chars := text.toList
  (readValue (chars.length + 1) chars).map Prod.fst

end SourceOutline.Json
