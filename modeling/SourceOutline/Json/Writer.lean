import SourceOutline.Number.Shortest
import SourceOutline.Value.Basic

set_option autoImplicit false

/-! Writing values as JSON, in ASCII and without spaces. -/

namespace SourceOutline.Json

def unitEscape (unit : Nat) : String :=
  let digits := Nat.toDigits 16 unit
  "\\u" ++ String.ofList (List.replicate (4 - digits.length) '0' ++ digits)

/-- A character in a text.  What is not printable ASCII is escaped, in two halves if need be. -/
def writeChar (out : String) (c : Char) : String :=
  if c == '"' then out ++ "\\\""
  else if c == '\\' then out ++ "\\\\"
  else if ' ' ≤ c && c ≤ '~' then out.push c
  else if c.toNat < 0x10000 then out ++ unitEscape c.toNat
  else
    let code := c.toNat - 0x10000
    out ++ unitEscape (0xd800 + code / 0x400) ++ unitEscape (0xdc00 + code % 0x400)

def writeText (out : String) (text : String) : String :=
  (text.toList.foldl writeChar (out.push '"')).push '"'

mutual

def writeValue (out : String) : Value → String
  | .null => out ++ "null"
  | .bool value => out ++ (if value then "true" else "false")
  | .integer value => out ++ toString value
  | .real value => out ++ value.text
  | .text value => writeText out value
  | .list items => (writeItems (out.push '[') true items).push ']'
  | .object fields => (writeFields (out.push '{') true fields).push '}'
termination_by structural value => value

def writeItems (out : String) (isFirst : Bool) : List Value → String
  | [] => out
  | item :: rest => writeItems (writeValue (if isFirst then out else out.push ',') item) false rest
termination_by structural items => items

def writeFields (out : String) (isFirst : Bool) : List (String × Value) → String
  | [] => out
  | field :: rest =>
      writeFields (writeField (if isFirst then out else out.push ',') field) false rest
termination_by structural fields => fields

def writeField (out : String) : String × Value → String
  | (key, value) => writeValue ((writeText out key).push ':') value
termination_by structural field => field

end

def render (value : Value) : String :=
  writeValue "" value

end SourceOutline.Json
