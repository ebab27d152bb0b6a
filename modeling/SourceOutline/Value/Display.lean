import SourceOutline.Number.Shortest
import SourceOutline.Text.Quoted
import SourceOutline.Value.Basic

set_option autoImplicit false

/-! Values as they are shown in messages and log lines: texts as they are at the top and quoted
inside lists and objects. -/

namespace SourceOutline.Value

mutual

def quoted : Value → String
  | .null => "None"
  | .bool value => if value then "True" else "False"
  | .integer value => toString value
  | .real value => value.text
  | .text value => Text.quoted value
  | .list items => "[" ++ ", ".intercalate (quotedItems items) ++ "]"
  | .object fields => "\x7b" ++ ", ".intercalate (quotedFields fields) ++ "\x7d"
termination_by structural value => value

def quotedItems : List Value → List String
  | [] => []
  | item :: rest => quoted item :: quotedItems rest
termination_by structural items => items

def quotedFields : List (String × Value) → List String
  | [] => []
  | (key, value) :: rest => (Text.quoted key ++ ": " ++ quoted value) :: quotedFields rest
termination_by structural fields => fields

end

/-- A value as it stands in a line: a text as it is, anything else as if quoted. -/
def plain : Value → String
  | .text value => value
  | value => value.quoted

end SourceOutline.Value
