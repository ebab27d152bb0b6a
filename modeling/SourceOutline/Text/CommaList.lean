set_option autoImplicit false

/-! Lists written with commas.  A comma separates two items unless a bracket is open before it;
round, square, curly and angle brackets all count, whether or not they match. -/

namespace SourceOutline.Text

def opensBracket (c : Char) : Bool :=
  c == '(' || c == '[' || c == '{' || c == '<'

def closesBracket (c : Char) : Bool :=
  c == ')' || c == ']' || c == '}' || c == '>'

structure ListItem where
  offset : Nat
  text : List Char
deriving DecidableEq, Repr

/-- The items of the rest of a list, given the open brackets so far, the offset of the open item
and its characters in reverse. -/
def commaItemsFrom (depth : Int) (offset : Nat) (item : List Char) : List Char → List ListItem
  | [] => [⟨offset, item.reverse⟩]
  | c :: rest =>
      if opensBracket c then commaItemsFrom (depth + 1) offset (c :: item) rest
      else if closesBracket c then commaItemsFrom (depth - 1) offset (c :: item) rest
      else if c == ',' && depth == 0 then
        ⟨offset, item.reverse⟩ :: commaItemsFrom 0 (offset + item.length + 1) [] rest
      else commaItemsFrom depth offset (c :: item) rest

/-- The items of a comma list, separators left out and blanks kept. -/
def commaItems (text : List Char) : List ListItem :=
  commaItemsFrom 0 0 [] text

end SourceOutline.Text
