import SourceOutline.Swift.Pattern
import SourceOutline.Value.Basic

set_option autoImplicit false

/-! Access levels and attributes of Swift declarations. -/

namespace SourceOutline.Swift

def textsFound (pattern : Pattern) (text : List Char) : List String :=
  let chars := text.toArray
  (pattern.findAll chars).map fun found =>
    String.ofList (chars.extract found.start found.stop).toList

/-- The access levels, the widest one first. -/
def accessLevels : List String :=
  ["open", "public", "package", "internal", "fileprivate", "private"]

def accessLevel (modifiers : List Char) : String :=
  let words := textsFound Pattern.word modifiers
  (accessLevels.find? words.contains).getD "internal"

def visibilityFor? (level : String) : Option String :=
  [("open", "public"), ("public", "public"), ("fileprivate", "private"),
    ("private", "private")].lookup level

def visibility? (modifiers : List Char) : Option String :=
  visibilityFor? (accessLevel modifiers)

def accessFields (modifiers : List Char) : Fields :=
  [("visibility", .ofText? (visibility? modifiers)),
    ("access_level", .text (accessLevel modifiers))]

def attributeNames (text : List Char) : List String :=
  textsFound attributeName text

end SourceOutline.Swift
