import SourceOutline.Pattern.Build
import SourceOutline.Value.Basic

set_option autoImplicit false

/-! Features of a language, told from how often patterns occur in a file. -/

namespace SourceOutline

structure Feature where
  name : String
  pattern : Pattern

/-- A flag that sums up several features. -/
structure FeatureGroup where
  flag : String
  members : List String

namespace Feature

def counts (features : List Feature) (text : Array Char) : List (String × Nat) :=
  features.map fun feature => (feature.name, feature.pattern.count text)

/-- The flag of a group and the counts of its members that are used, if any is. -/
def groupFields (counts : List (String × Nat)) (group : FeatureGroup) : Fields :=
  let used := group.members.filterMap fun member =>
    match counts.lookup member with
    | some (count + 1) => some (member ++ "_count", Value.count (count + 1))
    | _ => none
  if used.isEmpty then [] else (group.flag, .bool true) :: used

def report (features : List Feature) (groups : List FeatureGroup) (text : Array Char) : Fields :=
  let counts := counts features text
  Fields.putAll [] (groups.flatMap (groupFields counts))

end Feature

end SourceOutline
