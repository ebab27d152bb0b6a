import SourceOutline.Node
import SourceOutline.Recovery

set_option autoImplicit false

/-! What parsing a file gives. -/

namespace SourceOutline

/-- The tree of a file.  A partial tree lacks the declarations of some stretch of the file. -/
structure Parsed where
  tree : Tree
  isPartial : Bool := false

abbrev Parsing := Logged (Except Failure Parsed)

end SourceOutline
