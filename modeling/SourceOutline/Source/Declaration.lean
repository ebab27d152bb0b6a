import SourceOutline.Node
import SourceOutline.Source.Basic

set_option autoImplicit false

/-! The nodes of declarations in a source text. -/

namespace SourceOutline.Source

/-- The span of the text between two offsets.  A span has at least one column. -/
def spanOf (source : Source) (start stop : Nat) : Span :=
  let (line, column) := source.position start
  let (endLine, endColumn) := source.position (max start (stop - 1))
  ⟨line, column, endLine, endColumn + 1⟩

def skipBlanks (source : Source) (start stop : Nat) : Nat :=
  Pattern.spanEnd source.text Text.isBlank (stop - start) start

/-- The node for the text between two offsets, leading blanks left out. -/
def declaration (source : Source) (tag : String) (start stop : Nat) (metadata : Fields)
    (children : List Node := []) : Node :=
  let start := source.skipBlanks start stop
  let span := source.spanOf start stop
  .node
    { id := tag ++ "-" ++ toString span.line ++ "-" ++ toString span.column
      tag := tag
      value := source.sliceText start stop
      span := span
      metadata := metadata }
    children

def compilationUnit (source : Source) (id : String) (metadata : Fields)
    (declarations : List Node) : Node :=
  let (endLine, endColumn) := source.position source.size
  .node
    { id := id
      tag := "compilation_unit"
      value := source.content
      span := ⟨1, 1, endLine, endColumn⟩
      metadata := metadata }
    (Node.inSourceOrder declarations)

end SourceOutline.Source
