import SourceOutline.Text.Blank
import SourceOutline.Text.Lines
import SourceOutline.Text.Piece

set_option autoImplicit false

/-! Lines of code: those that are neither comments nor directives, and filters on them. -/

namespace SourceOutline.Cpp

/-- Whether a trimmed line holds code: it is not empty, and it starts neither a comment nor a
directive. -/
def isCode (line : List Char) : Bool :=
  !line.isEmpty && !"//".toList.isPrefixOf line && !"#".toList.isPrefixOf line

def codeLines (text : List Char) : List (List Char) :=
  ((Text.lines text).map Text.trim).filter isCode

/-- A line passes a filter if it has one of some pieces and none of some others. -/
structure LineFilter where
  wanted : List String
  unwanted : List String

namespace LineFilter

def hasAny (pieces : List String) (line : List Char) : Bool :=
  pieces.any fun piece => Text.occurs piece.toList line

def accepts (filter : LineFilter) (line : List Char) : Bool :=
  let code := Text.trim line
  isCode code && !hasAny filter.unwanted code && hasAny filter.wanted code

def constructor : LineFilter where
  wanted :=
    [" : ", "\x7b\x7d", "= default", "= delete", "explicit ", "constexpr ", "noexcept", "[["]
  unwanted :=
    ["return ", "if (", "while (", "for (", "switch (", "sizeof(", "typeof(", "decltype(",
      "#define", "#include", "new "]

def destructor : LineFilter where
  wanted := ["virtual ~", "~", "= default", "= delete", "noexcept"]
  unwanted :=
    ["return ", "if (", "while (", "for (", "switch (", "& ~", "| ~", "^ ~", "= ~", "( ~"]

end LineFilter

end SourceOutline.Cpp
