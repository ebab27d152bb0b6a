import SourceOutline.Source.Index

set_option autoImplicit false

/-! A source text with the tables of its lines and braces. -/

namespace SourceOutline

structure Source where
  content : String
  text : Array Char
  lines : LineIndex
  braces : BraceMap
  text_eq : text = content.toList.toArray
  lines_eq : lines = .ofText text
  braces_eq : braces = .ofText text

namespace Source

def ofContent (content : String) : Source :=
  let text := content.toList.toArray
  ⟨content, text, .ofText text, .ofText text, rfl, rfl, rfl⟩

def size (source : Source) : Nat :=
  source.text.size

/-- The line an offset is on, counted from one. -/
def lineOf (source : Source) (offset : Nat) : Nat :=
  source.lines.lineOf offset

def lineStart (source : Source) (offset : Nat) : Nat :=
  source.lines.lineStart offset

/-- Line and column of an offset, both counted from one. -/
def position (source : Source) (offset : Nat) : Nat × Nat :=
  (source.lineOf offset, offset - source.lineStart offset + 1)

/-- How many more braces were opened than closed before an offset. -/
def depthAt (source : Source) (offset : Nat) : Int :=
  source.braces.depthAt offset

def blockEnd? (source : Source) (offset : Nat) : Option Nat :=
  source.braces.blockEnd? offset

/-- The offset behind a block, or `otherwise` for a block that is never closed. -/
def blockStop (source : Source) (offset otherwise : Nat) : Nat :=
  (source.blockEnd? offset).elim otherwise (· + 1)

def slice (source : Source) (start stop : Nat) : List Char :=
  (source.text.extract start stop).toList

def sliceText (source : Source) (start stop : Nat) : String :=
  String.ofList (source.slice start stop)

/-- The offset of the next line feed, or of the end of the text. -/
def lineStop (source : Source) (offset : Nat) : Nat :=
  Pattern.spanEnd source.text (· != '\n') (source.size - offset) offset

def matched (source : Source) (found : Match) : List Char :=
  source.slice found.start found.stop

def part? (source : Source) (found : Match) (part : Part) : Option (List Char) :=
  (found.part? part).map fun (start, stop) => source.slice start stop

def part (source : Source) (found : Match) (part : Part) : List Char :=
  (source.part? found part).getD []

end Source

end SourceOutline
