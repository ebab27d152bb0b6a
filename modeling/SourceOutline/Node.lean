import SourceOutline.Value.Basic

set_option autoImplicit false

/-! Trees of declarations, the same for every language. -/

namespace SourceOutline

/-- A stretch of a file.  Lines and columns count from one; the end column is the first one behind
the stretch. -/
structure Span where
  line : Int
  column : Int
  endLine : Int
  endColumn : Int
deriving DecidableEq, Repr, Inhabited

/-- The span of nodes that stand for no particular text. -/
def Span.origin : Span := ⟨1, 1, 1, 1⟩

def Span.startsBefore (left right : Span) : Bool :=
  left.line < right.line || (left.line == right.line && left.column < right.column)

/-- What a node says of itself: its identifier, its type, the text it covers, where that text
stands, and what else is known of it. -/
structure Label where
  id : String
  tag : String
  value : String
  span : Span := .origin
  metadata : Fields := []
deriving Inhabited

/-- A tree of labelled nodes.  A tree built by hand may have places without a node. -/
inductive Node where
  | missing
  | node (label : Label) (children : List Node)
deriving Inhabited

namespace Node

def isMissing : Node → Bool
  | .missing => true
  | .node _ _ => false

def label? : Node → Option Label
  | .missing => none
  | .node label _ => some label

def children : Node → List Node
  | .missing => []
  | .node _ children => children

def tag : Node → String
  | .missing => ""
  | .node label _ => label.tag

def value : Node → String
  | .missing => ""
  | .node label _ => label.value

def span : Node → Span
  | .missing => .origin
  | .node label _ => label.span

def metadata : Node → Fields
  | .missing => []
  | .node label _ => label.metadata

mutual

/-- A node and all below it, every node before its children and these in order. -/
def preorder : Node → List Node
  | .missing => [.missing]
  | .node label children => .node label children :: preorderAll children
termination_by structural node => node

def preorderAll : List Node → List Node
  | [] => []
  | child :: rest => preorder child ++ preorderAll rest
termination_by structural children => children

end

mutual

def count : Node → Nat
  | .missing => 1
  | .node _ children => countAll children + 1
termination_by structural node => node

def countAll : List Node → Nat
  | [] => 0
  | child :: rest => count child + countAll rest
termination_by structural children => children

end

def findChild? (tags : List String) (node : Node) : Option Node :=
  node.children.find? fun child => tags.contains child.tag

/-- Nodes in the order in which their texts start, those that start together in the given order. -/
def inSourceOrder (nodes : List Node) : List Node :=
  nodes.mergeSort fun left right => !right.span.startsBefore left.span

def withMetadata (change : Fields → Fields) : Node → Node
  | .missing => .missing
  | .node label children => .node { label with metadata := change label.metadata } children

end Node

/-- The tree of a file, with the text it was made from and the digest of that text. -/
structure Tree where
  language : String
  content : String
  hash : String
  root : Node
  path : String
  version : String := "1.0"
deriving Inhabited

end SourceOutline
