import SourceOutline.Config.Basic
import SourceOutline.Node
import SourceOutline.Text.Utf8

set_option autoImplicit false

/-! Concrete syntax trees as a C++ grammar gives them, and their conversion.

Conversion keeps the shape of a tree down to a depth at which every node stands for all that is
below it.  It goes through the tree with a list of what is still to be done, so that the depth of
a tree costs no stack. -/

namespace SourceOutline.Cpp

/-- A place in a file: row and column in bytes, both counted from zero. -/
structure Point where
  row : Int
  column : Int
deriving DecidableEq, Repr, Inhabited

/-- What a grammar tells of a node.  Nothing is assumed of its byte range. -/
structure ConcreteLabel where
  kind : String
  startByte : Int
  endByte : Int
  start : Point
  stop : Point
deriving DecidableEq, Repr, Inhabited

inductive ConcreteNode where
  | node (label : ConcreteLabel) (children : List ConcreteNode)
deriving Inhabited

namespace ConcreteNode

mutual

def count : ConcreteNode → Nat
  | .node _ children => countAll children + 1
termination_by structural node => node

def countAll : List ConcreteNode → Nat
  | [] => 0
  | child :: rest => count child + countAll rest
termination_by structural children => children

end

end ConcreteNode

structure ConcreteTree where
  root : ConcreteNode
  hasError : Bool

/-- What becomes of loading a grammar and, if it can be loaded, of parsing a file with it. -/
inductive Grammar where
  | unavailable (reason : String)
  | withoutHandle
  | ready (tree : Option ConcreteTree)

/-- The text of a byte range; a range that does not lie in the file has none. -/
def textOfBytes (bytes : Array UInt8) (start stop : Int) : String :=
  if 0 ≤ start ∧ start ≤ stop ∧ stop ≤ bytes.size then
    String.ofList (Text.decodeUtf8 (bytes.extract start.toNat stop.toNat).toList)
  else ""

def byteRange (label : ConcreteLabel) : String :=
  toString label.startByte ++ "-" ++ toString label.endByte

def convertLabel (bytes : Array UInt8) (label : ConcreteLabel) : Label where
  id := "node-" ++ byteRange label
  tag := label.kind
  value := textOfBytes bytes label.startByte label.endByte
  span :=
    ⟨label.start.row + 1, label.start.column + 1, label.stop.row + 1, label.stop.column + 1⟩

/-- The node that stands for all that is too deep. -/
def truncatedLabel (depth : Nat) (label : ConcreteLabel) : Label where
  id := "truncated-node-" ++ byteRange label
  tag := label.kind ++ "_truncated"
  value := "// Truncated at depth " ++ toString depth

/-- A concrete node that is still to be converted, its depth, and the number of the node it goes
below. -/
structure Pending where
  node : ConcreteNode
  depth : Nat
  parent : Nat

/-- A node that was made, and the number of the node it was put below.  Nodes are numbered in the
order in which they are made; the root has number zero and is below none. -/
structure Made where
  label : Label
  parent : Nat

def pendingAt (depth parent : Nat) (children : List ConcreteNode) : List Pending :=
  children.map (⟨·, depth, parent⟩)

def pendingCount : List Pending → Nat
  | [] => 0
  | next :: rest => next.node.count + pendingCount rest

theorem pendingCount_append (left right : List Pending) :
    pendingCount (left ++ right) = pendingCount left + pendingCount right := by
  induction left with
  | nil => simp [pendingCount]
  | cons next rest ih => simp [pendingCount, ih, Nat.add_assoc]

theorem pendingCount_pendingAt (depth parent : Nat) (children : List ConcreteNode) :
    pendingCount (pendingAt depth parent children) = ConcreteNode.countAll children := by
  induction children with
  | nil => rfl
  | cons child rest ih =>
      exact congrArg (child.count + ·) ih

/-- Convert what is pending, one node after the other; the children of a node come right behind
it. -/
def convertPending (bytes : Array UInt8) : List Pending → Array Made → Array Made
  | [], made => made
  | ⟨.node label children, depth, parent⟩ :: rest, made =>
      if Config.treeDepthLimit ≤ depth then
        convertPending bytes rest (made.push ⟨truncatedLabel depth label, parent⟩)
      else
        convertPending bytes (pendingAt (depth + 1) (made.size + 1) children ++ rest)
          (made.push ⟨convertLabel bytes label, parent⟩)
termination_by pending => pendingCount pending
decreasing_by
  · simp only [pendingCount, ConcreteNode.count]
    omega
  · simp only [pendingCount, ConcreteNode.count, pendingCount_append, pendingCount_pendingAt]
    omega

def Made.attach (made : Made × Nat) (below : Array (List Node)) : Array (List Node) :=
  let own := below.getD made.2 []
  below.modify made.1.parent (.node made.1.label own :: ·)

/-- The children of the root.  Every node was made before those below it, so going from the last
node to the first all that is below a node is there when its turn comes. -/
def childrenOfRoot (made : Array Made) : List Node :=
  ((made.zipIdx 1).foldr Made.attach (Array.replicate (made.size + 1) [])).getD 0 []

structure Converted where
  root : Node
  count : Nat

def convert (content : String) : ConcreteNode → Converted
  | .node label children =>
      let bytes := content.toUTF8.data
      let made := convertPending bytes (pendingAt 1 0 children) #[]
      ⟨.node (convertLabel bytes label) (childrenOfRoot made), made.size + 1⟩

end SourceOutline.Cpp
