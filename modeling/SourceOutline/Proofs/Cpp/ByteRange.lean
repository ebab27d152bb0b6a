import SourceOutline.Proofs.Cpp.Truncation
import SourceOutline.Proofs.Text.Utf8

set_option autoImplicit false

/-! The texts of byte ranges.

A range whose ends fall between characters has the bytes of a part of the file, and reading them
gives this part and nothing else.  Parts that follow one another make up a longer one, so the texts
of children that fill the range of a node make up the text of the node.  Any other range is
converted too; one that does not lie in the file has no text. -/

namespace SourceOutline

/-- The node that a way leads to, which tells at each node the child to go on with. -/
def Node.at? (root : Node) : List Nat → Option Node
  | [] => some root
  | place :: way => root.children[place]?.bind fun child => child.at? way

private theorem Node.at?_withMetadata {root node : Node} {way : List Nat}
    (found : root.at? way = some node) (change : Fields → Fields) :
    ∃ same, (root.withMetadata change).at? way = some same ∧ same.value = node.value ∧
      same.children = node.children := by
  cases way with
  | nil =>
      cases found
      refine ⟨_, rfl, ?_, Cpp.withMetadata_children change root⟩
      cases root <;> rfl
  | cons place way =>
      refine ⟨node, ?_, rfl, rfl⟩
      rw [Node.at?, Cpp.withMetadata_children]
      exact found

namespace Cpp

def ConcreteNode.label : ConcreteNode → ConcreteLabel
  | .node label _ => label

def ConcreteNode.at? (root : ConcreteNode) : List Nat → Option ConcreteNode
  | [] => some root
  | place :: way => root.children[place]?.bind fun child => child.at? way

/-! ### Parts of a text -/

/-- A byte offset falls between two characters, before the first or behind the last one. -/
def IsBoundary (content : String) (offset : Int) : Prop :=
  ∃ front rest, content = front ++ rest ∧ offset = front.utf8ByteSize

/-- A text is the part of the content from one byte offset up to another. -/
def IsPart (content : String) (start stop : Int) (text : String) : Prop :=
  ∃ before after, content = before ++ text ++ after ∧ start = before.utf8ByteSize ∧
    stop = (before ++ text).utf8ByteSize

/-- Of two fronts of a text, the one with fewer bytes begins the other. -/
theorem exists_between {front rest other remaining : String}
    (same : front ++ rest = other ++ remaining)
    (shorter : front.utf8ByteSize ≤ other.utf8ByteSize) :
    ∃ middle, other = front ++ middle ∧ rest = middle ++ remaining := by
  have chars := congrArg String.toList same
  rw [String.toList_append, String.toList_append] at chars
  rcases List.append_eq_append_iff.mp chars with ⟨middle, longer, behind⟩ | ⟨middle, longer, behind⟩
  · refine ⟨String.ofList middle, ?_, ?_⟩
    · rw [← String.toList_inj, String.toList_append, String.toList_ofList, longer]
    · rw [← String.toList_inj, String.toList_append, String.toList_ofList, behind]
  · -- the front has no more bytes than the other, so it has no more characters
    have begins : front = other ++ String.ofList middle := by
      rw [← String.toList_inj, String.toList_append, String.toList_ofList, longer]
    have size := congrArg String.utf8ByteSize begins
    rw [String.utf8ByteSize_append] at size
    have empty : String.ofList middle = "" := String.utf8ByteSize_eq_zero_iff.mp (by omega)
    rw [empty, String.append_empty] at begins
    refine ⟨"", by rw [begins, String.append_empty], ?_⟩
    rw [begins] at same
    rw [String.empty_append]
    exact (String.append_right_inj other).mp same

private theorem exists_isPart {content : String} {start stop : Int}
    (first : IsBoundary content start) (last : IsBoundary content stop) (forward : start ≤ stop) :
    ∃ text, IsPart content start stop text := by
  obtain ⟨before, rest, split, startSize⟩ := first
  obtain ⟨front, after, otherSplit, stopSize⟩ := last
  obtain ⟨text, longer, _⟩ := exists_between (split.symm.trans otherSplit) (by omega)
  rw [longer] at otherSplit stopSize
  exact ⟨text, before, after, otherSplit, startSize, stopSize⟩

namespace IsPart

variable {content left right : String} {start middle stop : Int}

private theorem append (first : IsPart content start middle left)
    (second : IsPart content middle stop right) : IsPart content start stop (left ++ right) := by
  obtain ⟨before, after, split, startSize, size⟩ := first
  obtain ⟨front, behind, otherSplit, otherSize, stopSize⟩ := second
  rw [String.append_assoc] at otherSplit
  obtain ⟨gap, longer, _⟩ := exists_between (split.symm.trans otherSplit) (by omega)
  have empty : gap = "" := by
    have bytes := congrArg String.utf8ByteSize longer
    rw [String.utf8ByteSize_append] at bytes
    exact String.utf8ByteSize_eq_zero_iff.mp (by omega)
  rw [empty, String.append_empty] at longer
  rw [longer] at otherSplit stopSize
  refine ⟨before, behind, ?_, startSize, ?_⟩
  · rw [otherSplit]
    simp only [String.append_assoc]
  · rw [stopSize, String.append_assoc]

/-- The text that is read from the bytes of a part is the part. -/
theorem textOfBytes_eq (part : IsPart content start stop left) :
    textOfBytes content.toUTF8.data start stop = left := by
  obtain ⟨before, after, split, startSize, stopSize⟩ := part
  have bytes : content.toUTF8.data =
      before.toUTF8.data ++ (left.toUTF8.data ++ after.toUTF8.data) := by
    rw [split]
    simp only [String.toUTF8_eq_toByteArray, String.toByteArray_append, ByteArray.data_append,
      Array.append_assoc]
  have beforeSize : before.toUTF8.data.size = before.utf8ByteSize := rfl
  have ownSize : left.toUTF8.data.size = left.utf8ByteSize := rfl
  rw [String.utf8ByteSize_append] at stopSize
  have within : 0 ≤ start ∧ start ≤ stop ∧ stop ≤ content.toUTF8.data.size := by
    rw [bytes, Array.size_append, Array.size_append]
    omega
  have range : content.toUTF8.data.extract start.toNat stop.toNat = left.toUTF8.data := by
    rw [bytes, show start.toNat = before.toUTF8.data.size by omega,
      show stop.toNat = before.toUTF8.data.size + left.toUTF8.data.size by omega,
      Array.extract_append_right, Array.extract_append_left, Array.extract_size]
  rw [textOfBytes, if_pos within, range, Text.decodeUtf8_toUTF8, String.ofList_toList]

end IsPart

private theorem textOfBytes_self (bytes : Array UInt8) (offset : Int) :
    textOfBytes bytes offset offset = "" := by
  unfold textOfBytes
  split
  · rw [Array.extract_eq_empty_of_le (by omega)]
    rfl
  · rfl

/-! ### Ranges of nodes -/

structure ConcreteLabel.IsAligned (content : String) (label : ConcreteLabel) : Prop where
  start : IsBoundary content label.startByte
  stop : IsBoundary content label.endByte
  forward : label.startByte ≤ label.endByte

/-- The ranges of aligned nodes follow one another from one offset to another. -/
def FillRange (content : String) : Int → List ConcreteNode → Int → Prop
  | start, [], stop => start = stop
  | start, child :: rest, stop =>
      child.label.startByte = start ∧ child.label.IsAligned content ∧
        FillRange content child.label.endByte rest stop

def ConcreteNode.text (content : String) (node : ConcreteNode) : String :=
  textOfBytes content.toUTF8.data node.label.startByte node.label.endByte

private theorem ConcreteLabel.IsAligned.isPart {content : String} {label : ConcreteLabel}
    (aligned : label.IsAligned content) :
    IsPart content label.startByte label.endByte
      (textOfBytes content.toUTF8.data label.startByte label.endByte) := by
  obtain ⟨text, part⟩ := exists_isPart aligned.start aligned.stop aligned.forward
  rw [part.textOfBytes_eq]
  exact part

private theorem FillRange.isPart {content : String} {start stop : Int}
    {children : List ConcreteNode}
    (fill : FillRange content start children stop) (first : IsBoundary content start) :
    IsPart content start stop (String.join (children.map (ConcreteNode.text content))) := by
  induction children generalizing start with
  | nil =>
      obtain ⟨front, rest, split, size⟩ := first
      obtain rfl : start = stop := fill
      exact ⟨front, rest, by rw [split]; simp, size, by rw [size]; simp⟩
  | cons child others ih =>
      obtain ⟨rfl, aligned, behind⟩ := fill
      rw [List.map_cons, String.join_cons]
      exact aligned.isPart.append (ih behind aligned.stop)

private theorem FillRange.join_texts {content : String} {start stop : Int}
    {children : List ConcreteNode} (fill : FillRange content start children stop) :
    String.join (children.map (ConcreteNode.text content)) =
      textOfBytes content.toUTF8.data start stop := by
  cases children with
  | nil =>
      obtain rfl : start = stop := fill
      rw [textOfBytes_self, List.map_nil, String.join_nil]
  | cons child others =>
      have first : IsBoundary content start := by
        rw [← fill.1]
        exact fill.2.1.start
      exact ((fill.isPart first).textOfBytes_eq).symm

/-! ### Nodes of a file -/

private theorem truncation_at? (bytes : Array UInt8) (way : List Nat) :
    ∀ (depth : Nat) (root : ConcreteNode), depth + way.length ≤ 1000 →
      (truncation bytes depth root).at? way =
        (root.at? way).map (truncation bytes (depth + way.length)) := by
  induction way with
  | nil =>
      intro depth root _
      rfl
  | cons place way ih =>
      rintro depth ⟨label, children⟩ shallow
      rw [List.length_cons] at shallow ⊢
      rw [truncation_kept (by omega), Node.at?, Node.children, ConcreteNode.at?,
        ConcreteNode.children, List.getElem?_map]
      cases children[place]? with
      | none => rfl
      | some child =>
          have below := ih (depth + 1) child (by omega)
          rw [show depth + 1 + way.length = depth + (way.length + 1) by omega] at below
          exact below

/-- A file has a node at each place where the concrete tree has one, down to the depth at which it
is truncated. -/
theorem assemble_at? (config : Config) (fault : Option String) (content path : String)
    (context : Option Context) (tree : ConcreteTree) {way : List Nat} {concrete : ConcreteNode}
    (shallow : way.length ≤ 1000) (found : tree.root.at? way = some concrete) :
    ∃ node,
      (assemble config fault content path context tree).value.tree.root.at? way = some node ∧
      node.value = (truncation content.toUTF8.data way.length concrete).value ∧
      node.children = (truncation content.toUTF8.data way.length concrete).children := by
  have converted : (convert content tree.root).root.at? way =
      some (truncation content.toUTF8.data way.length concrete) := by
    rw [convert_root_eq, truncation_at? _ way 0 tree.root (by omega), found, Nat.zero_add]
    rfl
  obtain ⟨node, described, value, children⟩ := Node.at?_withMetadata converted (·.putAll
    [("parser", .text "tree-sitter"), ("node_count", .count (convert content tree.root).count),
      ("has_syntax_errors", .bool tree.hasError)])
  obtain ⟨change, told, _⟩ := withFeatures_eq config fault content context
    ((convert content tree.root).root.withMetadata (·.putAll
      [("parser", .text "tree-sitter"), ("node_count", .count (convert content tree.root).count),
        ("has_syntax_errors", .bool tree.hasError)]))
  obtain ⟨last, finished, sameValue, sameChildren⟩ := Node.at?_withMetadata described change
  refine ⟨last, ?_, sameValue.trans value, sameChildren.trans children⟩
  unfold assemble
  dsimp only
  rw [told]
  exact finished

private theorem truncation_value {depth : Nat} (kept : depth < 1000) (content : String)
    (concrete : ConcreteNode) :
    (truncation content.toUTF8.data depth concrete).value = concrete.text content := by
  obtain ⟨label, children⟩ := concrete
  rw [truncation_kept kept]
  rfl

private theorem truncation_children_values {depth : Nat} (kept : depth + 1 < 1000)
    (content : String) (concrete : ConcreteNode) :
    (truncation content.toUTF8.data depth concrete).children.map Node.value =
      concrete.children.map (ConcreteNode.text content) := by
  obtain ⟨label, children⟩ := concrete
  rw [truncation_kept (Nat.lt_of_succ_lt kept), Node.children, ConcreteNode.children,
    List.map_map]
  apply List.map_congr_left
  intro child _
  exact truncation_value kept content child

/-- Parsing is not refused: there is a tree, the content passes, and a timeout is not enforced. -/
structure IsAccepted (config : Config) (surroundings : Surroundings) (content path : String)
    (context : Option Context) (tree : ConcreteTree) : Prop where
  given : surroundings.grammar = .ready (some tree)
  checked : checkContent config.cpp content path context = .ok ()
  inTime : (config.cpp.parseTimeout.lt surroundings.elapsed &&
    config.cpp.strictTimeoutEnforcement) = false

private theorem IsAccepted.parse_value {config : Config} {surroundings : Surroundings}
    {content path : String} {context : Option Context} {tree : ConcreteTree}
    (accepted : IsAccepted config surroundings content path context tree) :
    (parse config surroundings content path context).value =
      .ok (assemble config surroundings.features? content path context tree).value := by
  unfold parse
  rw [accepted.given]
  dsimp only
  rw [accepted.checked]
  simp only [parseTree, accepted.inTime, Bool.false_eq_true, if_false]

/-- For each concrete node above the depth at which a tree is truncated, the tree of the file has a
node at the same place.  If its range is aligned, its value is the part of the file in this range;
if its children, which are not truncated either, are aligned and fill the range, their values make
up its value; and if the range does not lie in the file, its value is empty.  Parsing gives this
tree whatever the ranges are. -/
theorem values_are_parts (config : Config) (surroundings : Surroundings) (content path : String)
    (context : Option Context) (tree : ConcreteTree) :
    (IsAccepted config surroundings content path context tree →
      (parse config surroundings content path context).value =
        .ok (assemble config surroundings.features? content path context tree).value) ∧
    ∀ way concrete, way.length < Config.treeDepthLimit → tree.root.at? way = some concrete →
      ∃ node,
        (assemble config surroundings.features? content path context tree).value.tree.root.at? way =
          some node ∧
        (concrete.label.IsAligned content →
          IsPart content concrete.label.startByte concrete.label.endByte node.value) ∧
        (way.length + 1 < Config.treeDepthLimit →
          FillRange content concrete.label.startByte concrete.children concrete.label.endByte →
          String.join (node.children.map Node.value) = node.value) ∧
        (concrete.label.startByte < 0 ∨ concrete.label.endByte < concrete.label.startByte ∨
          content.utf8ByteSize < concrete.label.endByte → node.value = "") := by
  refine ⟨IsAccepted.parse_value, fun way concrete kept found => ?_⟩
  obtain ⟨node, there, value, children⟩ := assemble_at? config surroundings.features? content path
    context tree (Nat.le_of_lt kept) found
  rw [truncation_value kept] at value
  refine ⟨node, there, fun aligned => ?_, fun below fill => ?_, fun outside => ?_⟩
  · rw [value]
    exact aligned.isPart
  · rw [value, children, truncation_children_values below, fill.join_texts]
    rfl
  · rw [value, ConcreteNode.text, textOfBytes, if_neg]
    change ¬ (_ ∧ _ ∧ _ ≤ (content.utf8ByteSize : Int))
    omega

/-- Two characters of two and of four bytes, in a node below the root that they fill. -/
theorem wide_values_are_parts :
    let content := "é𝄞"
    let tree : ConcreteTree :=
      ⟨.node ⟨"translation_unit", 0, 6, ⟨0, 0⟩, ⟨0, 6⟩⟩
        [.node ⟨"ERROR", 0, 6, ⟨0, 0⟩, ⟨0, 6⟩⟩
          [.node ⟨"identifier", 0, 2, ⟨0, 0⟩, ⟨0, 2⟩⟩ [],
            .node ⟨"ERROR", 2, 6, ⟨0, 2⟩, ⟨0, 6⟩⟩ []]], true⟩
    ∃ parsed node,
      (parse {} { grammar := .ready (some tree) } content "" none).value = .ok parsed ∧
        parsed.tree.root.at? [0] = some node ∧ IsPart content 0 6 node.value ∧
        String.join (node.children.map Node.value) = node.value := by
  intro content tree
  have first : IsBoundary content 0 := ⟨"", content, rfl, rfl⟩
  have between : IsBoundary content 2 := ⟨"é", "𝄞", rfl, rfl⟩
  have last : IsBoundary content 6 := ⟨content, "", rfl, rfl⟩
  obtain ⟨given, values⟩ :=
    values_are_parts {} { grammar := .ready (some tree) } content "" none tree
  obtain ⟨node, there, part, joined, _⟩ := values [0] _ (by decide) rfl
  refine ⟨_, node, given ⟨rfl, rfl, ?_⟩, there, part ⟨first, last, by decide⟩,
    joined (by decide) ?_⟩
  · decide +kernel
  · exact ⟨rfl, ⟨first, between, by decide⟩, rfl, ⟨between, last, by decide⟩, rfl⟩

/-! ### The depth at which a tree is truncated -/

def chain (label : ConcreteLabel) : Nat → ConcreteNode
  | 0 => .node label []
  | depth + 1 => .node label [chain label depth]

private theorem chain_at? (label : ConcreteLabel) (depth further : Nat) :
    (chain label (depth + further)).at? (List.replicate further 0) = some (chain label depth) := by
  induction further with
  | zero => rfl
  | succ further ih =>
      rw [List.replicate_succ, ← Nat.add_assoc, chain]
      exact ih

/-- At that depth the value is another one, though the range is aligned. -/
theorem deepest_value_is_no_part :
    let label : ConcreteLabel := ⟨"block", 0, 1, ⟨0, 0⟩, ⟨0, 1⟩⟩
    let tree : ConcreteTree := ⟨chain label 1000, false⟩
    label.IsAligned "x" ∧ tree.root.at? (List.replicate 1000 0) = some (.node label []) ∧
      ∃ node,
        (assemble {} none "x" "" none tree).value.tree.root.at? (List.replicate 1000 0) =
          some node ∧
        node.value = "// Truncated at depth 1000" ∧ ¬ IsPart "x" 0 1 node.value := by
  intro label tree
  have aligned : label.IsAligned "x" :=
    ⟨⟨"", "x", rfl, rfl⟩, ⟨"x", "", rfl, rfl⟩, by decide⟩
  have found : tree.root.at? (List.replicate 1000 0) = some (.node label []) :=
    chain_at? label 0 1000
  obtain ⟨node, there, value, _⟩ := assemble_at? {} none "x" "" none tree
    (Nat.le_of_eq List.length_replicate) found
  rw [List.length_replicate, truncation_cut] at value
  refine ⟨aligned, found, node, there, value, ?_⟩
  rw [value]
  rintro ⟨before, after, _, _, stop⟩
  rw [String.utf8ByteSize_append,
    show (Node.node (truncatedLabel 1000 label) []).value.utf8ByteSize = 26 from rfl] at stop
  omega

end Cpp

end SourceOutline
