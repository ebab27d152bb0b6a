import SourceOutline.Proofs.Cpp.Complete
import SourceOutline.Proofs.Parsing.Metadata

set_option autoImplicit false

/-! Conversion of a concrete tree is truncation.

The conversion goes through a list of pending nodes and puts every node it makes below one that was
made before.  What comes out is the tree that a recursion over the concrete tree gives, which cuts
off at a fixed depth. -/

namespace SourceOutline

def Node.level : Nat → Node → List Node
  | 0, root => [root]
  | depth + 1, root => root.children.flatMap (level depth)

namespace Cpp

def ConcreteNode.children : ConcreteNode → List ConcreteNode
  | .node _ children => children

def ConcreteNode.level : Nat → ConcreteNode → List ConcreteNode
  | 0, root => [root]
  | depth + 1, root => root.children.flatMap (level depth)

mutual

/-- A concrete node at a depth with all below it, where a node at depth 1000 stands for all that
is below it. -/
def truncation (bytes : Array UInt8) (depth : Nat) : ConcreteNode → Node
  | .node label children =>
      if depth < 1000 then
        .node
          { id := "node-" ++ byteRange label
            tag := label.kind
            value := textOfBytes bytes label.startByte label.endByte
            span := ⟨label.start.row + 1, label.start.column + 1, label.stop.row + 1,
              label.stop.column + 1⟩
            metadata := [] }
          (truncationAll bytes (depth + 1) children)
      else
        .node
          { id := "truncated-node-" ++ byteRange label
            tag := label.kind ++ "_truncated"
            value := "// Truncated at depth 1000"
            span := ⟨1, 1, 1, 1⟩
            metadata := [] }
          []
termination_by structural node => node

def truncationAll (bytes : Array UInt8) (depth : Nat) : List ConcreteNode → List Node
  | [] => []
  | child :: rest => truncation bytes depth child :: truncationAll bytes depth rest
termination_by structural children => children

end

private theorem truncationAll_eq_map (bytes : Array UInt8) (depth : Nat)
    (children : List ConcreteNode) :
    truncationAll bytes depth children = children.map (truncation bytes depth) := by
  induction children with
  | nil => rfl
  | cons child rest ih => rw [truncationAll, ih, List.map_cons]

theorem truncation_kept {depth : Nat} (kept : depth < 1000) (bytes : Array UInt8)
    (label : ConcreteLabel) (children : List ConcreteNode) :
    truncation bytes depth (.node label children) =
      .node (convertLabel bytes label) (children.map (truncation bytes (depth + 1))) := by
  rw [truncation, if_pos kept, truncationAll_eq_map]
  rfl

theorem truncation_cut (bytes : Array UInt8) (label : ConcreteLabel)
    (children : List ConcreteNode) :
    truncation bytes 1000 (.node label children) = .node (truncatedLabel 1000 label) [] := by
  rw [truncation, if_neg (Nat.lt_irrefl 1000)]
  rfl

/-! ### The order in which nodes are made -/

mutual

/-- The nodes made for a concrete node and all below it, given the number of the first one. -/
def listing (bytes : Array UInt8) (depth parent number : Nat) : ConcreteNode → List Made
  | .node label children =>
      if Config.treeDepthLimit ≤ depth then [⟨truncatedLabel depth label, parent⟩]
      else
        ⟨convertLabel bytes label, parent⟩ ::
          listingAll bytes (depth + 1) number (number + 1) children
termination_by structural node => node

def listingAll (bytes : Array UInt8) (depth parent number : Nat) : List ConcreteNode → List Made
  | [] => []
  | child :: rest =>
      listing bytes depth parent number child ++
        listingAll bytes depth parent (number + (listing bytes depth parent number child).length)
          rest
termination_by structural children => children

end

mutual

/-- A pending node is dealt with, all below it included, before those behind it. -/
theorem convertPending_node (bytes : Array UInt8) :
    ∀ (node : ConcreteNode) (depth parent : Nat) (rest : List Pending) (made : Array Made),
      convertPending bytes (⟨node, depth, parent⟩ :: rest) made =
        convertPending bytes rest
          (made ++ (listing bytes depth parent (made.size + 1) node).toArray)
  | .node label children, depth, parent, rest, made => by
      rw [convertPending, listing]
      split
      · rw [Array.push_eq_append]
      · rw [convertPending_all bytes children, Array.push_eq_append, Array.append_assoc,
          Array.size_append]
        simp

private theorem convertPending_all (bytes : Array UInt8) :
    ∀ (children : List ConcreteNode) (depth parent : Nat) (rest : List Pending)
      (made : Array Made),
      convertPending bytes (pendingAt depth parent children ++ rest) made =
        convertPending bytes rest
          (made ++ (listingAll bytes depth parent (made.size + 1) children).toArray)
  | [], depth, parent, rest, made => by
      rw [listingAll, Array.append_empty]
      rfl
  | child :: later, depth, parent, rest, made => by
      rw [listingAll]
      change convertPending bytes (⟨child, depth, parent⟩ :: (pendingAt depth parent later ++ rest))
        made = _
      rw [convertPending_node bytes child, convertPending_all bytes later]
      simp [Nat.add_right_comm]

end

/-! ### Trees from what was made -/

/-- Nodes have come in front of what is below one node; what is below the others with smaller
numbers than `number` is as it was. -/
structure Gains (parent number : Nat) (nodes : List Node) (before after : Array (List Node)) :
    Prop where
  size : after.size = before.size
  below : ∀ place < number, after.getD place [] =
    (if place = parent then nodes else []) ++ before.getD place []

def Vacant (number length : Nat) (below : Array (List Node)) : Prop :=
  number + length ≤ below.size ∧
    ∀ place, number ≤ place → place < number + length → below.getD place [] = []

private theorem getD_attach (made : Made × Nat) (below : Array (List Node))
    (inside : made.1.parent < below.size) (place : Nat) :
    (Made.attach made below).getD place [] =
      (if place = made.1.parent then [.node made.1.label (below.getD made.2 [])] else []) ++
        below.getD place [] := by
  have known : below.getD place [] = below[place]?.getD [] := Array.getD_eq_getD_getElem?
  unfold Made.attach
  rw [Array.getD_eq_getD_getElem?, Array.getElem?_modify, known]
  by_cases here : place = made.1.parent
  · rw [here, if_pos rfl, if_pos rfl, Array.getElem?_eq_getElem inside]
    rfl
  · rw [if_neg (Ne.symm here), if_neg here, List.nil_append]

private theorem Gains.attach {number : Nat} {parent : Nat} {nodes : List Node}
    {before after : Array (List Node)} (gains : Gains number (number + 1) nodes before after)
    (vacant : before.getD number [] = []) (earlier : parent < number)
    (inside : number < before.size) (label : Label) :
    Gains parent number [.node label nodes] before
      (Made.attach (⟨label, parent⟩, number) after) := by
  have own : after.getD number [] = nodes := by
    rw [gains.below number (Nat.lt_succ_self number), if_pos rfl, vacant, List.append_nil]
  constructor
  · rw [Made.attach, Array.size_modify, gains.size]
  · intro place smaller
    have parentInside : parent < after.size := by
      rw [gains.size]
      omega
    rw [getD_attach _ _ parentInside, own,
      gains.below place (Nat.lt_succ_of_lt smaller), if_neg (Nat.ne_of_lt smaller),
      List.nil_append]

/-- Further nodes in front, as siblings are met from the last one to the first. -/
theorem Gains.trans {parent number later : Nat} {nodes others : List Node}
    {before between after : Array (List Node)} (second : Gains parent number nodes between after)
    (first : Gains parent later others before between) (ordered : number ≤ later) :
    Gains parent number (nodes ++ others) before after := by
  constructor
  · rw [second.size, first.size]
  · intro place smaller
    rw [second.below place smaller, first.below place (Nat.lt_of_lt_of_le smaller ordered)]
    by_cases here : place = parent
    · simp only [if_pos here, List.append_assoc]
    · simp only [if_neg here, List.nil_append]

/-- Below a parent with a smaller number, nodes with larger ones are as vacant as before. -/
theorem Vacant.after {parent number length later more : Nat} {nodes : List Node}
    {before after : Array (List Node)} (vacant : Vacant number (length + more) before)
    (gains : Gains parent later nodes before after) (earlier : parent < number)
    (ordered : later = number + length) : Vacant number length after := by
  obtain ⟨fits, empty⟩ := vacant
  constructor
  · rw [gains.size]
    omega
  · intro place large small
    rw [gains.below place (by omega), if_neg (by omega), List.nil_append]
    exact empty place large (by omega)

mutual

theorem gains_listing (bytes : Array UInt8) :
    ∀ (node : ConcreteNode) (depth parent number : Nat) (below : Array (List Node)),
      depth ≤ 1000 → parent < number →
      Vacant number (listing bytes depth parent number node).length below →
      Gains parent number [truncation bytes depth node] below
        (((listing bytes depth parent number node).zipIdx number).foldr Made.attach below)
  | .node label children, depth, parent, number, below, shallow, earlier, vacant => by
      rw [listing] at vacant ⊢
      by_cases deep : Config.treeDepthLimit ≤ depth
      · have bottom : depth = 1000 := Nat.le_antisymm shallow deep
        rw [if_pos deep] at vacant ⊢
        obtain ⟨fits, empty⟩ := vacant
        have unchanged : Gains number (number + 1) [] below below :=
          ⟨rfl, fun place _ => by rw [ite_self, List.nil_append]⟩
        rw [bottom, truncation_cut]
        exact unchanged.attach (empty number (Nat.le_refl _) (by simp)) earlier
          (Nat.lt_of_lt_of_le (by simp) fits) _
      · have kept : depth < 1000 := Nat.lt_of_not_le deep
        rw [if_neg deep] at vacant ⊢
        obtain ⟨fits, empty⟩ := vacant
        rw [List.length_cons] at fits empty
        have inner : Vacant (number + 1)
            (listingAll bytes (depth + 1) number (number + 1) children).length below :=
          ⟨by omega, fun place large small => empty place (by omega) (by omega)⟩
        have gains := gains_listingAll bytes children (depth + 1) number (number + 1) below kept
          (Nat.lt_succ_self number) inner
        rw [List.zipIdx_cons, List.foldr_cons, truncation_kept kept, ← truncationAll_eq_map]
        exact gains.attach (empty number (Nat.le_refl _) (by omega)) earlier (by omega) _

private theorem gains_listingAll (bytes : Array UInt8) :
    ∀ (children : List ConcreteNode) (depth parent number : Nat) (below : Array (List Node)),
      depth ≤ 1000 → parent < number →
      Vacant number (listingAll bytes depth parent number children).length below →
      Gains parent number (truncationAll bytes depth children) below
        (((listingAll bytes depth parent number children).zipIdx number).foldr Made.attach below)
  | [], depth, parent, number, below, _shallow, _earlier, _vacant =>
      ⟨rfl, fun place _ => by rw [truncationAll, ite_self, List.nil_append]; rfl⟩
  | child :: rest, depth, parent, number, below, shallow, earlier, vacant => by
      rw [listingAll, List.length_append] at vacant
      rw [listingAll, List.zipIdx_append, List.foldr_append, truncationAll]
      obtain ⟨fits, empty⟩ := vacant
      have behind := gains_listingAll bytes rest depth parent
        (number + (listing bytes depth parent number child).length) below shallow
        (Nat.lt_add_right _ earlier)
        ⟨by omega, fun place large small => empty place (by omega) (by omega)⟩
      have here := gains_listing bytes child depth parent number _ shallow earlier
        (Vacant.after ⟨fits, empty⟩ behind earlier rfl)
      exact here.trans behind (Nat.le_add_right _ _)

end

private theorem getD_replicate_nil (size place : Nat) :
    (Array.replicate size ([] : List Node)).getD place [] = [] := by
  rw [Array.getD_eq_getD_getElem?, Array.getElem?_replicate]
  split <;> rfl

private theorem childrenOfRoot_listingAll (bytes : Array UInt8) (children : List ConcreteNode) :
    childrenOfRoot (listingAll bytes 1 0 1 children).toArray = truncationAll bytes 1 children := by
  have vacant : Vacant 1 (listingAll bytes 1 0 1 children).length
      (Array.replicate ((listingAll bytes 1 0 1 children).length + 1) []) := by
    constructor
    · exact Nat.le_of_eq (by rw [Array.size_replicate, Nat.add_comm])
    · intro place _large _small
      exact getD_replicate_nil _ place
  have gains := gains_listingAll bytes children 1 0 1 _ (by decide) Nat.one_pos vacant
  have below := gains.below 0 Nat.one_pos
  rw [if_pos rfl, getD_replicate_nil, List.append_nil] at below
  rw [childrenOfRoot, ← Array.foldr_toList, Array.toList_zipIdx]
  exact below

/-- What was made for the nodes below the root. -/
theorem convertPending_children (bytes : Array UInt8) (children : List ConcreteNode) :
    convertPending bytes (pendingAt 1 0 children) #[] =
      (listingAll bytes 1 0 1 children).toArray := by
  have made := convertPending_all bytes children 1 0 [] #[]
  rwa [List.append_nil, convertPending, Array.empty_append] at made

/-- The tree that was converted is the truncated one. -/
theorem convert_root_eq (content : String) (root : ConcreteNode) :
    (convert content root).root = truncation content.toUTF8.data 0 root := by
  obtain ⟨label, children⟩ := root
  rw [truncation_kept (by decide), ← truncationAll_eq_map]
  unfold convert
  dsimp only
  rw [convertPending_children, childrenOfRoot_listingAll]

/-! ### Counts -/

mutual

theorem listing_length (bytes : Array UInt8) :
    ∀ (node : ConcreteNode) (depth parent number : Nat), depth ≤ 1000 →
      (listing bytes depth parent number node).length = (truncation bytes depth node).count
  | .node label children, depth, parent, number, shallow => by
      rw [listing]
      by_cases deep : Config.treeDepthLimit ≤ depth
      · have bottom : depth = 1000 := Nat.le_antisymm shallow deep
        rw [if_pos deep, bottom, truncation_cut]
        rfl
      · have kept : depth < 1000 := Nat.lt_of_not_le deep
        rw [if_neg deep, truncation_kept kept, ← truncationAll_eq_map, Node.count,
          List.length_cons, listingAll_length bytes children (depth + 1) number _ kept]

private theorem listingAll_length (bytes : Array UInt8) :
    ∀ (children : List ConcreteNode) (depth parent number : Nat), depth ≤ 1000 →
      (listingAll bytes depth parent number children).length =
        Node.countAll (truncationAll bytes depth children)
  | [], _depth, _parent, _number, _shallow => rfl
  | child :: rest, depth, parent, number, shallow => by
      rw [listingAll, List.length_append, truncationAll, Node.countAll,
        listing_length bytes child depth parent number shallow,
        listingAll_length bytes rest depth parent _ shallow]

end

private theorem convert_count_eq (content : String) (root : ConcreteNode) :
    (convert content root).count = (convert content root).root.count := by
  rw [convert_root_eq]
  obtain ⟨label, children⟩ := root
  rw [truncation_kept (by decide), ← truncationAll_eq_map, Node.count,
    ← listingAll_length content.toUTF8.data children 1 0 1 (by decide)]
  unfold convert
  dsimp only
  rw [convertPending_children, List.size_toArray]

/-! ### Depths -/

/-- A node that stands for all that is too deep. -/
def IsSentinel (node : Node) : Prop :=
  ∃ label, node = .node (truncatedLabel 1000 label) []

private theorem not_isSentinel_converted (bytes : Array UInt8) (label : ConcreteLabel)
    (children : List Node) : ¬ IsSentinel (.node (convertLabel bytes label) children) := by
  rintro ⟨cut, same⟩
  have ids : "node-" ++ byteRange label = "truncated-node-" ++ byteRange cut := by
    injection same with labels
    exact congrArg Label.id labels
  have first := congrArg (fun text : String => text.toList.head?) ids
  simp at first

/-- Nothing is deeper than the sentinels. -/
theorem truncation_level_eq_nil (bytes : Array UInt8) (further : Nat) :
    ∀ (depth : Nat) (node : ConcreteNode), depth ≤ 1000 → 1000 < depth + further →
      (truncation bytes depth node).level further = [] := by
  induction further with
  | zero =>
      intro depth node shallow deep
      omega
  | succ further ih =>
      rintro depth ⟨label, children⟩ shallow deep
      rw [Node.level]
      by_cases kept : depth < 1000
      · rw [truncation_kept kept, Node.children, List.flatMap_eq_nil_iff]
        intro node member
        obtain ⟨child, _present, same⟩ := List.mem_map.mp member
        rw [← same]
        exact ih (depth + 1) child kept (by omega)
      · have bottom : depth = 1000 := by omega
        rw [bottom, truncation_cut]
        rfl

/-- There is a sentinel exactly if the concrete tree goes down to its depth. -/
theorem exists_sentinel_iff (bytes : Array UInt8) (further : Nat) :
    ∀ (depth : Nat) (node : ConcreteNode), depth + further = 1000 →
      ((∃ each ∈ (truncation bytes depth node).preorder, IsSentinel each) ↔
        node.level further ≠ []) := by
  induction further with
  | zero =>
      rintro depth ⟨label, children⟩ bottom
      have here : depth = 1000 := bottom
      rw [here, truncation_cut]
      refine iff_of_true ⟨_, List.mem_singleton.mpr rfl, label, rfl⟩ (List.cons_ne_nil _ _)
  | succ further ih =>
      rintro depth ⟨label, children⟩ above
      have kept : depth < 1000 := by omega
      rw [truncation_kept kept, ConcreteNode.level, Node.preorder, ne_eq, List.flatMap_eq_nil_iff]
      constructor
      · rintro ⟨each, member, sentinel⟩ shallow
        rcases List.mem_cons.mp member with here | below
        · rw [here] at sentinel
          exact not_isSentinel_converted bytes label _ sentinel
        · obtain ⟨node, present, under⟩ := (Node.mem_preorderAll each _).mp below
          obtain ⟨child, given, same⟩ := List.mem_map.mp present
          rw [← same] at under
          exact (ih (depth + 1) child (by omega)).mp ⟨each, under, sentinel⟩ (shallow child given)
      · intro deep
        obtain ⟨child, reached⟩ := Classical.not_forall.mp deep
        obtain ⟨given, goesOn⟩ := Classical.not_imp.mp reached
        obtain ⟨each, under, sentinel⟩ := (ih (depth + 1) child (by omega)).mpr goesOn
        exact ⟨each, List.mem_cons_of_mem _
          ((Node.mem_preorderAll each _).mpr ⟨_, List.mem_map_of_mem given, under⟩), sentinel⟩

/-! ### The tree of a file -/

private theorem withMetadata_count (change : Fields → Fields) (root : Node) :
    (root.withMetadata change).count = root.count := by
  cases root <;> rfl

theorem withMetadata_children (change : Fields → Fields) (root : Node) :
    (root.withMetadata change).children = root.children := by
  cases root <;> rfl

/-- Telling the features of a file changes only what is told of it, and not the number of nodes. -/
theorem withFeatures_eq (config : Config) (fault : Option String) (content : String)
    (context : Option Context) (root : Node) :
    ∃ change, (withFeatures config fault content context root).value = root.withMetadata change ∧
      ∀ fields, Fields.get? (change fields) "node_count" = fields.get? "node_count" := by
  unfold withFeatures
  cases fault with
  | none =>
      have told := featureReport_get? "node_count" (by decide) root content
        config.cpp.maxClassesPerFile
      refine ⟨(·.putAll (featureReport root content config.cpp.maxClassesPerFile)), rfl, ?_⟩
      intro fields
      exact Fields.get?_putAll told fields
  | some message =>
      have apart : "feature_detection_error" ≠ "node_count" := by decide
      refine ⟨(·.put "feature_detection_error"
        (.text ((Crash.fault message).toError "detect_cpp_features" context).message)), rfl, ?_⟩
      intro fields
      exact Fields.get?_put_ne apart _ fields

/-- The tree of a file has the nodes of the converted one, and its root tells their number. -/
theorem assemble_root (config : Config) (fault : Option String) (content path : String)
    (context : Option Context) (tree : ConcreteTree) :
    let root := (assemble config fault content path context tree).value.tree.root
    root.children = (convert content tree.root).root.children ∧
      root.count = (convert content tree.root).count ∧
      root.metadata.get? "node_count" = some (.count (convert content tree.root).count) := by
  obtain ⟨label, children, converted, bare⟩ := convert_root content tree.root
  have count := convert_count_eq content tree.root
  unfold assemble
  dsimp only
  rw [converted] at count ⊢
  obtain ⟨change, described, kept⟩ := withFeatures_eq config fault content context
    ((Node.node label children).withMetadata (·.putAll
      [("parser", .text "tree-sitter"), ("node_count", .count (convert content tree.root).count),
        ("has_syntax_errors", .bool tree.hasError)]))
  rw [described, withMetadata_children, withMetadata_children, withMetadata_count,
    withMetadata_count, count]
  refine ⟨rfl, rfl, ?_⟩
  simp only [Node.withMetadata, Node.metadata, kept, bare]
  rfl

/-- The conversion of a concrete tree is its truncation: nothing is deeper than 1000, a sentinel
occurs exactly if the concrete tree goes down to that depth, and the count that is told is the
number of nodes, which is also how many a walk over the tree comes to; the root tells just that. -/
theorem convert_eq_truncation (content : String) (root : ConcreteNode) :
    (convert content root).root = truncation content.toUTF8.data 0 root ∧
      (∀ depth, 1000 < depth → (convert content root).root.level depth = []) ∧
      ((∃ node ∈ (convert content root).root.preorder, IsSentinel node) ↔
        root.level 1000 ≠ []) ∧
      (convert content root).count = (convert content root).root.count ∧
      (convert content root).count = (convert content root).root.preorder.length ∧
      ∀ (config : Config) (fault : Option String) (path : String) (context : Option Context)
        (hasError : Bool),
        let tree := (assemble config fault content path context ⟨root, hasError⟩).value.tree
        tree.root.children = (convert content root).root.children ∧
          tree.root.metadata.get? "node_count" = some (.count tree.root.preorder.length) := by
  have same := convert_root_eq content root
  refine ⟨same, ?_, ?_, convert_count_eq content root, ?_, ?_⟩
  · intro depth deep
    rw [same]
    exact truncation_level_eq_nil _ depth 0 root (Nat.zero_le _) (by omega)
  · rw [same]
    exact exists_sentinel_iff _ 1000 0 root rfl
  · rw [convert_count_eq, Node.preorder_length]
  · intro config fault path context hasError
    obtain ⟨children, count, told⟩ := assemble_root config fault content path context
      ⟨root, hasError⟩
    refine ⟨children, ?_⟩
    rw [told, Node.preorder_length, count]

end Cpp

end SourceOutline
