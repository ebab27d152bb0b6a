import SourceOutline.Proofs.Cpp.Truncation
import SourceOutline.Proofs.Parsing.Location

set_option autoImplicit false

/-! The trees that the parsers make are complete.

In Dart and Swift trees every node below the root stands for some text, and a place without a node
stands for none.  In C++ trees there is a node for every concrete one. -/

namespace SourceOutline

private theorem Node.IsLocatedIn.isMissing {content : String} {node : Node}
    (located : node.IsLocatedIn content) : node.isMissing = false := by
  cases node with
  | node label children => rfl
  | missing =>
      rcases located.forward with lines | ⟨_same, columns⟩
      · exact absurd lines (by decide)
      · exact absurd columns (by decide)

private theorem Tree.IsFaithful.isComplete {reading : NodeReading} {content : String} {tree : Tree}
    (faithful : tree.IsFaithful reading content) (present : tree.root.isMissing = false) :
    tree.root.IsComplete := by
  have below := faithful.nodes
  unfold Node.IsComplete
  cases root : tree.root with
  | missing =>
      rw [root] at present
      cases present
  | node label children =>
      rw [root] at below
      intro node member
      rcases List.mem_cons.mp member with here | under
      · rw [here]
        rfl
      · exact (below node under).isMissing

theorem Dart.parse_isComplete {config : Config} {faults : Faults} {content path : String}
    {context : Option Context} {parsed : Parsed}
    (made : (parse config faults content path context).value = .ok parsed) :
    parsed.tree.root.IsComplete :=
  (parse_isFaithful made).isComplete (parse_isSilent made).present

theorem Swift.parse_isComplete {config : Config} {faults : Faults} {content path : String}
    {context : Option Context} {parsed : Parsed}
    (made : (parse config faults content path context).value = .ok parsed) :
    parsed.tree.root.IsComplete := by
  obtain ⟨other, madeToo, faithful⟩ := parse_isFaithful config faults content path context
  cases made.symm.trans madeToo
  exact faithful.isComplete (parse_isSilent made).present

namespace Cpp

mutual

private theorem truncation_isComplete (bytes : Array UInt8) :
    ∀ (node : ConcreteNode) (depth : Nat), (truncation bytes depth node).IsComplete
  | .node label children, depth => by
      rw [truncation]
      split
      · exact (Node.isComplete_node_iff _ _).mpr
          (truncationAll_isComplete bytes children (depth + 1))
      · exact (Node.isComplete_node_iff _ _).mpr fun _ impossible => nomatch impossible

private theorem truncationAll_isComplete (bytes : Array UInt8) :
    ∀ (children : List ConcreteNode) (depth : Nat),
      ∀ node ∈ truncationAll bytes depth children, node.IsComplete
  | [], _depth => fun _ impossible => nomatch impossible
  | child :: rest, depth => by
      rw [truncationAll, List.forall_mem_cons]
      exact ⟨truncation_isComplete bytes child depth, truncationAll_isComplete bytes rest depth⟩

end

theorem parse_isComplete {config : Config} {surroundings : Surroundings} {content path : String}
    {context : Option Context} {parsed : Parsed}
    (made : (parse config surroundings content path context).value = .ok parsed) :
    parsed.tree.root.IsComplete := by
  have present := (parse_isSilent made).present
  obtain ⟨tree, rfl⟩ := exists_assembled made
  have children :=
    (assemble_root config surroundings.features? content path context tree).1
  have converted : (convert content tree.root).root.IsComplete := by
    rw [convert_root_eq]
    exact truncation_isComplete _ _ _
  cases root : (assemble config surroundings.features? content path context tree).value.tree.root
    with
  | missing =>
      rw [root] at present
      cases present
  | node label below =>
      rw [root] at children
      rw [Node.isComplete_node_iff]
      change below = _ at children
      rw [children]
      exact converted.children

end Cpp

end SourceOutline
