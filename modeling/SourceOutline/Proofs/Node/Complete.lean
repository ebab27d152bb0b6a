import SourceOutline.Node

set_option autoImplicit false

/-! Walks over trees, and complete trees: no place in them lacks a node. -/

namespace SourceOutline

theorem Node.mem_preorderAll (node : Node) (children : List Node) :
    node ∈ preorderAll children ↔ ∃ child ∈ children, node ∈ child.preorder := by
  induction children with
  | nil => simp [preorderAll]
  | cons child rest ih => simp [preorderAll, ih]

theorem Node.mem_preorder_of_mem_children {root child : Node} (member : child ∈ root.children) :
    child ∈ root.preorder := by
  cases root with
  | missing => cases member
  | node label children =>
      rw [preorder]
      refine List.mem_cons_of_mem _ ((mem_preorderAll child children).mpr ⟨child, member, ?_⟩)
      cases child <;> exact List.mem_cons_self

mutual

/-- A walk over a tree comes to every node once. -/
theorem Node.preorder_length : ∀ root : Node, root.preorder.length = root.count
  | .missing => rfl
  | .node label children => by
      rw [preorder, count, List.length_cons, preorderAll_length children]

theorem Node.preorderAll_length :
    ∀ children : List Node, (preorderAll children).length = countAll children
  | [] => rfl
  | child :: rest => by
      rw [preorderAll, countAll, List.length_append, preorder_length child,
        preorderAll_length rest]

end

def Node.IsComplete (root : Node) : Prop :=
  ∀ node ∈ root.preorder, node.isMissing = false

theorem Node.isComplete_node_iff (label : Label) (children : List Node) :
    (Node.node label children).IsComplete ↔ ∀ child ∈ children, child.IsComplete := by
  unfold IsComplete
  rw [preorder]
  constructor
  · intro complete child member node below
    exact complete node
      (List.mem_cons_of_mem _ ((mem_preorderAll node children).mpr ⟨child, member, below⟩))
  · intro complete node member
    rcases List.mem_cons.mp member with here | below
    · rw [here]
      rfl
    · obtain ⟨child, present, under⟩ := (mem_preorderAll node children).mp below
      exact complete child present node under

theorem Node.not_isComplete_missing : ¬ Node.missing.IsComplete := by
  intro complete
  have present := complete .missing (List.mem_singleton.mpr rfl)
  cases present

theorem Node.IsComplete.children {node : Node} (complete : node.IsComplete) :
    ∀ child ∈ node.children, child.IsComplete := by
  cases node with
  | missing => exact absurd complete not_isComplete_missing
  | node label children => exact (isComplete_node_iff label children).mp complete

theorem Node.IsComplete.isMissing {node : Node} (complete : node.IsComplete) :
    node.isMissing = false := by
  cases node with
  | missing => exact absurd complete not_isComplete_missing
  | node label children => rfl

theorem Node.any_isMissing {children : List Node}
    (complete : ∀ child ∈ children, child.IsComplete) : children.any Node.isMissing = false := by
  rw [List.any_eq_false]
  intro child member missing
  cases (complete child member).isMissing.symm.trans missing

end SourceOutline
