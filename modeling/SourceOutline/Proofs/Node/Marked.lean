import SourceOutline.Proofs.Node.SourceOrder

set_option autoImplicit false

/-! Trees whose nodes are marked with the part of the work they come from, and what is left of them
when the nodes of some parts are taken out. -/

namespace SourceOutline

variable {σ : Type}

/-- A tree of marked nodes. -/
inductive Marked (σ : Type) where
  | missing (origin : σ)
  | node (origin : σ) (label : Label) (children : List (Marked σ))

namespace Marked

mutual

def plain : Marked σ → Node
  | .missing _ => .missing
  | .node _ label children => .node label (plainAll children)
termination_by structural tree => tree

def plainAll : List (Marked σ) → List Node
  | [] => []
  | child :: rest => plain child :: plainAll rest
termination_by structural children => children

end

mutual

/-- What is left of a tree when the nodes with some marks are taken out, with all below them. -/
def prune? (dropped : σ → Bool) : Marked σ → Option (Marked σ)
  | .missing origin => if dropped origin then none else some (.missing origin)
  | .node origin label children =>
      if dropped origin then none else some (.node origin label (pruneAll dropped children))
termination_by structural tree => tree

def pruneAll (dropped : σ → Bool) : List (Marked σ) → List (Marked σ)
  | [] => []
  | child :: rest => (prune? dropped child).toList ++ pruneAll dropped rest
termination_by structural children => children

end

mutual

def ofNode (origin : σ) : Node → Marked σ
  | .missing => .missing origin
  | .node label children => .node origin label (ofNodes origin children)
termination_by structural tree => tree

def ofNodes (origin : σ) : List Node → List (Marked σ)
  | [] => []
  | child :: rest => ofNode origin child :: ofNodes origin rest
termination_by structural children => children

end

def above (origin : σ) (root : Node) (children : List (Marked σ)) : Marked σ :=
  match root with
  | .missing => .missing origin
  | .node label _ => .node origin label children

def span (tree : Marked σ) : Span :=
  tree.plain.span

/-! ### Lists of trees -/

theorem plainAll_eq_map (trees : List (Marked σ)) : plainAll trees = trees.map plain := by
  induction trees with
  | nil => rfl
  | cons tree rest ih => rw [plainAll, ih, List.map_cons]

theorem pruneAll_eq_filterMap (dropped : σ → Bool) (trees : List (Marked σ)) :
    pruneAll dropped trees = trees.filterMap (prune? dropped) := by
  induction trees with
  | nil => rfl
  | cons tree rest ih =>
      rw [pruneAll, ih, List.filterMap_cons]
      cases prune? dropped tree <;> rfl

/-- Taking nodes out moves none of the others. -/
theorem prune?_span (dropped : σ → Bool) (tree left : Marked σ)
    (pruned : prune? dropped tree = some left) : left.span = tree.span := by
  cases tree with
  | missing origin =>
      rw [prune?] at pruned
      split at pruned
      · cases pruned
      · cases pruned
        rfl
  | node origin label children =>
      rw [prune?] at pruned
      split at pruned
      · cases pruned
      · cases pruned
        rfl

theorem pruneAll_bySpan (dropped : σ → Bool) (trees : List (Marked σ)) :
    pruneAll dropped (bySpan span trees) = bySpan span (pruneAll dropped trees) := by
  rw [pruneAll_eq_filterMap, pruneAll_eq_filterMap]
  exact filterMap_bySpan span (prune? dropped) (prune?_span dropped) trees

theorem plainAll_bySpan (trees : List (Marked σ)) :
    plainAll (bySpan span trees) = Node.inSourceOrder (plainAll trees) := by
  rw [plainAll_eq_map, plainAll_eq_map, Node.inSourceOrder_eq]
  exact map_bySpan span Node.span plain (fun _ => rfl) trees

/-! ### Trees of one part -/

mutual

theorem plain_ofNode (origin : σ) : ∀ node : Node, (ofNode origin node).plain = node
  | .missing => rfl
  | .node label children => by rw [ofNode, plain, plainAll_ofNodes origin children]

private theorem plainAll_ofNodes (origin : σ) :
    ∀ nodes : List Node, plainAll (ofNodes origin nodes) = nodes
  | [] => rfl
  | child :: rest => by
      rw [ofNodes, plainAll, plain_ofNode origin child, plainAll_ofNodes origin rest]

end

mutual

theorem prune?_ofNode (dropped : σ → Bool) (origin : σ) :
    ∀ node : Node, prune? dropped (ofNode origin node) =
      if dropped origin then none else some (ofNode origin node)
  | .missing => rfl
  | .node label children => by
      cases taken : dropped origin with
      | true => simp [ofNode, prune?, taken]
      | false => simp [ofNode, prune?, taken, pruneAll_ofNodes dropped origin taken children]

private theorem pruneAll_ofNodes (dropped : σ → Bool) (origin : σ) (kept : dropped origin = false) :
    ∀ nodes : List Node, pruneAll dropped (ofNodes origin nodes) = ofNodes origin nodes
  | [] => rfl
  | child :: rest => by
      rw [ofNodes, pruneAll, prune?_ofNode dropped origin child, kept,
        pruneAll_ofNodes dropped origin kept rest]
      rfl

end

private theorem ofNodes_eq_map (origin : σ) (nodes : List Node) :
    ofNodes origin nodes = nodes.map (ofNode origin) := by
  induction nodes with
  | nil => rfl
  | cons node rest ih => rw [ofNodes, ih, List.map_cons]

/-! ### Parts of some work -/

def fromParts (gives : σ → List Node) (parts : List σ) : List (Marked σ) :=
  parts.flatMap fun part => ofNodes part (gives part)

theorem plainAll_fromParts (gives : σ → List Node) (parts : List σ) :
    plainAll (fromParts gives parts) = parts.flatMap gives := by
  unfold fromParts
  rw [plainAll_eq_map, List.map_flatMap]
  congr 1
  funext part
  rw [← plainAll_eq_map, plainAll_ofNodes]

theorem pruneAll_fromParts (dropped : σ → Bool) (gives : σ → List Node) (parts : List σ) :
    pruneAll dropped (fromParts gives parts) =
      fromParts gives (parts.filter fun part => !dropped part) := by
  unfold fromParts
  induction parts with
  | nil => rfl
  | cons part rest ih =>
      rw [List.flatMap_cons, pruneAll_eq_filterMap, List.filterMap_append,
        ← pruneAll_eq_filterMap, ← pruneAll_eq_filterMap, ih]
      cases taken : dropped part with
      | true =>
          have nothing : pruneAll dropped (ofNodes part (gives part)) = [] := by
            rw [pruneAll_eq_filterMap, ofNodes_eq_map, List.filterMap_eq_nil_iff]
            intro tree member
            obtain ⟨node, _present, same⟩ := List.mem_map.mp member
            rw [← same, prune?_ofNode, taken]
            rfl
          rw [nothing, List.filter_cons_of_neg (by rw [taken]; decide), List.nil_append]
      | false =>
          rw [pruneAll_ofNodes dropped part taken,
            List.filter_cons_of_pos (by rw [taken]; decide), List.flatMap_cons]

end Marked

end SourceOutline
