import SourceOutline.Proofs.Outline.Line
import SourceOutline.Symbol.Named

set_option autoImplicit false

/-! The shape of a tree: what its nodes declare, nested as the nodes are.

Every node of the tree lies in the node above it exactly if the outline of the symbols keeps each of
them in the containers that it has in the tree. -/

namespace SourceOutline

namespace Node

mutual

/-- Every node lies within the span of the node above it. -/
def IsNested : Node → Prop
  | .missing => True
  | .node label children =>
      (∀ child ∈ children, label.span.encloses child.span = true) ∧ AreNested children
termination_by structural node => node

def AreNested : List Node → Prop
  | [] => True
  | child :: rest => IsNested child ∧ AreNested rest
termination_by structural children => children

end

mutual

def decidableIsNested : ∀ node : Node, Decidable (IsNested node)
  | .missing => isTrue trivial
  | .node label children =>
      have := decidableAreNested children
      inferInstanceAs (Decidable
        ((∀ child ∈ children, label.span.encloses child.span = true) ∧ AreNested children))
termination_by structural node => node

def decidableAreNested : ∀ children : List Node, Decidable (AreNested children)
  | [] => isTrue trivial
  | child :: rest =>
      have := decidableIsNested child
      have := decidableAreNested rest
      inferInstanceAs (Decidable (IsNested child ∧ AreNested rest))
termination_by structural children => children

end

instance (node : Node) : Decidable (IsNested node) := decidableIsNested node

mutual

/-- What the nodes of a tree declare, nested as the nodes are. -/
def shape (symbol? : Label → Option Symbol) : Node → List Outline
  | .missing => []
  | .node label children =>
      match symbol? label with
      | none => shapes symbol? children
      | some symbol => [.node symbol (shapes symbol? children)]
termination_by structural node => node

def shapes (symbol? : Label → Option Symbol) : List Node → List Outline
  | [] => []
  | child :: rest => shape symbol? child ++ shapes symbol? rest
termination_by structural children => children

end

mutual

/-- Every node declares something, and what has nodes below it is a container. -/
def Declares (symbol? : Label → Option Symbol) : Node → Prop
  | .missing => False
  | .node label children =>
      (∃ symbol, symbol? label = some symbol ∧
        (children ≠ [] → symbol.kind.isContainer = true)) ∧ AllDeclare symbol? children
termination_by structural node => node

def AllDeclare (symbol? : Label → Option Symbol) : List Node → Prop
  | [] => True
  | child :: rest => Declares symbol? child ∧ AllDeclare symbol? rest
termination_by structural children => children

end

theorem areNested_iff (children : List Node) :
    AreNested children ↔ ∀ child ∈ children, IsNested child := by
  induction children with
  | nil => simp [AreNested]
  | cons child rest ih => rw [AreNested, ih, List.forall_mem_cons]

theorem allDeclare_iff (symbol? : Label → Option Symbol) (children : List Node) :
    AllDeclare symbol? children ↔ ∀ child ∈ children, Declares symbol? child := by
  induction children with
  | nil => simp [AllDeclare]
  | cons child rest ih => rw [AllDeclare, ih, List.forall_mem_cons]

/-! ### The symbols of a shape -/

theorem preorderAll_append (left right : List Outline) :
    Outline.preorderAll (left ++ right) =
      Outline.preorderAll left ++ Outline.preorderAll right := by
  induction left with
  | nil => rfl
  | cons outline rest ih =>
      rw [List.cons_append, Outline.preorderAll, Outline.preorderAll, ih, List.append_assoc]

mutual

theorem preorderAll_shape (symbol? : Label → Option Symbol) :
    ∀ node : Node, Outline.preorderAll (shape symbol? node) =
      node.preorder.filterMap fun node => node.label?.bind symbol?
  | .missing => rfl
  | .node label children => by
      have below := preorderAll_shapes symbol? children
      rw [shape, preorder]
      cases declared : symbol? label with
      | none =>
          exact below.trans (List.filterMap_cons_none (a := Node.node label children) declared).symm
      | some symbol =>
          refine Eq.trans ?_
            (List.filterMap_cons_some (a := Node.node label children) declared).symm
          rw [← below]
          exact List.append_nil _

theorem preorderAll_shapes (symbol? : Label → Option Symbol) :
    ∀ children : List Node, Outline.preorderAll (shapes symbol? children) =
      (preorderAll children).filterMap fun node => node.label?.bind symbol?
  | [] => rfl
  | child :: rest => by
      rw [shapes, preorderAll, List.filterMap_append, preorderAll_append,
        preorderAll_shape symbol? child, preorderAll_shapes symbol? rest]

end

mutual

theorem present_of_declares (symbol? : Label → Option Symbol) :
    ∀ node : Node, Declares symbol? node → ∀ below ∈ node.preorder, below.isMissing = false
  | .missing, declares => absurd declares (by rw [Declares]; exact id)
  | .node label children, declares => by
      rw [Declares] at declares
      rw [preorder]
      exact List.forall_mem_cons.mpr ⟨rfl, present_of_allDeclare symbol? children declares.2⟩

theorem present_of_allDeclare (symbol? : Label → Option Symbol) :
    ∀ children : List Node, AllDeclare symbol? children →
      ∀ below ∈ preorderAll children, below.isMissing = false
  | [], _declare => by
      intro below impossible
      cases impossible
  | child :: rest, declare => by
      rw [AllDeclare] at declare
      rw [preorderAll]
      exact List.forall_mem_append.mpr ⟨present_of_declares symbol? child declare.1,
        present_of_allDeclare symbol? rest declare.2⟩

end

/-! ### Lines of a shape -/

def Holds (around : List Symbol) (span : Span) : Prop :=
  ∀ container ∈ around,
    container.kind.isContainer = true ∧ container.span.encloses span = true

mutual

theorem shape_within_iff {symbol? : Label → Option Symbol}
    (spans : ∀ label symbol, symbol? label = some symbol → symbol.span = label.span) :
    ∀ (node : Node) (around : List Symbol), Declares symbol? node →
      ((∀ line ∈ Outline.linesAll around (shape symbol? node), Outline.Within line) ↔
        Holds around node.span ∧ IsNested node)
  | .missing, _around, declares => absurd declares (by rw [Declares]; exact id)
  | .node label children, around, declares => by
      rw [Declares] at declares
      obtain ⟨⟨symbol, declared, container⟩, others⟩ := declares
      have span := spans label symbol declared
      have below := shapes_within_iff spans children (symbol :: around) others
      rw [shape, declared]
      dsimp only
      rw [Outline.linesAll_single, Outline.lines, List.forall_mem_cons, below, IsNested,
        areNested_iff]
      change (Holds around symbol.span ∧ _) ↔ Holds around label.span ∧ _
      rw [span]
      refine and_congr_right fun held => ?_
      constructor
      · intro inside
        refine ⟨fun child member => ?_, fun child member => (inside child member).2⟩
        rw [← span]
        exact ((inside child member).1 symbol List.mem_cons_self).2
      · rintro ⟨encloses, nested⟩ child member
        have here := encloses child member
        -- the containers further out enclose the child through its parent
        refine ⟨List.forall_mem_cons.mpr ⟨⟨?_, ?_⟩, fun outer inside => ?_⟩, nested child member⟩
        · exact container (List.ne_nil_of_mem member)
        · rw [span]
          exact here
        · exact ⟨(held outer inside).1, Span.encloses_trans (held outer inside).2 here⟩

private theorem shapes_within_iff {symbol? : Label → Option Symbol}
    (spans : ∀ label symbol, symbol? label = some symbol → symbol.span = label.span) :
    ∀ (children : List Node) (around : List Symbol), AllDeclare symbol? children →
      ((∀ line ∈ Outline.linesAll around (shapes symbol? children), Outline.Within line) ↔
        ∀ child ∈ children, Holds around child.span ∧ IsNested child)
  | [], _around, _declare => by
      rw [shapes, Outline.linesAll]
      simp
  | child :: rest, around, declare => by
      rw [AllDeclare] at declare
      rw [shapes, Outline.linesAll_append, List.forall_mem_append, List.forall_mem_cons,
        shape_within_iff spans child around declare.1,
        shapes_within_iff spans rest around declare.2]

end

end Node

/-! ### Trees -/

/-- Nodes with nothing below them declare symbols with nothing below them. -/
theorem Node.shapes_leaves (symbol? : Label → Option Symbol) {nodes : List Node}
    (leaves : ∀ node ∈ nodes, ∃ label, node = .node label []) :
    shapes symbol? nodes =
      (nodes.filterMap fun node => node.label?.bind symbol?).map (.node · []) := by
  induction nodes with
  | nil => rfl
  | cons node rest ih =>
      obtain ⟨⟨label, rfl⟩, others⟩ := List.forall_mem_cons.mp leaves
      rw [shapes, ih others, shape]
      cases declared : symbol? label with
      | none => simp [label?, declared, shapes]
      | some symbol => simp [label?, declared, shapes]

theorem Node.shape_of_silent {symbol? : Label → Option Symbol} {children : List Node}
    (silent : shapes symbol? children = []) (label : Label) :
    shape symbol? (.node label children) = (symbol? label).toList.map (.node · []) := by
  rw [shape, silent]
  cases symbol? label with
  | none => rfl
  | some symbol => rfl

theorem Node.mem_shapes {symbol? : Label → Option Symbol} {nodes : List Node} {outline : Outline} :
    outline ∈ shapes symbol? nodes ↔ ∃ node ∈ nodes, outline ∈ shape symbol? node := by
  induction nodes with
  | nil => simp [shapes]
  | cons node rest ih => simp [shapes, ih]

/-- The lines of a node are among those of the nodes beside it. -/
theorem Node.mem_linesAll_shapes {symbol? : Label → Option Symbol} {around line : List Symbol}
    {node : Node} {nodes : List Node} (member : node ∈ nodes)
    (here : line ∈ Outline.linesAll around (shape symbol? node)) :
    line ∈ Outline.linesAll around (shapes symbol? nodes) := by
  induction nodes with
  | nil => cases member
  | cons first rest ih =>
      rw [shapes, Outline.linesAll_append]
      rcases List.mem_cons.mp member with same | later
      · rw [← same]
        exact List.mem_append_left _ here
      · exact List.mem_append_right _ (ih later)

/-- Every symbol is made from the label that declares it. -/
theorem NodeReading.symbol?_eq_ofLabel {reading : NodeReading} {path language : String}
    {label : Label} {symbol : Symbol}
    (declared : reading.symbol? path language label = some symbol) :
    ∃ name kind signature visibility metadata,
      symbol = Symbol.ofLabel label name kind path language signature visibility metadata := by
  unfold symbol? at declared
  split at declared
  · cases declared
  · split at declared
    · cases declared
    · obtain ⟨kind, _kind, same⟩ := Option.map_eq_some_iff.mp declared
      exact ⟨_, kind, _, _, _, same.symm⟩

theorem NodeReading.symbol?_span (reading : NodeReading) (path language : String) (label : Label)
    (symbol : Symbol) (declared : reading.symbol? path language label = some symbol) :
    symbol.span = label.span := by
  obtain ⟨_, _, _, _, _, rfl⟩ := symbol?_eq_ofLabel declared
  rfl

theorem NodeReading.symbol?_eq_none (reading : NodeReading) (path language : String)
    {label : Label} (silent : reading.kind? label = none) :
    reading.symbol? path language label = none := by
  unfold symbol?
  split
  · rfl
  · split
    · rfl
    · rw [silent, Option.map_none]

def NodeReading.symbolOf? (reading : NodeReading) (tree : Tree) (node : Node) : Option Symbol :=
  node.label?.bind (reading.symbol? tree.path tree.language)

def NodeReading.shapes (reading : NodeReading) (tree : Tree) : List Outline :=
  Node.shapes (reading.symbol? tree.path tree.language) tree.root.children

/-- The symbols of a tree whose root declares nothing are those of its shapes. -/
theorem NodeReading.symbols_eq_preorderAll (reading : NodeReading) {tree : Tree} {label : Label}
    {children : List Node} (root : tree.root = .node label children)
    (silent : reading.symbol? tree.path tree.language label = none)
    (present : ∀ below ∈ Node.preorderAll children, below.isMissing = false) :
    reading.symbols tree = .ok (Outline.preorderAll (reading.shapes tree)) := by
  have none : tree.root.preorder.any Node.isMissing = false := by
    rw [root, Node.preorder, List.any_cons, List.any_eq_false.mpr]
    · rfl
    · intro below member
      rw [present below member]
      exact Bool.false_ne_true
  unfold NodeReading.symbols NodeReading.shapes
  dsimp only
  rw [none, if_neg Bool.false_ne_true, Node.preorderAll_shapes, root, Node.preorder]
  exact congrArg Except.ok (List.filterMap_cons_none (a := Node.node label children) silent)

/-- If only the root of a tree declares nothing and nothing leaves the root, then the nodes of the
tree are nested exactly if its outline keeps each symbol in all its containers. -/
theorem NodeReading.outline_iff (reading : NodeReading) {tree : Tree} {label : Label}
    {children : List Node} (root : tree.root = .node label children)
    (silent : reading.symbol? tree.path tree.language label = none)
    (declare : Node.AllDeclare (reading.symbol? tree.path tree.language) children)
    (covered : ∀ child ∈ children, label.span.encloses child.span = true) :
    ∃ found, reading.symbols tree = .ok found ∧
      (List.Forall₂ Outline.Kept (Outline.linesAll [] (reading.shapes tree))
          (Outline.linesAll [] (Outline.ofSymbols found)) ↔ tree.root.IsNested) ∧
      (Outline.linesAll [] (Outline.ofSymbols found) =
          Outline.linesAll [] (reading.shapes tree) ↔
        tree.root.IsNested ∧ Outline.ApartAll none (reading.shapes tree)) := by
  have shapes : reading.shapes tree =
      Node.shapes (reading.symbol? tree.path tree.language) children := by
    rw [NodeReading.shapes, root]
    rfl
  have found := reading.symbols_eq_preorderAll root silent
    (Node.present_of_allDeclare _ children declare)
  have nested : tree.root.IsNested ↔
      ∀ line ∈ Outline.linesAll [] (reading.shapes tree), Outline.Within line := by
    rw [shapes, Node.shapes_within_iff (reading.symbol?_span _ _) children [] declare, root,
      Node.IsNested, Node.areNested_iff]
    refine ⟨fun nested child member => ⟨?_, nested.2 child member⟩,
      fun nested => ⟨covered, fun child member => (nested child member).2⟩⟩
    intro container impossible
    cases impossible
  refine ⟨_, found, ?_, ?_⟩
  · rw [nested]
    exact Outline.forall₂_kept_iff _
  · rw [nested]
    exact Outline.linesAll_ofSymbols_eq_iff _

end SourceOutline
