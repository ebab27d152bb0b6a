import SourceOutline.Cpp.Symbols
import SourceOutline.Proofs.Node.Complete

set_option autoImplicit false

/-! Searches through complete trees.

A search through a tree crashes only where it comes to a place without a node, so in a complete
tree every name is found or told to be absent, and every node has a symbol or is told to declare
nothing. -/

namespace SourceOutline

/-! ### Work that succeeds -/

/-- The work succeeds, and something is true of what it gives. -/
def Yields {ε α : Type} (post : α → Prop) (work : Except ε α) : Prop :=
  ∃ value, work = .ok value ∧ post value

namespace Yields

variable {ε α β : Type} {post : α → Prop} {after : β → Prop}

private theorem ok {value : α} (holds : post value) : Yields post (Except.ok value : Except ε α) :=
  ⟨value, rfl, holds⟩

private theorem bind {work : Except ε α} {next : α → Except ε β} (first : Yields post work)
    (second : ∀ value, post value → Yields after (next value)) : Yields after (work >>= next) := by
  obtain ⟨value, succeeds, holds⟩ := first
  rw [succeeds]
  exact second value holds

end Yields

namespace Cpp

def Found (found? : Option Node) : Prop :=
  ∀ found ∈ found?, found.IsComplete

private theorem Found.none : Found none := by
  intro found impossible
  cases impossible

private theorem Found.some {node : Node} (complete : node.IsComplete) : Found (some node) := by
  intro found same
  cases same
  exact complete

/-! ### Searches -/

private theorem findAmong_yields (tags : List String) (children : List Node)
    (complete : ∀ child ∈ children, child.IsComplete) : Yields Found (findAmong tags children) := by
  induction children with
  | nil => exact .ok .none
  | cons child rest ih =>
      obtain ⟨first, others⟩ := List.forall_mem_cons.mp complete
      cases child with
      | missing => exact absurd first Node.not_isComplete_missing
      | node label children =>
          rw [findAmong]
          split
          · exact .ok (.some first)
          · exact ih others

private theorem child?_yields (tags : List String) {node : Node} (complete : node.IsComplete) :
    Yields Found (child? tags node) :=
  findAmong_yields tags node.children complete.children

mutual

theorem findAt_yields (target : String) (wrappers : List String) :
    ∀ node : Node, node.IsComplete → Yields Found (findAt target wrappers node)
  | .missing, complete => absurd complete Node.not_isComplete_missing
  | .node label children, complete => by
      rw [findAt]
      split
      · exact .ok (.some complete)
      · split
        · exact findThrough_yields target wrappers children
            ((Node.isComplete_node_iff label children).mp complete)
        · exact .ok .none

private theorem findThrough_yields (target : String) (wrappers : List String) :
    ∀ children : List Node, (∀ child ∈ children, child.IsComplete) →
      Yields Found (findThrough target wrappers children)
  | [], _complete => .ok .none
  | child :: rest, complete => by
      obtain ⟨first, others⟩ := List.forall_mem_cons.mp complete
      obtain ⟨found?, found, holds⟩ := findAt_yields target wrappers child first
      rw [findThrough, found]
      cases found? with
      | none => exact findThrough_yields target wrappers rest others
      | some node => exact .ok holds

end

private theorem functionDeclarator?_yields {node : Node} (complete : node.IsComplete) :
    Yields Found (functionDeclarator? node) :=
  findThrough_yields _ _ node.children complete.children

private theorem fieldIdentifier?_yields {node : Node} (complete : node.IsComplete) :
    Yields Found (fieldIdentifier? node) :=
  findThrough_yields _ _ node.children complete.children

private theorem presentChildren_yields {node : Node} (complete : node.IsComplete) :
    Yields (fun present => ∀ child ∈ present, child.IsComplete) (presentChildren node) := by
  rw [presentChildren, Node.any_isMissing complete.children, if_neg Bool.false_ne_true]
  exact .ok complete.children

/-! ### Names -/

abbrev Succeeds {α : Type} (work : Except Crash α) : Prop :=
  Yields (fun _ => True) work

private theorem genericName_succeeds {node : Node} (complete : node.IsComplete) :
    Succeeds (genericName node) := by
  refine (child?_yields _ complete).bind ?_
  rintro (_ | identifier) _found
  · dsimp only
    split <;> exact .ok trivial
  · exact .ok trivial

private theorem functionName_succeeds {declarator : Node} (complete : declarator.IsComplete) :
    Succeeds (functionName declarator) := by
  refine (child?_yields _ complete).bind ?_
  rintro (_ | name) found
  · exact genericName_succeeds complete
  · dsimp only
    split
    · exact .ok trivial
    · split
      · refine (child?_yields _ (found name rfl)).bind ?_
        rintro (_ | identifier) _found <;> exact .ok trivial
      · exact .ok trivial

theorem typeName_succeeds {node : Node} (complete : node.IsComplete) :
    Succeeds (typeName node) := by
  refine (child?_yields _ complete).bind ?_
  rintro (_ | name) _found
  · refine (child?_yields _ complete).bind ?_
    rintro (_ | template) found
    · exact .ok trivial
    · refine (child?_yields _ (found template rfl)).bind ?_
      rintro (_ | name) _found <;> exact .ok trivial
  · exact .ok trivial

private theorem namespaceName_succeeds {node : Node} (complete : node.IsComplete) :
    Succeeds (namespaceName node) := by
  refine (child?_yields _ complete).bind ?_
  rintro (_ | name) _found <;> exact .ok trivial

/-! ### Symbols -/

private theorem virtualTokens_succeeds (nodes : List Node)
    (complete : ∀ node ∈ nodes, node.IsComplete) :
    Succeeds (virtualTokens nodes) := by
  induction nodes with
  | nil => exact .ok trivial
  | cons node rest ih =>
      obtain ⟨first, others⟩ := List.forall_mem_cons.mp complete
      rw [virtualTokens]
      split
      · refine (presentChildren_yields first).bind ?_
        intro _children _present
        refine (ih others).bind ?_
        intro _tokens _succeeds
        exact .ok trivial
      · exact ih others

private theorem qualifiers_succeeds {node declarator : Node} (complete : node.IsComplete)
    (completeToo : declarator.IsComplete) : Succeeds (qualifiers node declarator) := by
  refine (child?_yields _ complete).bind ?_
  intro _marked _found
  refine (presentChildren_yields completeToo).bind ?_
  intro inner innerComplete
  refine (presentChildren_yields complete).bind ?_
  intro outer outerComplete
  refine (virtualTokens_succeeds inner innerComplete).bind ?_
  intro _tokens _succeeds
  refine (virtualTokens_succeeds outer outerComplete).bind ?_
  intro _tokens _succeeds
  exact .ok trivial

private theorem functionSymbol_succeeds (walk : Walk) (scope : Scope) (label : Label)
    {node declarator : Node} (complete : node.IsComplete)
    (completeToo : declarator.IsComplete) :
    Succeeds (functionSymbol walk scope label node declarator) := by
  refine (functionName_succeeds completeToo).bind ?_
  intro _name _succeeds
  dsimp only
  split
  · refine (qualifiers_succeeds complete completeToo).bind ?_
    intro _told _succeeds
    exact .ok trivial
  · exact .ok trivial

private theorem classSymbol?_succeeds (walk : Walk) (scope : Scope) (label : Label) {node : Node}
    (complete : node.IsComplete) : Succeeds (classSymbol? walk scope label node) := by
  refine (child?_yields _ complete).bind ?_
  rintro (_ | body) _found
  · exact .ok trivial
  · refine (typeName_succeeds complete).bind ?_
    intro name _succeeds
    split
    · exact .ok trivial
    · refine (child?_yields _ complete).bind ?_
      intro _bases _found
      exact .ok trivial

private theorem namespaceSymbol?_succeeds (walk : Walk) (label : Label) {node : Node}
    (complete : node.IsComplete) : Succeeds (namespaceSymbol? walk label node) := by
  refine (namespaceName_succeeds complete).bind ?_
  intro name _succeeds
  split <;> exact .ok trivial

private theorem functionSymbol?_succeeds (walk : Walk) (scope : Scope) (label : Label) {node : Node}
    (complete : node.IsComplete) : Succeeds (functionSymbol? walk scope label node) := by
  refine (functionDeclarator?_yields complete).bind ?_
  rintro (_ | declarator) found
  · exact .ok trivial
  · refine (functionSymbol_succeeds walk scope label complete (found declarator rfl)).bind ?_
    intro _symbol _succeeds
    exact .ok trivial

private theorem memberSymbol?_succeeds (walk : Walk) (scope : Scope) (label : Label) {node : Node}
    (complete : node.IsComplete) : Succeeds (memberSymbol? walk scope label node) := by
  refine (functionSymbol?_succeeds walk scope label complete).bind ?_
  rintro (_ | symbol) _succeeds
  · refine (fieldIdentifier?_yields complete).bind ?_
    rintro (_ | identifier) _found <;> exact .ok trivial
  · exact .ok trivial

private theorem templateSubject_succeeds (children : List Node)
    (complete : ∀ child ∈ children, child.IsComplete) : Succeeds (templateSubject children) := by
  induction children with
  | nil => exact .ok trivial
  | cons child rest ih =>
      obtain ⟨first, others⟩ := List.forall_mem_cons.mp complete
      cases child with
      | missing => exact absurd first Node.not_isComplete_missing
      | node label children =>
          rw [templateSubject]
          split
          · refine (child?_yields _ first).bind ?_
            intro _template _found
            refine (typeName_succeeds first).bind ?_
            intro _name _succeeds
            exact .ok trivial
          · split
            · refine (functionDeclarator?_yields first).bind ?_
              rintro (_ | declarator) found
              · exact ih others
              · refine (functionName_succeeds (found declarator rfl)).bind ?_
                intro _name _succeeds
                exact .ok trivial
            · exact ih others

private theorem templateSymbol_succeeds (walk : Walk) (label : Label) {node : Node}
    (complete : node.IsComplete) : Succeeds (templateSymbol walk label node) := by
  refine (templateSubject_succeeds node.children complete.children).bind ?_
  intro _subject _succeeds
  refine (child?_yields _ complete).bind ?_
  intro _parameters _found
  exact .ok trivial

private theorem includeSymbol?_succeeds (walk : Walk) (label : Label) {node : Node}
    (complete : node.IsComplete) : Succeeds (includeSymbol? walk label node) := by
  refine (child?_yields _ complete).bind ?_
  rintro (_ | file) _found <;> exact .ok trivial

/-- Every node of a complete tree has a symbol or is told to declare nothing. -/
theorem symbolOf?_succeeds (walk : Walk) (scope : Scope) (label : Label) {node : Node}
    (complete : node.IsComplete) : Succeeds (symbolOf? walk scope label node) := by
  unfold symbolOf?
  split
  · exact classSymbol?_succeeds walk scope label complete
  split
  · exact namespaceSymbol?_succeeds walk label complete
  split
  · exact functionSymbol?_succeeds walk scope label complete
  split
  · exact memberSymbol?_succeeds walk scope label complete
  split
  · obtain ⟨symbol, succeeds, _⟩ := templateSymbol_succeeds walk label complete
    rw [succeeds]
    exact .ok trivial
  split
  · exact includeSymbol?_succeeds walk label complete
  · exact .ok trivial

end Cpp

end SourceOutline
