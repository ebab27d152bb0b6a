import SourceOutline.Proofs.Outline.Nesting
import SourceOutline.Proofs.Value.Fields
import SourceOutline.Tool.Call

set_option autoImplicit false

/-! An outline tells each symbol once, and an answer with an outline counts what it shows. -/

namespace SourceOutline

namespace Outline

mutual

def nodes : Outline → List Outline
  | .node symbol children => .node symbol children :: nodesAll children
termination_by structural outline => outline

def nodesAll : List Outline → List Outline
  | [] => []
  | outline :: rest => nodes outline ++ nodesAll rest
termination_by structural outlines => outlines

end

mutual

theorem map_symbol_nodes :
    ∀ outline : Outline, outline.nodes.map symbol = outline.preorder
  | .node symbol children => by
      rw [nodes, preorder, List.map_cons, map_symbol_nodesAll children]
      rfl

private theorem map_symbol_nodesAll :
    ∀ outlines : List Outline, (nodesAll outlines).map symbol = preorderAll outlines
  | [] => rfl
  | outline :: rest => by
      rw [nodesAll, preorderAll, List.map_append, map_symbol_nodes outline,
        map_symbol_nodesAll rest]

end

private theorem mem_nodesAll {outline : Outline} {outlines : List Outline}
    (member : outline ∈ outlines) : outline ∈ nodesAll outlines := by
  induction outlines with
  | nil => cases member
  | cons first rest ih =>
      rw [nodesAll, List.mem_append]
      rcases List.mem_cons.mp member with here | later
      · left
        rw [here]
        cases first
        exact List.mem_cons_self
      · exact Or.inr (ih later)

private theorem map_symbol_nodesAll_ofSymbols (symbols : List Symbol) :
    (nodesAll (ofSymbols symbols)).map symbol = symbols := by
  rw [map_symbol_nodesAll, preorderAll_ofSymbols]

/-- What has something below it is a container that encloses it. -/
theorem encloses_children (symbols : List Symbol) :
    ∀ outline ∈ nodesAll (ofSymbols symbols), ∀ child ∈ outline.children,
      outline.symbol.kind.isContainer = true ∧
        outline.symbol.span.encloses child.symbol.span = true := by
  induction symbols using nesting_induction with
  | nil =>
      intro outline impossible
      cases impossible
  | leaf symbol rest holds ih =>
      rw [ofSymbols_leaf holds, nodesAll, nodes, List.forall_mem_append, List.forall_mem_cons]
      refine ⟨⟨?_, ?_⟩, ih⟩
      · intro child impossible
        cases impossible
      · intro outline impossible
        cases impossible
  | container symbol rest holds inner outer =>
      rw [ofSymbols_container holds, nodesAll, nodes, List.forall_mem_append,
        List.forall_mem_cons]
      refine ⟨⟨?_, inner⟩, outer⟩
      intro child member
      have named : child.symbol ∈ (nodesAll (ofSymbols (inside symbol rest))).map Outline.symbol :=
        List.mem_map_of_mem (mem_nodesAll member)
      rw [map_symbol_nodesAll_ofSymbols] at named
      exact ⟨holds, encloses_of_mem_inside named⟩

end Outline

/-! ### Outlines in answers -/

namespace Tool

mutual

/-- The number of nodes in an outline as an answer shows it: every object is a node, and the nodes
below it are listed under `children`. -/
def shownNodes : Value → Nat
  | .object fields => 1 + shownBelow fields
  | _ => 0
termination_by structural value => value

def shownNodesAll : List Value → Nat
  | [] => 0
  | value :: rest => shownNodes value + shownNodesAll rest
termination_by structural values => values

def shownUnder : Value → Nat
  | .list items => shownNodesAll items
  | _ => 0
termination_by structural value => value

def shownBelow : List (String × Value) → Nat
  | [] => 0
  | (key, value) :: rest =>
      (if key = "children" then shownUnder value else 0) + shownBelow rest
termination_by structural fields => fields

end

private theorem shownBelow_append (left right : Fields) :
    shownBelow (left ++ right) = shownBelow left + shownBelow right := by
  induction left with
  | nil => exact (Nat.zero_add _).symm
  | cons field rest ih => rw [List.cons_append, shownBelow, shownBelow, ih, Nat.add_assoc]

private theorem shownBelow_textField {key : String} (other : key ≠ "children")
    (text : Option String) :
    shownBelow (Symbol.textField key text) = 0 := by
  unfold Symbol.textField
  split
  · split <;> simp [shownBelow, other]
  · rfl

/-- What is told of a symbol itself does not look like symbols below it. -/
theorem shownBelow_summary (symbol : Symbol) : shownBelow symbol.summary = 0 := by
  unfold Symbol.summary
  rw [shownBelow_append, shownBelow_append, shownBelow_append,
    shownBelow_textField (by decide), shownBelow_textField (by decide)]
  split <;> simp [shownBelow]

mutual

theorem shownNodes_toValue :
    ∀ outline : Outline, shownNodes outline.toValue = outline.preorder.length
  | .node symbol children => by
      rw [Outline.toValue, shownNodes, shownBelow_append, shownBelow_summary, Outline.preorder,
        List.length_cons, ← shownNodesAll_toValues children]
      cases children with
      | nil => rfl
      | cons child rest =>
          simp only [List.isEmpty_cons, Bool.false_eq_true, if_false, shownBelow, if_true,
            shownUnder]
          omega

private theorem shownNodesAll_toValues :
    ∀ outlines : List Outline,
      shownNodesAll (Outline.toValues outlines) = (Outline.preorderAll outlines).length
  | [] => rfl
  | outline :: rest => by
      rw [Outline.toValues, shownNodesAll, Outline.preorderAll, List.length_append,
        shownNodes_toValue outline, shownNodesAll_toValues rest]

end

/-- An answer about the outline of a file is an error, or it tells the outline of some symbols. -/
theorem fileOutline_cases (session : Session) (files : FileTree) (request : FileRequest) :
    (∃ message, (fileOutline session files request).2 = errorAnswer message) ∨
      ∃ tree symbols,
        (fileOutline session files request).2 = outlineAnswer request.path tree symbols := by
  unfold fileOutline
  dsimp only
  split
  · exact Or.inl ⟨_, rfl⟩
  · split
    · exact Or.inl ⟨_, rfl⟩
    · exact Or.inr ⟨_, _, rfl⟩

private theorem fileOutline_of_symbols {session : Session} {files : FileTree}
    {request : FileRequest} {kept : Kept} {symbols : List Symbol}
    (parsed : (session.parseFile files request).result = .ok kept)
    (found : ((session.parseFile files request).session.symbols (some kept.tree)).value =
      .ok symbols) :
    (fileOutline session files request).2 = outlineAnswer request.path kept.tree symbols := by
  unfold fileOutline
  dsimp only
  rw [parsed]
  dsimp only
  rw [found]

end Tool

/-- An outline tells just the given symbols in the given order, and every symbol with something
below it is a container that encloses what is directly below.  So an answer about the outline of a
file is an error, or else it counts as many symbols as it shows; and if the file is parsed and its
symbols are found, the answer tells their number and shows the outline of them. -/
theorem outline_tells_symbols :
    (∀ symbols : List Symbol,
      (Outline.nodesAll (Outline.ofSymbols symbols)).map Outline.symbol = symbols ∧
        ∀ outline ∈ Outline.nodesAll (Outline.ofSymbols symbols), ∀ child ∈ outline.children,
          outline.symbol.kind.isContainer = true ∧
            outline.symbol.span.encloses child.symbol.span = true) ∧
      ∀ (session : Session) (files : FileTree) (request : FileRequest),
        ((∃ message, (Tool.fileOutline session files request).2 = Tool.errorAnswer message) ∨
          ∃ shown,
            Fields.get? (Tool.fileOutline session files request).2 "symbols" =
                some (.list shown) ∧
              Fields.get? (Tool.fileOutline session files request).2 "symbol_count" =
                some (.count (Tool.shownNodesAll shown))) ∧
        ∀ kept symbols, (session.parseFile files request).result = .ok kept →
          ((session.parseFile files request).session.symbols (some kept.tree)).value =
            .ok symbols →
          Fields.get? (Tool.fileOutline session files request).2 "symbols" =
              some (.list (Outline.toValues (Outline.ofSymbols symbols))) ∧
            Fields.get? (Tool.fileOutline session files request).2 "symbol_count" =
              some (.count symbols.length) ∧
            Tool.shownNodesAll (Outline.toValues (Outline.ofSymbols symbols)) =
              symbols.length := by
  have counted (symbols : List Symbol) :
      Tool.shownNodesAll (Outline.toValues (Outline.ofSymbols symbols)) = symbols.length := by
    rw [Tool.shownNodesAll_toValues, Outline.preorderAll_ofSymbols]
  refine ⟨?_, fun session files request => ⟨?_, ?_⟩⟩
  · intro symbols
    exact ⟨Outline.map_symbol_nodesAll_ofSymbols symbols, Outline.encloses_children symbols⟩
  · refine (Tool.fileOutline_cases session files request).imp_right ?_
    rintro ⟨tree, symbols, answer⟩
    refine ⟨Outline.toValues (Outline.ofSymbols symbols), ?_, ?_⟩
    · rw [answer]
      rfl
    · rw [answer, counted]
      rfl
  · intro kept symbols parsed found
    rw [Tool.fileOutline_of_symbols parsed found]
    exact ⟨rfl, rfl, counted symbols⟩

def overlappingClass : List Symbol :=
  [{ (default : Symbol) with kind := .classType, span := ⟨1, 1, 5, 2⟩ },
    { (default : Symbol) with kind := .field, span := ⟨2, 3, 2, 9⟩ },
    { (default : Symbol) with kind := .function, span := ⟨4, 1, 7, 2⟩ }]

def outlineCall : ToolCall where
  tool := "get_file_outline"
  arguments :=
    { path? := some "a.dart"
      content? := some (.plain "class A \x7b\n  int x;\n\x7d") }
  conditions _ := { cpp := { grammar := .withoutHandle }, duration := .null }

private theorem eq_ok_of_toOption {ε α : Type} {result : Except ε α} {value : α}
    (given : result.toOption = some value) : result = .ok value := by
  cases result with
  | error _ => cases given
  | ok other =>
      cases given
      rfl

theorem overlappingClass_tells_symbols :
    ((Outline.nodesAll (Outline.ofSymbols overlappingClass)).map Outline.symbol =
        overlappingClass ∧
      ∃ outline ∈ Outline.nodesAll (Outline.ofSymbols overlappingClass),
        ∃ child ∈ outline.children, outline.symbol.kind.isContainer = true ∧
          outline.symbol.span.encloses child.symbol.span = true) ∧
    ∃ symbols : List Symbol, symbols.map Symbol.name = ["A", "x"] ∧
      Fields.get? (Tool.answer (.ofConfig {}) {} outlineCall).2 "symbols" =
        some (.list (Outline.toValues (Outline.ofSymbols symbols))) ∧
      Fields.get? (Tool.answer (.ofConfig {}) {} outlineCall).2 "symbol_count" =
        some (.count 2) ∧
      Tool.shownNodesAll (Outline.toValues (Outline.ofSymbols symbols)) = 2 := by
  constructor
  · obtain ⟨told, nested⟩ := outline_tells_symbols.1 overlappingClass
    have here : (Outline.nodesAll (Outline.ofSymbols overlappingClass))[0]? =
        some (.node _ [.node _ []]) := rfl
    have member := List.mem_of_getElem? here
    exact ⟨told, _, member, _, List.mem_cons_self, nested _ member _ List.mem_cons_self⟩
  · let request : FileRequest :=
      { path := "a.dart"
        content? := outlineCall.arguments.content?
        conditions := outlineCall.conditions }
    have named : (((Session.ofConfig {}).parseFile {} request).result.toOption.bind fun kept =>
        (((Session.ofConfig {}).parseFile {} request).session.symbols
          (some kept.tree)).value.toOption).map (·.map Symbol.name) = some ["A", "x"] := by
      decide +kernel
    obtain ⟨symbols, given, names⟩ := Option.map_eq_some_iff.mp named
    obtain ⟨kept, parsed, found⟩ := Option.bind_eq_some_iff.mp given
    have length : symbols.length = 2 := by
      rw [← List.length_map Symbol.name, names]
      rfl
    obtain ⟨shown, count, all⟩ := (outline_tells_symbols.2 (.ofConfig {}) {} request).2 kept symbols
      (eq_ok_of_toOption parsed) (eq_ok_of_toOption found)
    rw [length] at count all
    exact ⟨symbols, names, shown, count, all⟩

end SourceOutline
