import SourceOutline.Proofs.Config.Limits
import SourceOutline.Proofs.Cpp.Walk

set_option autoImplicit false

/-! The symbols of a complete C++ tree, told from the way to each node.

In a complete tree no place without a node is looked at, so the walk does not fail and comes to the
symbols of all nodes, each in the scope that the way to it makes. -/

namespace SourceOutline.Cpp

/-! ### Complete trees -/

mutual

private theorem complete_of_mem_occurrences :
    ∀ (node : Node) (above : List Ancestor), node.IsComplete →
      ∀ occurrence ∈ occurrences above node, occurrence.node.IsComplete
  | .missing, _above, complete => absurd complete Node.not_isComplete_missing
  | .node label children, above, complete => by
      intro occurrence member
      rcases List.mem_cons.mp member with here | below
      · rw [here]
        exact complete
      · exact complete_of_mem_occurrencesFrom children above (.node label children) 0
          ((Node.isComplete_node_iff label children).mp complete) occurrence below

theorem complete_of_mem_occurrencesFrom :
    ∀ (children : List Node) (above : List Ancestor) (parent : Node) (place : Nat),
      (∀ child ∈ children, child.IsComplete) →
      ∀ occurrence ∈ occurrencesFrom above parent place children, occurrence.node.IsComplete
  | [], _above, _parent, _place, _complete => by
      intro occurrence impossible
      cases impossible
  | child :: rest, above, parent, place, complete => by
      obtain ⟨first, others⟩ := List.forall_mem_cons.mp complete
      intro occurrence member
      rcases List.mem_append.mp member with here | later
      · split at here
        · cases here
        · exact complete_of_mem_occurrences child _ first occurrence here
      · exact complete_of_mem_occurrencesFrom rest above parent (place + 1) others occurrence later

end

private theorem symbol?_succeeds (walk : Walk) {occurrence : Occurrence}
    (complete : occurrence.node.IsComplete) : Succeeds (occurrence.symbol? walk) := by
  obtain ⟨above, node⟩ := occurrence
  cases node with
  | missing => exact absurd complete Node.not_isComplete_missing
  | node label children => exact symbolOf?_succeeds walk _ label complete

private theorem isCalm_of_complete (walk : Walk) {occurrence : Occurrence}
    (complete : occurrence.node.IsComplete) : occurrence.IsCalm walk.showsVirtual := by
  obtain ⟨above, node⟩ := occurrence
  cases node with
  | missing => exact absurd complete Node.not_isComplete_missing
  | node label children =>
      refine ⟨rfl, ?_⟩
      unfold Occurrence.looksAtMissing
      by_cases body : label.tag = "field_declaration_list"
      · rw [lookedAt_body _ _ body]
        exact Node.any_isMissing ((Node.isComplete_node_iff label children).mp complete)
      · have looks := entered_looks walk (scopeAt above) children body
        rw [enter_scopeAt complete body 0] at looks
        obtain ⟨symbol, found, _⟩ := symbolOf?_succeeds walk
          (scopeAt (⟨.node label children, 0⟩ :: above)) label complete
        exact looks.misses_of_ok found

/-- The walk over a complete tree comes to the symbols of all nodes, each in the scope that the way
to it makes. -/
theorem events_eq (walk : Walk) (node : Node) (above : List Ancestor)
    (complete : node.IsComplete) :
    events walk (scopeAt above) node =
      ((occurrences above node).filterMap (Occurrence.declared? walk)).map .ok := by
  have calm : ∀ occurrence ∈ occurrences above node, occurrence.IsCalm walk.showsVirtual :=
    fun occurrence member =>
      isCalm_of_complete walk (complete_of_mem_occurrences node above complete occurrence member)
  apply eq_of_upToFailure
  rw [upToFailure_events, flatMap_events_of_calm calm, upToFailure_map_ok]

/-! ### The limit -/

private theorem collect_ok (limit : Nat) (found : List Symbol) :
    ∀ count < limit, ∃ reached,
      collect limit count (found.map .ok) = .ok (found.take (limit - count), reached) := by
  induction found with
  | nil =>
      intro count _room
      exact ⟨false, by rw [List.take_nil]; rfl⟩
  | cons symbol rest ih =>
      intro count room
      rw [List.map_cons, collect]
      split
      · have last : limit - count = 1 := by omega
        exact ⟨true, by rw [last]; rfl⟩
      · obtain ⟨reached, collected⟩ := ih (count + 1) (by omega)
        have more : limit - count = limit - (count + 1) + 1 := by omega
        rw [collected, more]
        exact ⟨reached, rfl⟩

/-- The symbols of a complete tree are those of its nodes, every node before its children and each
in the scope that the way to it makes, up to the limit. -/
theorem symbols_eq_occurrences (config : Config) (tree : Tree) (complete : tree.root.IsComplete)
    (positive : 0 < config.performance.maxSymbols) :
    let walk : Walk := ⟨tree.path, config.cpp.enableVirtualDetection⟩
    (∀ occurrence ∈ occurrences [] tree.root,
        ∃ symbol?, occurrence.symbol? walk = .ok symbol?) ∧
      (symbols config tree).value =
        .ok (((occurrences [] tree.root).filterMap (Occurrence.declared? walk)).take
          config.performance.maxSymbols) := by
  intro walk
  constructor
  · intro occurrence member
    obtain ⟨symbol?, found, _⟩ := symbol?_succeeds walk
      (complete_of_mem_occurrences tree.root [] complete occurrence member)
    exact ⟨symbol?, found⟩
  · have walked : events walk {} tree.root = _ := events_eq walk tree.root [] complete
    obtain ⟨reached, collected⟩ := collect_ok config.performance.maxSymbols
      ((occurrences [] tree.root).filterMap (Occurrence.declared? walk)) 0 positive
    rw [symbols_value, walked, collected]
    rfl

/-! ### A class in a class, and a label around a member -/

def branch (tag value : String) (children : List Node) : Node :=
  .node { id := "", tag := tag, value := value } children

def treeOf (root : Node) : Tree where
  language := "cpp"
  content := ""
  hash := ""
  root := root
  path := "a.cpp"

def fieldNamed (name : String) : Node :=
  branch "field_declaration" ("int " ++ name ++ ";") [branch "field_identifier" name []]

/-- A class with a field, a public struct that has a label of its own, and a field behind it. -/
def nestedClass : Tree :=
  treeOf <| branch "class_specifier" "" [
    branch "type_identifier" "Outer" [],
    branch "field_declaration_list" "" [
      fieldNamed "first",
      branch "access_specifier" "public" [],
      branch "field_declaration" "" [
        branch "struct_specifier" "" [
          branch "type_identifier" "Inner" [],
          branch "field_declaration_list" "" [
            branch "access_specifier" "protected" [],
            fieldNamed "inner"]]],
      fieldNamed "last"]]

def fourSymbols : Value :=
  .object [("performance", .object [("max_symbols", .integer 4)])]

theorem symbols_nestedClass :
    ∃ config, Config.load fourSymbols = .ok config ∧ config.performance.maxSymbols = 4 ∧
      nestedClass.root.IsComplete ∧
      (symbols config nestedClass).value =
        .ok (((occurrences [] nestedClass.root).filterMap
          (Occurrence.declared? ⟨"a.cpp", config.cpp.enableVirtualDetection⟩)).take 4) := by
  have limit : (Config.load fourSymbols).toOption.map
      (fun config => config.performance.maxSymbols) = some 4 := by decide +kernel
  have complete : nestedClass.root.IsComplete := by
    unfold Node.IsComplete
    decide +kernel
  cases loaded : Config.load fourSymbols with
  | error error =>
      rw [loaded] at limit
      cases limit
  | ok config =>
      rw [loaded] at limit
      have four : config.performance.maxSymbols = 4 := Option.some.inj limit
      have found := (symbols_eq_occurrences config nestedClass complete
        (Config.maxSymbols_pos_of_load loaded)).2
      rw [four] at found
      exact ⟨config, rfl, four, complete, found⟩

/-- A class without a body, in which a label is around a member. -/
def labelledMember : Tree :=
  treeOf <| branch "class_specifier" "" [
    branch "type_identifier" "A" [],
    branch "access_specifier" "public" [fieldNamed "x"]]

/-- Classes and bodies alone would make the member private, but the label around it counts. -/
theorem label_around_member_counts :
    labelledMember.root.IsComplete ∧
      (∃ occurrence ∈ occurrences [] labelledMember.root,
        occurrence.node = fieldNamed "x" ∧
          (occurrence.above.findSome? Ancestor.bodyAccess?).getD "public" = "private") ∧
      ((symbols {} labelledMember).value.toOption.map fun found =>
        found.map fun symbol => (symbol.name, symbol.visibility)) =
          some [("x", some "public")] := by
  refine ⟨?_, ?_, by rw [symbols_value]; decide +kernel⟩
  · unfold Node.IsComplete
    decide +kernel
  · refine ⟨⟨[⟨branch "access_specifier" "public" [fieldNamed "x"], 0⟩,
      ⟨labelledMember.root, 1⟩], fieldNamed "x"⟩, ?_, rfl, by decide +kernel⟩
    simp [labelledMember, treeOf, branch, fieldNamed, occurrences, occurrencesFrom, isBodyLabel,
      Node.tag]

end SourceOutline.Cpp
