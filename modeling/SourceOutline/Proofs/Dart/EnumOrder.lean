import SourceOutline.Proofs.Dart.EnumComment
import SourceOutline.Proofs.Outline.Nearest

set_option autoImplicit false

/-! The values of an enumeration, one behind the other.

The place of a value is put together from the place of the brace, the place of the item behind it
and the place of the name in the item with comments made blank.  None of these moves a character, so
the node of a value covers its name in the file, and the nodes follow one another like the items. -/

namespace SourceOutline

private theorem Node.Covers.endsBefore {source : Source} {start stop otherStart otherStop : Nat}
    {node other : Node} (covers : node.Covers source start stop)
    (otherCovers : other.Covers source otherStart otherStop) (apart : stop ≤ otherStart) :
    node.span.endsBefore other.span = true := by
  have forward := covers.forward
  have otherForward := otherCovers.forward
  have inside := otherCovers.inside
  have last : max start (stop - 1) = stop - 1 := by omega
  -- the last character of the one stands before the first character of the other
  obtain ⟨onward, kept⟩ := @Source.mark_mono source (stop - 1) otherStart (by omega) (by omega)
  have begun : source.lineStart (stop - 1) ≤ stop - 1 := Source.lineStart_le (by omega)
  rw [covers.span, otherCovers.span, Span.endsBefore_iff]
  simp only [Source.spanOf, Source.position, last]
  omega

namespace Dart

/-! ### Values of a node -/

/-- The children of an enumeration stand for its values: each is found where it says and tells the
text that stands there, each is over before the next one starts, and they are counted. -/
structure ListsValues (content : String) (node : Node) : Prop where
  located : ∀ child ∈ node.children, child.tag = "enum_value" ∧ child.IsLocatedIn content
  named : ∀ child ∈ node.children,
    child.metadata.get? "enum_value" = some (.text (child.span.textIn content))
  ordered : node.children.Pairwise fun left right => left.span.endsBefore right.span = true
  counted : node.metadata.get? "value_count" = some (.count node.children.length)

private theorem enumNode_listsValues (source : Source) (found : Match) :
    ListsValues source.content (enumNode source found) := by
  have inside : (source.blockEnd? (found.stop - 1)).getD source.size ≤ source.size := by
    cases closed : source.blockEnd? (found.stop - 1) with
    | none => exact Nat.le_refl _
    | some close => exact Nat.le_of_lt (Source.blockEnd?_bounds closed).2
  have child : ∀ node ∈ (enumNode source found).children,
      node.tag = "enum_value" ∧ node.IsLocatedIn source.content ∧
        node.metadata.get? "enum_value" = some (.text node.value) := by
    intro node member
    obtain ⟨item, listed, made⟩ := List.mem_filterMap.mp member
    obtain ⟨label, first, last, rfl, tag, told, covers, _⟩ :=
      enumValueNode?_covers listed made inside
    refine ⟨tag, covers.isLocatedIn, ?_⟩
    rw [Node.metadata, told]
    rfl
  constructor
  case located =>
    intro node member
    exact ⟨(child node member).1, (child node member).2.1⟩
  case named =>
    intro node member
    rw [← (child node member).2.1.text]
    exact (child node member).2.2
  case ordered =>
    refine List.pairwise_filterMap.mpr ((Text.commaItemsFrom_pairwise 0 0 [] _).1.imp_of_mem ?_)
    intro item later listed listedToo behind node made other madeToo
    obtain ⟨_, _, _, _, _, _, covers, _, early, _⟩ := enumValueNode?_covers listed made inside
    obtain ⟨_, _, _, _, _, _, coversToo, late, _⟩ := enumValueNode?_covers listedToo madeToo inside
    exact covers.endsBefore coversToo (by omega)
  case counted => rfl

/-! ### Trees -/

/-- The nodes of enumerations stand right below the root. -/
theorem mem_children_of_enum {config : Config} {faults : Faults} {content path : String}
    {context : Option Context} {parsed : Parsed}
    (made : (parse config faults content path context).value = .ok parsed) {node : Node}
    (member : node ∈ parsed.tree.root.preorder) (tag : node.tag = "enum_declaration") :
    node ∈ parsed.tree.root.children := by
  obtain ⟨strategy, extraction, _, ran, rfl⟩ := run_of_parsed made
  rcases List.mem_cons.mp member with here | under
  · rw [here] at tag
    exact absurd tag (show "compilation_unit" ≠ "enum_declaration" by decide)
  · obtain ⟨child, listed, below⟩ := (Node.mem_preorderAll _ _).mp under
    obtain ⟨_, _, _, drawn⟩ := Job.exists_drawn ran child listed
    rcases (drawn.below below).2.2 with same | other
    · rw [same]
      exact listed
    · exact absurd (tag ▸ List.mem_cons_self) other

/-- In every tree of a file, the children of each enumeration stand for the values in its list: each
covers the name of its value in the file and tells it, and they follow one another. -/
theorem parse_values_named {config : Config} {faults : Faults} {content path : String}
    {context : Option Context} {parsed : Parsed}
    (made : (parse config faults content path context).value = .ok parsed) {node : Node}
    (member : node ∈ parsed.tree.root.preorder) (tag : node.tag = "enum_declaration") :
    ListsValues content node ∧
      node.children.map Node.value =
        (valueNames (valueList (.ofContent content) (node.span.startIn content))).map
          String.ofList := by
  obtain ⟨_, pass, found, _, listed, kept, rfl⟩ :=
    header_of_enum made (mem_children_of_enum made member tag) tag
  have inside : pass.stop ≤ (Source.ofContent content).size := Job.stop_le_of_mem_passes listed
  obtain ⟨starts, first, opens, _⟩ := enumNode_starts inside (mem_of_mem_takeCap kept)
  have values := enumNode_listsValues (.ofContent content) found
  refine ⟨values, ?_⟩
  rw [show (enumNode (.ofContent content) found).span.startIn content = found.start from starts]
  have told : (enumNode (.ofContent content) found).children.map
      (fun child => some (Value.text child.value)) =
        (enumNode (.ofContent content) found).children.map
          fun child => child.metadata.get? "enum_value" := by
    refine List.map_congr_left fun child below => ?_
    rw [values.named child below, (values.located child below).2.text]
  have names := told.trans (congrArg Prod.fst (reportedValues_enumNode first))
  refine (List.map_inj_right fun left right same => Value.text.inj (Option.some.inj same)).mp ?_
  rw [List.map_map, List.map_map]
  exact names

/-- A comment before a value, and arguments behind it. -/
theorem commented_values_named :
    let content := "enum E \x7b a, /* x */ b(1) \x7d"
    ∃ parsed node, (parse {} {} content "a.dart" none).value = .ok parsed ∧
      node ∈ parsed.tree.root.preorder ∧ node.tag = "enum_declaration" ∧
      ListsValues content node ∧ node.children.map Node.value = ["a", "b"] := by
  intro content
  have admits : Admits {} content .full := ⟨by decide +kernel, by decide +kernel⟩
  obtain ⟨parsed, node, made, declared, tag, start, _⟩ :=
    @exists_parsed_enum _ admits ⟨_, rfl, by decide +kernel⟩ 2 (by decide +kernel)
  have member := Node.mem_preorder_of_mem_children declared
  obtain ⟨lists, values⟩ := parse_values_named made member tag
  refine ⟨parsed, node, made, member, tag, lists, values.trans ?_⟩
  rw [start]
  decide +kernel

end Dart

end SourceOutline
