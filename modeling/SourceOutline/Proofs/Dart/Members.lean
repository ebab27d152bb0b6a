import SourceOutline.Proofs.Dart.Complete
import SourceOutline.Proofs.Dart.Parts
import SourceOutline.Proofs.Outline.Shape

set_option autoImplicit false

/-! Members of Dart classes and values of enumerations.

What stands below a class lies behind the brace that opens it and does not go beyond its end.  So in
the outline every member is directly in the symbol of its own class. -/

namespace SourceOutline

structure Node.OpensAt (content : String) (node : Node) (opening : Nat) : Prop where
  behind : node.span.startIn content ≤ opening
  brace : content.toList[opening]? = some '{'
  first : ∀ place, node.span.startIn content ≤ place → place < opening →
    content.toList[place]? ≠ some '{'

namespace Dart

section

variable {source : Source}

private theorem Braced.le {start opening stop : Nat} (braced : Braced source start opening stop) :
    start ≤ opening := by
  rw [← braced.first]
  exact Pattern.spanEnd_ge _ _ _ _

private theorem Braced.opensAt {start opening stop : Nat}
    (braced : Braced source start opening stop)
    {node : Node} (covers : node.Covers source start stop) :
    node.OpensAt source.content opening := by
  have read (place : Nat) : source.content.toList[place]? = source.text[place]? := by
    rw [source.content_toList, Array.getElem?_toList]
  constructor
  · rw [covers.startIn]
    exact braced.le
  · rw [read]
    exact braced.opens
  · intro place behind before
    rw [covers.startIn] at behind
    rw [← braced.first] at before
    rw [read]
    intro here
    obtain ⟨c, same, other⟩ :=
      Pattern.acceptedAt_iff.mp ((Pattern.takes_spanEnd _ _ start).2 place behind before)
    cases here.symm.trans same
    cases other

private theorem StandsBetween.bounds {low high : Nat} {label : Label}
    (stands : StandsBetween source low high label) :
    low ≤ label.span.startIn source.content ∧ label.span.stopIn source.content ≤ high := by
  obtain ⟨start, stop, covers, after, before⟩ := stands
  refine ⟨?_, ?_⟩
  · exact Nat.le_trans after (Nat.le_of_eq covers.startIn.symm)
  · exact Nat.le_trans (Nat.le_of_eq covers.stopIn) before

/-- A class encloses what stands behind its brace and not beyond its end. -/
theorem StandsBetween.enclosed {start opening stop : Nat} {node : Node}
    (covers : node.Covers source start stop) (braced : Braced source start opening stop)
    {label : Label} (stands : StandsBetween source (opening + 1) stop label) :
    node.span.encloses label.span = true := by
  obtain ⟨first, last, own, after, before⟩ := stands
  have same : label.span = source.spanOf first last := own.span
  have behind := braced.le
  rw [covers.span, same, Source.spanOf_encloses_iff covers.forward covers.inside own.forward
    own.inside]
  omega

private theorem Drawn.members_placed {withMembers : Bool} {step : Step} {node : Node}
    (drawn : Drawn source withMembers step node) (tag : node.tag ∈ classTags) :
    ∃ opening, node.OpensAt source.content opening ∧ ∀ child ∈ node.children,
      opening < child.span.startIn source.content ∧
        child.span.stopIn source.content ≤ node.span.stopIn source.content ∧
        node.span.encloses child.span = true := by
  cases drawn with
  | plain _ other => exact absurd (List.mem_cons_of_mem _ tag) other
  | enumType _ _ other =>
      rw [Node.tag, other] at tag
      exact absurd tag (by decide)
  | classType covers braced _ _ below =>
      refine ⟨_, braced.opensAt covers, fun child listed => ?_⟩
      obtain ⟨stands, _, _⟩ := below child listed
      obtain ⟨after, before⟩ := stands.bounds
      exact ⟨after, Nat.le_trans before (Nat.le_of_eq covers.stopIn.symm),
        stands.enclosed covers braced⟩

private theorem Drawn.values_placed {withMembers : Bool} {step : Step} {node : Node}
    (drawn : Drawn source withMembers step node) (tag : node.tag = "enum_declaration") :
    ∃ opening close, node.OpensAt source.content opening ∧ source.BlockEnds opening close ∧
      ∀ child ∈ node.children, child.tag = "enum_value" ∧
        opening < child.span.startIn source.content ∧
        child.span.stopIn source.content ≤ close := by
  cases drawn with
  | plain _ other =>
      rw [Node.tag] at tag
      exact absurd (tag ▸ List.mem_cons_self) other
  | classType _ _ other =>
      rw [Node.tag] at tag
      rw [tag] at other
      exact absurd other (by decide)
  | enumType covers braced _ below =>
      refine ⟨_, _, braced.opensAt covers, Source.blockEnds_blockEnd? braced.opens, ?_⟩
      intro child listed
      obtain ⟨stands, value⟩ := below child listed
      exact ⟨value, stands.bounds⟩

/-! ### Outlines -/

private theorem IsMember.symbol? {opening stop : Nat} {child : Node}
    (member : IsMember source opening stop child) (path language : String) :
    ∃ label symbol, child = .node label [] ∧
      reading.symbol? path language label = some symbol ∧ symbol.kind.isContainer = false ∧
      StandsBetween source (opening + 1) stop label := by
  obtain ⟨stands, declares, inner⟩ := member
  obtain ⟨symbol, read, kind⟩ := declares.symbol? path language
  exact ⟨_, symbol, rfl, read, kind ▸ inner, stands⟩

private theorem IsValue.symbol?_eq_none {opening stop : Nat} {child : Node}
    (value : IsValue source opening stop child) (path language : String) :
    child.label?.bind (reading.symbol? path language) = none := by
  obtain ⟨_, tag⟩ := value
  apply reading.symbol?_eq_none
  unfold reading kind?
  dsimp only
  rw [tag]
  rfl

/-- A class has a symbol, and all that stands below it are members of that symbol. -/
theorem shape_of_members {label : Label} {members : List Node} {start opening stop : Nat}
    (covers : (Node.node label members).Covers source start stop)
    (braced : Braced source start opening stop)
    (declares : ∃ kind, Declares label kind ∧ kind.isContainer = true)
    (below : ∀ member ∈ members, IsMember source opening stop member) (path language : String) :
    ∃ own, reading.symbol? path language label = some own ∧
      Node.shape (reading.symbol? path language) (.node label members) =
        [.node own ((members.filterMap fun member =>
          member.label?.bind (reading.symbol? path language)).map (.node · []))] ∧
      (Outline.node own ((members.filterMap fun member =>
          member.label?.bind (reading.symbol? path language)).map (.node · []))).IsFlat := by
  obtain ⟨kind, declares, container⟩ := declares
  obtain ⟨own, read, same⟩ := declares.symbol? path language
  refine ⟨own, read, ?_, .members (same ▸ container) ?_⟩
  · rw [Node.shape, read]
    dsimp only
    rw [Node.shapes_leaves]
    intro member listed
    obtain ⟨label, _, leaf, _⟩ := (below member listed).symbol? path language
    exact ⟨label, leaf⟩
  · intro symbol listed
    obtain ⟨member, given, declared⟩ := List.mem_filterMap.mp listed
    obtain ⟨inner, other, rfl, known, leaf, stands⟩ := (below member given).symbol? path language
    cases declared.symm.trans known
    refine ⟨leaf, ?_⟩
    rw [reading.symbol?_span path language label own read,
      reading.symbol?_span path language inner symbol known]
    exact StandsBetween.enclosed covers braced stands

private theorem shapes_of_values {opening stop : Nat} {values : List Node}
    (below : ∀ value ∈ values, IsValue source opening stop value) (path language : String) :
    Node.shapes (reading.symbol? path language) values = [] := by
  have leaves : ∀ value ∈ values, ∃ label, value = .node label [] := by
    intro value listed
    cases below value listed
    exact ⟨_, rfl⟩
  rw [Node.shapes_leaves _ leaves, List.map_eq_nil_iff, List.filterMap_eq_nil_iff]
  exact fun value listed => (below value listed).symbol?_eq_none path language

/-- What is no class declares at most one symbol; a class declares one with its members. -/
theorem Drawn.shape_cases {withMembers : Bool} {step : Step} {node : Node}
    (drawn : Drawn source withMembers step node) (path language : String) :
    (∃ declared : Option Symbol,
        Node.shape (reading.symbol? path language) node = declared.toList.map (.node · []) ∧
        (step = .imports → declared.isSome ∧ node.children = []) ∧ step ≠ .classes) ∨
      step = .classes ∧ ∃ own members,
        Node.shape (reading.symbol? path language) node =
          [.node own (members.map (.node · []))] ∧
        (Outline.node own (members.map (.node · []))).IsFlat ∧
        members.length = node.children.length ∧ (withMembers = false → members = []) := by
  cases drawn with
  | plain _ _ other imported =>
      refine .inl ⟨_, Node.shape_of_silent rfl _, fun imports => ⟨?_, rfl⟩, other⟩
      obtain ⟨symbol, read, _⟩ := (imported imports).symbol? path language
      rw [read]
      rfl
  | classType covers braced _ declares below bare =>
      obtain ⟨own, _, same, flat⟩ := shape_of_members covers braced declares below path language
      refine .inr ⟨rfl, own, _, same, flat, ?_, ?_⟩
      · refine List.filterMap_length_eq_length.mpr fun member listed => ?_
        obtain ⟨label, symbol, rfl, known, _⟩ := (below member listed).symbol? path language
        exact Option.isSome_iff_exists.mpr ⟨symbol, known⟩
      · intro only
        rw [bare only]
        rfl
  | enumType _ _ _ below =>
      refine .inl ⟨_, Node.shape_of_silent (shapes_of_values below path language) _, ?_, by decide⟩
      intro impossible
      cases impossible

private theorem Drawn.isFlat {withMembers : Bool} {step : Step} {node : Node}
    (drawn : Drawn source withMembers step node) (path language : String) :
    ∀ outline ∈ Node.shape (reading.symbol? path language) node, outline.IsFlat := by
  intro outline member
  rcases drawn.shape_cases path language with
    ⟨declared, shape, _⟩ | ⟨_, own, members, shape, flat, _⟩
  · rw [shape] at member
    obtain ⟨symbol, _, rfl⟩ := List.mem_map.mp member
    exact .leaf symbol
  · rw [shape] at member
    cases List.mem_singleton.mp member
    exact flat

/-- In the shape of a class each member is in the symbol of the class. -/
theorem Drawn.member_line {withMembers : Bool} {step : Step} {node child : Node}
    (drawn : Drawn source withMembers step node) (tag : node.tag ∈ classTags)
    (listed : child ∈ node.children) (path language : String) :
    ∃ own member, node.label?.bind (reading.symbol? path language) = some own ∧
      child.label?.bind (reading.symbol? path language) = some member ∧
      [member, own] ∈ Outline.linesAll [] (Node.shape (reading.symbol? path language) node) := by
  cases drawn with
  | plain => cases listed
  | enumType _ _ other =>
      rw [Node.tag, other] at tag
      exact absurd tag (by decide)
  | classType covers braced _ declares below =>
      obtain ⟨own, read, same, _⟩ := shape_of_members covers braced declares below path language
      obtain ⟨label, member, rfl, known, _, _⟩ := (below child listed).symbol? path language
      refine ⟨own, member, read, known, ?_⟩
      rw [same, Outline.linesAll_single, Outline.lines, Outline.linesAll_leaves]
      apply List.mem_cons_of_mem
      exact List.mem_map.mpr ⟨member, List.mem_filterMap.mpr ⟨_, listed, known⟩, rfl⟩

end

/-! ### Files -/

/-- What has something below it is one of the declarations that were collected. -/
theorem drawn_of_outer {config : Config} {job : Job} {strategy : Strategy} {path : String}
    {extraction : Extraction Node} (ran : job.run strategy = .ok extraction) {node : Node}
    (member : node ∈ (assemble config job strategy path extraction).value.tree.root.preorder)
    (tag : node.tag ∈ outerTags) :
    node ∈ Node.inSourceOrder extraction.items ∧
      ∃ step withMembers, Drawn job.source withMembers step node := by
  rcases List.mem_cons.mp member with root | under
  · rw [root] at tag
    exact absurd tag (show "compilation_unit" ∉ outerTags by decide)
  · obtain ⟨above, listed, within⟩ := (Node.mem_preorderAll _ _).mp under
    obtain ⟨step, withMembers, _, drawn⟩ := Job.exists_drawn ran above listed
    rcases (drawn.below within).2.2 with same | other
    · rw [same]
      exact ⟨listed, step, withMembers, drawn⟩
    · exact absurd tag other

/-- In the tree of a file that is taken apart in full, members and values lie behind the brace that
opens what they stand below.  In the outline each member is directly in the symbol of its class. -/
theorem parse_members_outlined {config : Config} {content : String}
    (admits : Admits config content .full) (faults : Faults) (path : String)
    (context : Option Context) :
    ∃ parsed found, (parse config faults content path context).value = .ok parsed ∧
      symbols parsed.tree = .ok found ∧
      (∀ node ∈ parsed.tree.root.preorder, node.tag ∈ classTags →
        ∃ opening, node.OpensAt content opening ∧ ∀ child ∈ node.children,
          opening < child.span.startIn content ∧
            child.span.stopIn content ≤ node.span.stopIn content ∧
            node.span.encloses child.span = true ∧
            ∃ own member around,
              reading.symbolOf? parsed.tree node = some own ∧
              reading.symbolOf? parsed.tree child = some member ∧
              member :: own :: around ∈ Outline.linesAll [] (Outline.ofSymbols found)) ∧
      (∀ node ∈ parsed.tree.root.preorder, node.tag = "enum_declaration" →
        ∃ opening close, node.OpensAt content opening ∧
          (Source.ofContent content).BlockEnds opening close ∧
          ∀ child ∈ node.children, child.tag = "enum_value" ∧
            opening < child.span.startIn content ∧ child.span.stopIn content ≤ close) ∧
      List.Forall₂ (· <+: ·) (Outline.linesAll [] (reading.shapes parsed.tree))
        (Outline.linesAll [] (Outline.ofSymbols found)) := by
  let job := jobOf config .full faults content context
  have ran := job.run_full_eq
  have starts : List.Forall₂ (· <+: ·)
      (Outline.linesAll [] (reading.shapes (assemble config job .full path job.runFull).value.tree))
      (Outline.linesAll [] (Outline.ofSymbols (Outline.preorderAll
        (reading.shapes (assemble config job .full path job.runFull).value.tree)))) := by
    rw [Outline.linesAll_ofSymbols]
    refine Outline.linesAll_begin (fun outline member => ?_) []
    obtain ⟨node, listed, within⟩ := Node.mem_shapes.mp member
    obtain ⟨step, withMembers, _, drawn⟩ := Job.exists_drawn ran node listed
    exact drawn.isFlat _ _ outline within
  refine ⟨_, _, admits.parse_full faults path context,
    symbols_assemble_eq config job .full path ran, ?_, ?_, starts⟩
  · intro node member tag
    obtain ⟨listed, step, withMembers, drawn⟩ :=
      drawn_of_outer ran member (List.mem_cons_of_mem _ tag)
    obtain ⟨opening, opens, placed⟩ := drawn.members_placed tag
    refine ⟨opening, opens, fun child below => ?_⟩
    obtain ⟨after, before, enclosed⟩ := placed child below
    obtain ⟨own, symbol, read, known, line⟩ := drawn.member_line tag below path "dart"
    obtain ⟨other, given, around, rfl⟩ :=
      Outline.exists_of_forall₂ starts (Node.mem_linesAll_shapes listed line)
    exact ⟨after, before, enclosed, own, symbol, around, read, known, given⟩
  · intro node member tag
    obtain ⟨_, step, withMembers, drawn⟩ := drawn_of_outer ran member (tag ▸ List.mem_cons_self)
    exact drawn.values_placed tag

/-- A class with a method. -/
theorem members_outlined_of_class :
    let content := "class A \x7b\n  void f() \x7b\x7d\n\x7d"
    Admits {} content .full ∧
      ∃ parsed found, (parse {} {} content "a.dart" none).value = .ok parsed ∧
        symbols parsed.tree = .ok found ∧
        (Outline.linesAll [] (reading.shapes parsed.tree)).map (List.map Symbol.name) =
          [["A"], ["f", "A"]] ∧
        ∀ node ∈ parsed.tree.root.preorder, node.tag ∈ classTags →
          ∃ opening, node.OpensAt content opening ∧ ∀ child ∈ node.children,
            opening < child.span.startIn content ∧
              child.span.stopIn content ≤ node.span.stopIn content ∧
              node.span.encloses child.span = true ∧
              ∃ own member around,
                reading.symbolOf? parsed.tree node = some own ∧
                reading.symbolOf? parsed.tree child = some member ∧
                member :: own :: around ∈ Outline.linesAll [] (Outline.ofSymbols found) := by
  intro content
  have admits : Admits {} content .full := ⟨by decide +kernel, by decide +kernel⟩
  obtain ⟨parsed, found, value, read, members, _, _⟩ :=
    parse_members_outlined admits {} "a.dart" none
  cases Except.ok.inj value
  exact ⟨admits, _, found, rfl, read, by decide +kernel, members⟩

end Dart

end SourceOutline
