import SourceOutline.Proofs.Dart.Complete
import SourceOutline.Proofs.Swift.Nested

set_option autoImplicit false

/-! Nodes and symbols stand where they say.

Whatever a step makes of a match covers a stretch of the text, and the span of a stretch tells its
first offset and the one behind its last.  A symbol takes its span from the node that declares it.
-/

namespace SourceOutline

/-! ### Symbols of a tree -/

private theorem forall₂_filterMap {α β : Type} (make : α → Option β) (items : List α) :
    List.Forall₂ (fun item made => make item = some made)
      (items.filter fun item => (make item).isSome) (items.filterMap make) := by
  induction items with
  | nil => exact .nil
  | cons item rest ih =>
      cases made : make item with
      | none => simpa [made] using ih
      | some value => simpa [made] using ih

/-- The nodes below the root stand in a text where they say, and the symbols, one for each node that
declares something, carry the path of the tree and stand where their nodes do. -/
structure Tree.IsFaithful (reading : NodeReading) (content : String) (tree : Tree) : Prop where
  nodes : ∀ node ∈ Node.preorderAll tree.root.children, node.IsLocatedIn content
  symbols : ∃ found, reading.symbols tree = .ok found ∧
    List.Forall₂
      (fun node symbol => reading.symbolOf? tree node = some symbol ∧ symbol.path = tree.path ∧
        symbol.span = node.span)
      (tree.root.preorder.filter fun node => (reading.symbolOf? tree node).isSome) found

private theorem NodeReading.symbolOf?_placed {reading : NodeReading} {tree : Tree} {node : Node}
    {symbol : Symbol} (declared : reading.symbolOf? tree node = some symbol) :
    symbol.path = tree.path ∧ symbol.span = node.span := by
  cases node with
  | missing => cases declared
  | node label children =>
      obtain ⟨_, _, _, _, _, rfl⟩ := symbol?_eq_ofLabel declared
      exact ⟨rfl, rfl⟩

/-- If all nodes of a tree cover some text, the tree is faithful as soon as its symbols can be
read. -/
theorem Tree.isFaithful_of_covers {reading : NodeReading} {tree : Tree} {content : String}
    (covers : ∀ node ∈ Node.preorderAll tree.root.children,
      ∃ start stop, node.Covers (.ofContent content) start stop)
    {found : List Symbol} (read : reading.symbols tree = .ok found) :
    tree.IsFaithful reading content := by
  constructor
  · intro node member
    obtain ⟨start, stop, here⟩ := covers node member
    exact here.isLocatedIn
  · refine ⟨found, read, ?_⟩
    unfold NodeReading.symbols at read
    dsimp only at read
    split at read
    · cases read
    · cases read
      refine (forall₂_filterMap (reading.symbolOf? tree) tree.root.preorder).imp ?_
      exact fun node symbol declared => ⟨declared, NodeReading.symbolOf?_placed declared⟩

/-! ### Dart -/

namespace Dart

theorem parse_isFaithful {config : Config} {faults : Faults} {content path : String}
    {context : Option Context} {parsed : Parsed}
    (made : (parse config faults content path context).value = .ok parsed) :
    parsed.tree.IsFaithful reading content := by
  obtain ⟨strategy, extraction, _, ran, rfl⟩ := run_of_parsed made
  apply Tree.isFaithful_of_covers
  · intro below member
    obtain ⟨node, listed, under⟩ := (Node.mem_preorderAll _ _).mp member
    obtain ⟨step, withMembers, _, drawn⟩ := Job.exists_drawn ran node listed
    exact (drawn.below under).2.1
  · exact symbols_assemble_eq config _ strategy path ran

end Dart

/-! ### Swift -/

namespace Swift

namespace Placement

variable {source : Source} {bodies : List TypeBody} {items : List Placed}

private theorem covers (placement : Placement source bodies items) {place : Place} {item : Item}
    {node : Node} (member : ⟨place, item⟩ ∈ items) (drawn : Drawn source bodies items item node) :
    ∃ start stop, node.Covers source start stop := by
  obtain ⟨step, each, written, _, _, span, value⟩ := placement.written_of_drawn member drawn
  obtain ⟨forward, inside⟩ := (placement.sound written).bounds
  exact ⟨each.start, each.stop, forward, inside, span, value⟩

/-- Whatever stands in the tree of a file covers some text: types are gone through from the inner
ones to the outer ones. -/
theorem covers_below (placement : Placement source bodies items) {below : Node}
    (member : below ∈ Node.preorderAll (topNodes source bodies items)) :
    ∃ start stop, below.Covers source start stop := by
  have types : ∀ body ∈ bodies, ∀ place, ⟨place, .type body.ordinal⟩ ∈ items →
      ∀ below ∈ (typeNode source bodies items body).preorder,
        ∃ start stop, below.Covers source start stop := by
    apply placement.induction (motive := fun body => ∀ place, ⟨place, .type body.ordinal⟩ ∈ items →
      ∀ below ∈ (typeNode source bodies items body).preorder,
        ∃ start stop, below.Covers source start stop)
    intro body known inner place placed below under
    rcases List.mem_cons.mp under with here | further
    · rw [here]
      exact placement.covers placed (.type known)
    · obtain ⟨child, inside, within⟩ := (Node.mem_preorderAll _ _).mp further
      obtain ⟨item, listed, drawn⟩ := placement.mem_nodesAt_iff.mp inside
      cases drawn with
      | type other => exact inner _ other listed _ listed below within
      | member declares =>
          cases List.mem_singleton.mp within
          exact placement.covers listed (.member declares)
  obtain ⟨node, inside, within⟩ := (Node.mem_preorderAll _ _).mp member
  obtain ⟨item, listed, drawn⟩ := placement.mem_nodesAt_iff.mp inside
  cases drawn with
  | type known => exact types _ known _ listed below within
  | member declares =>
      cases List.mem_singleton.mp within
      exact placement.covers listed (.member declares)

end Placement

theorem parse_isFaithful (config : Config) (faults : Faults) (content path : String)
    (context : Option Context) :
    ∃ parsed, (parse config faults content path context).value = .ok parsed ∧
      parsed.tree.IsFaithful reading content := by
  obtain ⟨parsed, value, children, read⟩ := exists_parsed config faults content path context
  refine ⟨parsed, value, Tree.isFaithful_of_covers ?_ read⟩
  rw [children]
  intro below member
  exact (jobOf config faults content context).placement.covers_below member

end Swift

/-! ### Files -/

/-- In every tree of a Dart or Swift file the nodes stand where they say, and so do the symbols.  A
Dart file that is not too large has a tree unless a step fails; a Swift file always has one. -/
theorem parse_locations_faithful (config : Config) (content path : String)
    (context : Option Context) :
    (content.utf8ByteSize ≤ config.dart.maxFileSize →
      ∀ faults : Dart.Faults, faults.SparesSteps →
        ∃ parsed, (Dart.parse config faults content path context).value = .ok parsed) ∧
    (∀ faults parsed, (Dart.parse config faults content path context).value = .ok parsed →
      parsed.tree.IsFaithful Dart.reading content) ∧
    ∀ faults, ∃ parsed, (Swift.parse config faults content path context).value = .ok parsed ∧
      parsed.tree.IsFaithful Swift.reading content :=
  ⟨fun allowed _ sound => Dart.exists_parsed allowed sound path context,
    fun _ _ made => Dart.parse_isFaithful made,
    fun faults => Swift.parse_isFaithful config faults content path context⟩

/-- An import behind blanks, on the second line. -/
theorem locations_faithful_of_import :
    let content := "\n  import 'a';"
    content.utf8ByteSize ≤ ({} : Config).dart.maxFileSize ∧
      ∃ parsed, (Dart.parse {} {} content "a.dart" none).value = .ok parsed ∧
        parsed.tree.IsFaithful Dart.reading content ∧
        (parsed.tree.root.children.map fun node =>
          (node.span, node.span.startIn content, node.span.textIn content)) =
            [(⟨2, 3, 2, 14⟩, 3, "import 'a';")] := by
  intro content
  have allowed : content.utf8ByteSize ≤ ({} : Config).dart.maxFileSize := by decide +kernel
  obtain ⟨exist, faithful, _⟩ := parse_locations_faithful {} content "a.dart" none
  obtain ⟨parsed, made⟩ := exist allowed {} fun _ => rfl
  have here := faithful {} parsed made
  cases Except.ok.inj made
  exact ⟨allowed, _, rfl, here, by decide +kernel⟩

end SourceOutline
