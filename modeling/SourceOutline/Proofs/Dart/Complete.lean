import SourceOutline.Dart.Parser
import SourceOutline.Proofs.Dart.Drawn
import SourceOutline.Proofs.Dart.Passes
import SourceOutline.Proofs.Node.Complete
import SourceOutline.Proofs.Outline.Shape

set_option autoImplicit false

/-! The trees of Dart files are complete, so their symbols can always be read. -/

namespace SourceOutline.Dart

/-- A declaration and all that stands below it are there and stand for some text. -/
theorem Drawn.below {source : Source} {withMembers : Bool} {step : Step} {node below : Node}
    (drawn : Drawn source withMembers step node) (member : below ∈ node.preorder) :
    below.isMissing = false ∧ (∃ start stop, below.Covers source start stop) ∧
      (below = node ∨ below.tag ∉ outerTags) := by
  cases drawn with
  | plain covers =>
      cases List.mem_singleton.mp member
      exact ⟨rfl, ⟨_, _, covers⟩, .inl rfl⟩
  | classType covers braced tag declares inner bare =>
      rcases List.mem_cons.mp member with here | under
      · rw [here]
        exact ⟨rfl, ⟨_, _, covers⟩, .inl rfl⟩
      · obtain ⟨child, listed, within⟩ := (Node.mem_preorderAll _ _).mp under
        obtain ⟨⟨start, stop, own, _, _⟩, declares, leaf⟩ := inner child listed
        cases List.mem_singleton.mp within
        exact ⟨rfl, ⟨start, stop, own⟩, .inr (declares.tag_notMem leaf)⟩
  | enumType covers braced tag values =>
      rcases List.mem_cons.mp member with here | under
      · rw [here]
        exact ⟨rfl, ⟨_, _, covers⟩, .inl rfl⟩
      · obtain ⟨child, listed, within⟩ := (Node.mem_preorderAll _ _).mp under
        obtain ⟨⟨start, stop, own, _, _⟩, value⟩ := values child listed
        cases List.mem_singleton.mp within
        refine ⟨rfl, ⟨start, stop, own⟩, .inr ?_⟩
        rw [Node.tag, value]
        decide

/-- Whatever is collected was drawn by a step, without members unless the file is taken apart in
full. -/
theorem Job.exists_drawn {job : Job} {strategy : Strategy} {extraction : Extraction Node}
    (ran : job.run strategy = .ok extraction) :
    ∀ node ∈ Node.inSourceOrder extraction.items, ∃ step withMembers,
      (strategy ≠ .full → withMembers = false) ∧ Drawn job.source withMembers step node := by
  intro node member
  rw [Node.inSourceOrder_eq, (bySpan_perm _ _).mem_iff] at member
  obtain ⟨each, listed, found⟩ := exists_pass_of_mem ran node member
  exact ⟨each.1, each.2.withMembers, withMembers_of_mem_passes listed,
    each.1.declarations_drawn (stop_le_of_mem_passes listed) node found⟩

theorem symbols_assemble_eq (config : Config) (job : Job) (strategy : Strategy) (path : String)
    {extraction : Extraction Node} (ran : job.run strategy = .ok extraction) :
    symbols (assemble config job strategy path extraction).value.tree =
      .ok (Outline.preorderAll
        (reading.shapes (assemble config job strategy path extraction).value.tree)) := by
  refine reading.symbols_eq_preorderAll rfl (reading.symbol?_eq_none _ _ rfl) fun below member => ?_
  obtain ⟨node, listed, under⟩ := (Node.mem_preorderAll _ _).mp member
  obtain ⟨step, withMembers, _, drawn⟩ := Job.exists_drawn ran node listed
  exact (drawn.below under).1

/-- The symbols of a tree that was made from what a run collected can be read. -/
theorem symbols_assemble (config : Config) (job : Job) (strategy : Strategy) (path : String)
    {extraction : Extraction Node} (ran : job.run strategy = .ok extraction) :
    ∃ found, symbols (assemble config job strategy path extraction).value.tree = .ok found :=
  ⟨_, symbols_assemble_eq config job strategy path ran⟩

end SourceOutline.Dart
