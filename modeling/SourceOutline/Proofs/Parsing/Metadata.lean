import SourceOutline.Proofs.Parsing.Provenance
import SourceOutline.Proofs.Value.Fields

set_option autoImplicit false

/-! What the root of a tree tells of a file, and what it does not tell.

No parser tells anything of the cache: the key for failures of the cache is left to the session. -/

namespace SourceOutline

def FeatureGroup.spares (key : String) (group : FeatureGroup) : Bool :=
  group.flag != key && group.members.all fun member => member ++ "_count" != key

theorem Feature.report_get? {groups : List FeatureGroup} {key : String}
    (spared : groups.all (FeatureGroup.spares key) = true) (features : List Feature)
    (text : Array Char) : (report features groups text).get? key = none := by
  unfold report
  dsimp only
  rw [Fields.get?_putAll]
  · rfl
  · rw [Fields.get?_eq_none_iff]
    intro field member
    obtain ⟨group, present, told⟩ := List.mem_flatMap.mp member
    have group_spared := List.all_eq_true.mp spared group present
    obtain ⟨flag, members⟩ := Bool.and_eq_true_iff.mp group_spared
    unfold groupFields at told
    dsimp only at told
    split at told
    · cases told
    · rcases List.mem_cons.mp told with same | used
      · rw [same]
        exact bne_iff_ne.mp flag
      · obtain ⟨name, named, counted⟩ := List.mem_filterMap.mp used
        split at counted
        · cases counted
          exact bne_iff_ne.mp (List.all_eq_true.mp members name named)
        · cases counted

private theorem Extraction.problemFields_get? {α : Type} (extraction : Extraction α) :
    extraction.problemFields.get? "cache_error" = none := by
  unfold problemFields
  rw [Fields.get?_append rfl]
  unfold Fields.when
  split <;> rfl

/-! ### The parsers -/

/-- The root of a tree is there, and tells nothing of the cache. -/
structure Tree.IsSilent (tree : Tree) : Prop where
  present : tree.root.isMissing = false
  silent : tree.root.metadata.get? "cache_error" = none

namespace Dart

/-- Besides what it tells itself, the metadata tells only of failures. -/
theorem metadata_get?_eq {key : String}
    (other : key ∉ ["parser", "parse_quality", "strategy", "has_flutter"])
    (spared : featureGroups.all (FeatureGroup.spares key) = true) (config : Config)
    (strategy : Strategy) (source : Source) (extraction : Extraction Node) :
    (metadata config strategy source extraction).get? key = extraction.problemFields.get? key := by
  have report : (featureReport source.text).get? key = none :=
    Feature.report_get? spared features source.text
  have front : Fields.get? [("parser", .text "regex"), ("parse_quality", .text strategy.name),
      ("strategy", .text strategy.name), ("has_flutter", .bool false)] key = none :=
    Fields.get?_of_not_mem other
  unfold metadata
  dsimp only
  split
  · rw [Fields.get?_putAll report, Fields.get?_append front]
  · rw [Fields.get?_append front]

private theorem metadata_get? (config : Config) (strategy : Strategy) (source : Source)
    (extraction : Extraction Node) :
    (metadata config strategy source extraction).get? "cache_error" = none := by
  rw [metadata_get?_eq (by decide) (by decide), extraction.problemFields_get?]

private theorem withFlutter_get? (job : Job) (path : String) {fields : Fields}
    (silent : fields.get? "cache_error" = none) :
    (withFlutter job path fields).value.get? "cache_error" = none := by
  unfold withFlutter
  split
  · unfold Flutter.integrate
    split
    · exact silent
    · rw [Fields.get?_putAll rfl, silent]
  · exact (Fields.get?_put_ne (by decide) _ fields).trans silent

theorem parse_isSilent {config : Config} {faults : Faults} {content path : String}
    {context : Option Context} {parsed : Parsed}
    (made : (parse config faults content path context).value = .ok parsed) :
    parsed.tree.IsSilent := by
  unfold parse at made
  dsimp only at made
  split at made
  · cases made
  · split at made
    · cases made
    · rename_i extraction _collected
      cases made
      refine ⟨rfl, ?_⟩
      have silent := metadata_get? config (Strategy.ofSize config.performance content.utf8ByteSize)
        (.ofContent content) extraction
      unfold assemble
      dsimp only
      change Fields.get? (Logged.value _) "cache_error" = none
      split
      · exact withFlutter_get? _ path silent
      · exact silent

end Dart

namespace Swift

private theorem reportFeatures_get? (job : Job) (extraction : Extraction Placed) :
    (reportFeatures job extraction).2.get? "cache_error" = none := by
  unfold reportFeatures
  split
  · rfl
  · exact (Fields.get?_putAll
      (Feature.report_get? (by decide) features job.source.text) _).trans rfl

theorem parse_isSilent {config : Config} {faults : Faults} {content path : String}
    {context : Option Context} {parsed : Parsed}
    (made : (parse config faults content path context).value = .ok parsed) :
    parsed.tree.IsSilent := by
  unfold parse at made
  dsimp only at made
  rw [← Except.ok.inj made]
  refine ⟨rfl, ?_⟩
  change Fields.get? (Fields.putAll (_ :: Extraction.problemFields _) (reportFeatures _ _).2)
    "cache_error" = none
  rw [Fields.get?_putAll (reportFeatures_get? _ _), Fields.get?_cons_ne (by decide)]
  exact Extraction.problemFields_get? _

end Swift

namespace Cpp

theorem featureReport_get? (key : String) (names : ∀ name ∈ features.map Prod.fst, name ≠ key)
    (root : Node) (content : String) (maxClasses : Int) :
    (featureReport root content maxClasses).get? key = none := by
  rw [Fields.get?_eq_none_iff]
  unfold featureReport
  dsimp only
  generalize features = tests at names ⊢
  intro field member
  obtain ⟨feature, present, same⟩ := List.mem_map.mp member
  rw [← same]
  exact names feature.1 (List.mem_map_of_mem present)

private theorem withFeatures_isSilent (config : Config) (fault : Option String) (content : String)
    (context : Option Context) (label : Label) (children : List Node)
    (silent : label.metadata.get? "cache_error" = none) :
    ∃ described, (withFeatures config fault content context (.node label children)).value =
        .node described children ∧ described.metadata.get? "cache_error" = none := by
  unfold withFeatures
  cases fault with
  | none =>
      have told := featureReport_get? "cache_error" (by decide) (.node label children) content
        config.cpp.maxClassesPerFile
      refine ⟨_, rfl, ?_⟩
      dsimp only
      rw [Fields.get?_putAll told]
      exact silent
  | some message =>
      refine ⟨_, rfl, ?_⟩
      dsimp only
      rw [Fields.get?_put_ne (by decide)]
      exact silent

theorem convert_root (content : String) (root : ConcreteNode) :
    ∃ label children, (convert content root).root = .node label children ∧
      label.metadata = [] := by
  cases root with
  | node label children => exact ⟨_, _, rfl, rfl⟩

private theorem assemble_isSilent (config : Config) (fault : Option String) (content path : String)
    (context : Option Context) (tree : ConcreteTree) :
    (assemble config fault content path context tree).value.tree.IsSilent := by
  obtain ⟨label, children, converted, bare⟩ := convert_root content tree.root
  have silent (fields : Fields) (others : fields.get? "cache_error" = none) :
      (label.metadata.putAll fields).get? "cache_error" = none := by
    rw [Fields.get?_putAll others, bare]
    rfl
  unfold assemble
  dsimp only
  rw [converted, Node.withMetadata]
  obtain ⟨described, finished, told⟩ := withFeatures_isSilent config fault content context
    { label with
      metadata := label.metadata.putAll
        [("parser", .text "tree-sitter"), ("node_count", .count (convert content tree.root).count),
          ("has_syntax_errors", .bool tree.hasError)] } children (silent _ rfl)
  rw [finished]
  exact ⟨rfl, told⟩

theorem parse_isSilent {config : Config} {surroundings : Surroundings} {content path : String}
    {context : Option Context} {parsed : Parsed}
    (made : (parse config surroundings content path context).value = .ok parsed) :
    parsed.tree.IsSilent := by
  obtain ⟨tree, rfl⟩ := exists_assembled made
  exact assemble_isSilent config _ content path context tree

end Cpp

end SourceOutline
