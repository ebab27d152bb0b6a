import SourceOutline.Proofs.Node.Marked
import SourceOutline.Proofs.Parsing.Metadata

set_option autoImplicit false

/-! What the root of a tree tells of parts of the work that failed: that there were some, how many,
and a message for each.  Nothing else that the root tells depends on them. -/

namespace SourceOutline

def problemKeys : List String := ["has_errors", "error_count", "extraction_errors"]

namespace Fields

/-- Fields that tell of just these failures. -/
structure Tells (fields : Fields) (problems : List String) : Prop where
  hasErrors : fields.get? "has_errors" = some (.bool (!problems.isEmpty))
  errorCount : fields.get? "error_count" = some (.count problems.length)
  errors : fields.get? "extraction_errors" =
    if problems.isEmpty then none else some (.texts problems)

/-- Fields that tell the same of all but failures. -/
def AgreeBesides (left right : Fields) : Prop :=
  ∀ key, key ∉ problemKeys → left.get? key = right.get? key

private theorem Tells.congr {fields other : Fields} {problems : List String}
    (tells : fields.Tells problems)
    (same : ∀ key ∈ problemKeys, other.get? key = fields.get? key) : other.Tells problems := by
  constructor
  · rw [same "has_errors" (by decide), tells.hasErrors]
  · rw [same "error_count" (by decide), tells.errorCount]
  · rw [same "extraction_errors" (by decide), tells.errors]

private theorem AgreeBesides.putAll {left right : Fields} (agree : left.AgreeBesides right)
    (later : Fields) : (left.putAll later).AgreeBesides (right.putAll later) := by
  intro key other
  exact get?_putAll_congr (agree key other) later

end Fields

namespace Extraction

variable {α : Type}

private theorem problemFields_tells (extraction : Extraction α) :
    extraction.problemFields.Tells extraction.problems := by
  unfold problemFields
  refine ⟨rfl, rfl, ?_⟩
  rw [Fields.get?_append rfl]
  cases extraction.problems.isEmpty <;> rfl

theorem problemFields_other (extraction : Extraction α) {key : String}
    (other : key ∉ problemKeys) : extraction.problemFields.get? key = none := by
  apply Fields.get?_of_not_mem
  intro member
  apply other
  unfold problemFields Fields.when at member
  rw [List.map_append] at member
  rcases List.mem_append.mp member with front | back
  · exact List.mem_append_left ["extraction_errors"] front
  · split at back
    · exact List.mem_append_right ["has_errors", "error_count"] back
    · cases back

end Extraction

/-! ### The languages -/

namespace Dart

def rootFields (config : Config) (job : Job) (strategy : Strategy) (path : String)
    (extraction : Extraction Node) : Fields :=
  let fields := metadata config strategy job.source extraction
  if config.dart.enableFlutterDetection then (withFlutter job path fields).value else fields

theorem assemble_root (config : Config) (job : Job) (strategy : Strategy) (path : String)
    (extraction : Extraction Node) :
    (assemble config job strategy path extraction).value.tree.root =
      job.source.compilationUnit "root" (rootFields config job strategy path extraction)
        extraction.items := by
  unfold assemble rootFields
  dsimp only
  cases config.dart.enableFlutterDetection <;> rfl

private theorem metadata_tells (config : Config) (strategy : Strategy) (source : Source)
    (extraction : Extraction Node) :
    (metadata config strategy source extraction).Tells extraction.problems := by
  have others : ∀ key ∈ problemKeys, key ∉ ["parser", "parse_quality", "strategy", "has_flutter"] ∧
      featureGroups.all (FeatureGroup.spares key) = true := by decide
  apply extraction.problemFields_tells.congr
  intro key told
  exact metadata_get?_eq (others key told).1 (others key told).2 config strategy source extraction

private theorem metadata_agree (config : Config) (strategy : Strategy) (source : Source)
    (left right : Extraction Node) :
    (metadata config strategy source left).AgreeBesides
      (metadata config strategy source right) := by
  intro key other
  have same : left.problemFields.get? key = right.problemFields.get? key := by
    rw [left.problemFields_other other, right.problemFields_other other]
  unfold metadata
  dsimp only
  split
  · exact Fields.get?_putAll_congr (Fields.get?_append_congr same _) _
  · exact Fields.get?_append_congr same _

private theorem withFlutter_tells (job : Job) (path : String) {fields : Fields}
    {problems : List String}
    (tells : fields.Tells problems) : (withFlutter job path fields).value.Tells problems := by
  have others : ∀ key ∈ problemKeys, key ∉ ["flutter_analysis", "has_flutter",
      "flutter_framework", "state_management", "has_navigation"] ∧
      "flutter_integration_error" ≠ key := by decide
  apply tells.congr
  intro key told
  unfold withFlutter
  split
  · unfold Flutter.integrate
    split
    · rfl
    · exact Fields.get?_putAll (Fields.get?_of_not_mem (others key told).1) fields
  · exact Fields.get?_put_ne (others key told).2 _ fields

/-- Where Flutter is told of without a failure, it is told of alike. -/
theorem withFlutter_agree {job other : Job} (source : job.source = other.source)
    (sound : job.faults.flutter? = none) (soundToo : other.faults.flutter? = none) (path : String)
    {left right : Fields} (agree : left.AgreeBesides right) :
    (withFlutter job path left).value.AgreeBesides (withFlutter other path right).value := by
  unfold withFlutter
  rw [sound, soundToo, source]
  unfold Flutter.integrate
  dsimp only
  split
  · exact agree
  · exact agree.putAll _

theorem rootFields_tells (config : Config) (job : Job) (strategy : Strategy) (path : String)
    (extraction : Extraction Node) :
    (rootFields config job strategy path extraction).Tells extraction.problems := by
  have tells := metadata_tells config strategy job.source extraction
  unfold rootFields
  dsimp only
  split
  · exact withFlutter_tells job path tells
  · exact tells

theorem rootFields_agree (config : Config) (job other : Job) (source : job.source = other.source)
    (sound : job.faults.flutter? = none) (soundToo : other.faults.flutter? = none)
    (strategy : Strategy) (path : String) (left right : Extraction Node) :
    (rootFields config job strategy path left).AgreeBesides
      (rootFields config other strategy path right) := by
  have agree := metadata_agree config strategy other.source left right
  unfold rootFields
  dsimp only
  rw [source]
  split
  · exact withFlutter_agree source sound soundToo path agree
  · exact agree

end Dart

namespace Swift

def rootFields (job : Job) (extraction : Extraction Placed) : Fields :=
  Fields.putAll (("parser", .text "regex") :: (reportFeatures job extraction).1.problemFields)
    (reportFeatures job extraction).2

theorem reportFeatures_sound {job : Job} (sound : job.faults.features? = none)
    (extraction : Extraction Placed) :
    reportFeatures job extraction =
      (extraction, (frameworkReport job.source.text).putAll (featureReport job.source.text)) := by
  unfold reportFeatures
  rw [sound]

theorem rootFields_tells {job : Job} (sound : job.faults.features? = none)
    (extraction : Extraction Placed) : (rootFields job extraction).Tells extraction.problems := by
  have others : ∀ key ∈ problemKeys, "parser" ≠ key ∧ key ∉ frameworks.map Prod.fst ∧
      featureGroups.all (FeatureGroup.spares key) = true := by decide
  apply extraction.problemFields_tells.congr
  intro key told
  obtain ⟨parser, framework, feature⟩ := others key told
  have frameworksApart : (frameworkReport job.source.text).get? key = none := by
    apply Fields.get?_of_not_mem
    rw [frameworkReport, List.map_map]
    exact framework
  have report : ((frameworkReport job.source.text).putAll
      (featureReport job.source.text)).get? key = none :=
    (Fields.get?_putAll (Feature.report_get? feature features job.source.text) _).trans
      frameworksApart
  unfold rootFields
  rw [reportFeatures_sound sound]
  exact (Fields.get?_putAll report _).trans (Fields.get?_cons_ne parser _ _)

theorem rootFields_agree (job other : Job) (source : job.source = other.source)
    (sound : job.faults.features? = none) (soundToo : other.faults.features? = none)
    (left right : Extraction Placed) :
    (rootFields job left).AgreeBesides (rootFields other right) := by
  unfold rootFields
  rw [reportFeatures_sound sound, reportFeatures_sound soundToo, source]
  intro key apart
  have same : left.problemFields.get? key = right.problemFields.get? key := by
    rw [left.problemFields_other apart, right.problemFields_other apart]
  exact Fields.get?_putAll_congr (Fields.get?_append_congr same [("parser", .text "regex")]) _

end Swift

end SourceOutline
