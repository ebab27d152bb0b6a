import SourceOutline.Proofs.Dart.Claim
import SourceOutline.Proofs.Extraction.Attempt

set_option autoImplicit false

/-! The passes that a strategy makes over a Dart file.

However a strategy goes through a file, it only takes what its passes give and records failures.  So
what holds of an empty collection and is kept by these two holds of all that is collected. -/

namespace SourceOutline.Dart.Job

def limitedPasses (job : Job) : List (Step × Pass) :=
  limitedCaps.map fun (step, cap) =>
    (step, { start := 0, stop := job.source.size, cap := some cap })

def chunkPasses (chunk : Nat × Nat) : List (Step × Pass) :=
  streamingSteps.map fun step => (step, { start := chunk.1, stop := chunk.2 })

def passes (job : Job) : Strategy → List (Step × Pass)
  | .full => Step.all.map fun step => (step, .whole job.source)
  | .limited => job.limitedPasses
  | .streaming => (chunks job.source.text Config.chunkSize).flatMap chunkPasses

theorem stop_le_of_mem_passes {job : Job} {strategy : Strategy} {each : Step × Pass}
    (member : each ∈ job.passes strategy) : each.2.stop ≤ job.source.size := by
  cases strategy with
  | full =>
      obtain ⟨step, _, rfl⟩ := List.mem_map.mp member
      exact Nat.le_refl _
  | limited =>
      obtain ⟨capped, _, rfl⟩ := List.mem_map.mp member
      exact Nat.le_refl _
  | streaming =>
      obtain ⟨chunk, listed, inside⟩ := List.mem_flatMap.mp member
      obtain ⟨step, _, rfl⟩ := List.mem_map.mp inside
      exact (chunks_tile job.source.text (by decide)).stop_le listed

theorem withMembers_of_mem_passes {job : Job} {strategy : Strategy} {each : Step × Pass}
    (member : each ∈ job.passes strategy) (partly : strategy ≠ .full) :
    each.2.withMembers = false := by
  cases strategy with
  | full => exact absurd rfl partly
  | limited =>
      obtain ⟨capped, _, rfl⟩ := List.mem_map.mp member
      rfl
  | streaming =>
      obtain ⟨chunk, _, inside⟩ := List.mem_flatMap.mp member
      obtain ⟨step, _, rfl⟩ := List.mem_map.mp inside
      rfl

/-! ### What runs keep -/

/-- Neither what a pass gives nor a failure breaks a property of what is collected. -/
structure Keeps (job : Job) (passes : List (Step × Pass)) (holds : Extraction Node → Prop) :
    Prop where
  take : ∀ extraction, holds extraction → ∀ each ∈ passes,
    holds (extraction.take job.limit weight (each.1.declarations job.source each.2))
  fail : ∀ extraction, holds extraction → ∀ name crash,
    holds (extraction.fail name crash job.context)

variable {job : Job} {holds : Extraction Node → Prop} {all : List (Step × Pass)}

private theorem Keeps.runUntilFault (keeps : job.Keeps all holds) {passes : List (Step × Pass)}
    (listed : ∀ each ∈ passes, each ∈ all) {extraction : Extraction Node}
    (held : holds extraction) : holds (job.runUntilFault passes extraction).1 := by
  induction passes generalizing extraction with
  | nil => exact held
  | cons each rest ih =>
      rw [Job.runUntilFault]
      split
      · exact held
      · split
        · exact held
        · apply ih
          · exact fun other later => listed other (List.mem_cons_of_mem _ later)
          · exact keeps.take _ held each (listed each List.mem_cons_self)

private theorem Keeps.runStep (keeps : job.Keeps all holds) {step : Step}
    (listed : (step, .whole job.source) ∈ all) {extraction : Extraction Node}
    (held : holds extraction) : holds (job.runStep extraction step) := by
  unfold Job.runStep
  split
  · exact held
  · split
    · exact keeps.fail _ held _ _
    · exact keeps.take _ held _ listed

private theorem Keeps.runChunk (keeps : job.Keeps all holds) {chunk : Nat × Nat}
    (listed : ∀ each ∈ chunkPasses chunk, each ∈ all) {extraction : Extraction Node}
    (held : holds extraction) : holds (job.runChunk extraction chunk) := by
  have read : holds (job.readChunk chunk.1 chunk.2 extraction).1 := by
    unfold readChunk
    split
    · exact held
    · exact keeps.runUntilFault listed held
  unfold Job.runChunk
  split
  · exact held
  · split
    · rename_i same
      rwa [same] at read
    · rename_i same
      rw [same] at read
      exact keeps.fail _ read _ _

/-- What is kept by passes and failures holds of whatever a run collects. -/
theorem Keeps.run {strategy : Strategy} (keeps : job.Keeps (job.passes strategy) holds)
    (empty : holds {}) {extraction : Extraction Node} (ran : job.run strategy = .ok extraction) :
    holds extraction := by
  cases strategy with
  | full =>
      rw [run_full_eq] at ran
      cases ran
      refine List.foldlRecOn Step.all job.runStep empty fun extraction held step member => ?_
      exact keeps.runStep (List.mem_map.mpr ⟨step, member, rfl⟩) held
  | limited =>
      rw [run_limited_eq] at ran
      unfold runLimited at ran
      dsimp only at ran
      have collected := keeps.runUntilFault (fun _ member => member) empty
      split at ran
      · rename_i same
        cases ran
        unfold passes limitedPasses at collected
        rwa [same] at collected
      · cases ran
  | streaming =>
      rw [run_streaming_eq] at ran
      cases ran
      refine List.foldlRecOn _ job.runChunk empty fun extraction held chunk member => ?_
      exact keeps.runChunk (fun each inside => List.mem_flatMap.mpr ⟨chunk, member, inside⟩) held

/-- Whatever is collected was found by a pass. -/
theorem exists_pass_of_mem {strategy : Strategy} {extraction : Extraction Node}
    (ran : job.run strategy = .ok extraction) :
    ∀ node ∈ extraction.items, ∃ each ∈ job.passes strategy,
      node ∈ each.1.declarations job.source each.2 := by
  have kept : job.Keeps (job.passes strategy) fun extraction => ∀ node ∈ extraction.items,
      ∃ each ∈ job.passes strategy, node ∈ each.1.declarations job.source each.2 := by
    refine ⟨fun extraction held each listed node member => ?_, fun extraction held _ _ => held⟩
    rcases List.mem_append.mp member with before | taken
    · exact held node before
    · exact ⟨each, listed, (takeWithin_sublist _ _ _ _).subset taken⟩
  exact kept.run (fun _ none => absurd none List.not_mem_nil) ran

end SourceOutline.Dart.Job
