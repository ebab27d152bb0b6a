import SourceOutline.Dart.Parser
import SourceOutline.Proofs.Dart.Claim

set_option autoImplicit false

/-! Which streaming runs give a partial tree: exactly those in which some chunk fails.

A chunk can only fail if it is reached, that is, if the limit still leaves room when its turn
comes. -/

namespace SourceOutline.Dart

/-- A chunk of a text is reached, and collecting from it stops with a crash. -/
def Job.ChunkFails (job : Job) (extraction : Extraction Node) (chunk : Nat × Nat) : Prop :=
  extraction.isFull job.limit = false ∧
    (job.readChunk chunk.1 chunk.2 extraction).2.isSome = true

def Job.SomeChunkFails (job : Job) (chunks : List (Nat × Nat)) (extraction : Extraction Node) :
    Prop :=
  ∃ before chunk later, chunks = before ++ chunk :: later ∧
    job.ChunkFails (before.foldl job.runChunk extraction) chunk

/-! ### Problems -/

theorem Job.runUntilFault_problems (job : Job) (passes : List (Step × Pass))
    (extraction : Extraction Node) :
    (job.runUntilFault passes extraction).1.problems = extraction.problems := by
  induction passes generalizing extraction with
  | nil => rfl
  | cons pass rest ih =>
      rw [runUntilFault]
      split
      · rfl
      · split
        · rfl
        · exact ih _

theorem Job.readChunk_problems (job : Job) (start stop : Nat) (extraction : Extraction Node) :
    (job.readChunk start stop extraction).1.problems = extraction.problems := by
  unfold readChunk
  split
  · rfl
  · exact job.runUntilFault_problems _ extraction

/-- A chunk leaves a problem behind if there was one before or if it fails. -/
theorem Job.runChunk_problems (job : Job) (extraction : Extraction Node) (chunk : Nat × Nat) :
    (job.runChunk extraction chunk).problems ≠ [] ↔
      extraction.problems ≠ [] ∨ job.ChunkFails extraction chunk := by
  have kept := job.readChunk_problems chunk.1 chunk.2 extraction
  unfold runChunk ChunkFails
  cases full : extraction.isFull job.limit with
  | true => simp
  | false =>
      rw [if_neg Bool.false_ne_true]
      rcases read : job.readChunk chunk.1 chunk.2 extraction with ⟨reached, _ | crash⟩
      · rw [read] at kept
        simp [← kept]
      · simp [Extraction.fail]

private theorem Job.foldl_runChunk_problems (job : Job) (chunks : List (Nat × Nat))
    (extraction : Extraction Node) :
    (chunks.foldl job.runChunk extraction).problems ≠ [] ↔
      extraction.problems ≠ [] ∨ job.SomeChunkFails chunks extraction := by
  induction chunks generalizing extraction with
  | nil => simp [SomeChunkFails]
  | cons chunk rest ih =>
      rw [List.foldl_cons, ih, runChunk_problems, or_assoc]
      apply or_congr_right
      constructor
      · rintro (here | ⟨before, failing, later, split, fails⟩)
        · exact ⟨[], chunk, rest, rfl, here⟩
        · exact ⟨chunk :: before, failing, later, by rw [split]; rfl, fails⟩
      · rintro ⟨before, failing, later, split, fails⟩
        cases before with
        | nil =>
            cases split
            exact Or.inl fails
        | cons first before =>
            cases split
            exact Or.inr ⟨before, failing, later, rfl, fails⟩

/-! ### Partial trees -/

def streamingJob (config : Config) (faults : Faults) (content : String)
    (context : Option Context) : Job where
  source := .ofContent content
  limit := Strategy.streaming.limit config.performance
  faults := faults
  context := context

/-- A file is small enough to be parsed but so large that it is gone through chunk by chunk, and
some chunk of it fails. -/
structure StreamFails (config : Config) (faults : Faults) (content : String)
    (context : Option Context) : Prop where
  allowed : content.utf8ByteSize ≤ config.dart.maxFileSize
  streaming : Strategy.ofSize config.performance content.utf8ByteSize = .streaming
  chunk : (streamingJob config faults content context).SomeChunkFails
    (chunks (Source.ofContent content).text Config.chunkSize) {}

/-- A file gives a partial tree exactly if a chunk of it fails. -/
theorem exists_partial_iff (config : Config) (faults : Faults) (content path : String)
    (context : Option Context) :
    (∃ parsed, (parse config faults content path context).value = .ok parsed ∧
        parsed.isPartial = true) ↔ StreamFails config faults content context := by
  constructor
  · rintro ⟨parsed, made, cut⟩
    unfold parse at made
    dsimp only at made
    split at made
    · cases made
    · rename_i small
      split at made
      · cases made
      · rename_i extraction ran
        cases made
        simp only [assemble, Bool.and_eq_true, beq_iff_eq, Bool.not_eq_true',
          List.isEmpty_eq_false_iff] at cut
        obtain ⟨streaming, problems⟩ := cut
        rw [streaming, Job.run_streaming_eq] at ran
        cases ran
        refine ⟨Nat.le_of_not_lt small, streaming, ?_⟩
        exact ((Job.foldl_runChunk_problems _ _ _).mp problems).resolve_left (fun none => none rfl)
  · rintro ⟨allowed, streaming, fails⟩
    unfold parse
    dsimp only
    rw [if_neg (Nat.not_lt.mpr allowed), streaming, Job.run_streaming_eq]
    refine ⟨_, rfl, ?_⟩
    have problems := (Job.foldl_runChunk_problems _ _ _).mpr (Or.inr fails)
    simp only [assemble, beq_self_eq_true, Bool.true_and, Bool.not_eq_true',
      List.isEmpty_eq_false_iff]
    exact problems

end SourceOutline.Dart
