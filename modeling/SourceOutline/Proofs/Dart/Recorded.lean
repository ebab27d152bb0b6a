import SourceOutline.Proofs.Dart.Complete
import SourceOutline.Proofs.Dart.Parts
import SourceOutline.Proofs.Dart.Streaming
import SourceOutline.Proofs.Parsing.Problems

set_option autoImplicit false

/-! What becomes of the failures that a strategy meets.

The full strategy and the streaming one tell of every failure in the tree.  Under the limited one
the first failure ends the work: there is no tree, and the crash reaches the caller. -/

namespace SourceOutline.Dart

def failuresOf {σ : Type} (failure? : Extraction Node → σ → Option (String × Crash))
    (next : Extraction Node → σ → Extraction Node) :
    List σ → Extraction Node → List (String × Crash)
  | [], _ => []
  | part :: rest, extraction =>
      (failure? extraction part).toList ++ failuresOf failure? next rest (next extraction part)

namespace Job

def stepFailure? (job : Job) (extraction : Extraction Node) (step : Step) :
    Option (String × Crash) :=
  if extraction.isFull job.limit then none
  else (job.faults.step? step).map fun message => (step.name, .fault message)

/-- What is collected when a step has had its turn, also if it failed. -/
def afterPass (job : Job) (extraction : Extraction Node) (pass : Step × Pass) : Extraction Node :=
  if extraction.isFull job.limit || (job.faults.step? pass.1).isSome then extraction
  else extraction.take job.limit weight (pass.1.declarations job.source pass.2)

def passFailures (job : Job) : List (Step × Pass) → Extraction Node → List (String × Crash) :=
  failuresOf (fun extraction pass => job.stepFailure? extraction pass.1) job.afterPass

/-- How a chunk fails, if it is reached: by itself, or by the first of its steps that fails. -/
def chunkFailure? (job : Job) (extraction : Extraction Node) (chunk : Nat × Nat) :
    Option (String × Crash) :=
  if extraction.isFull job.limit then none
  else
    match job.faults.chunk? chunk.1 with
    | some message => some (chunkName chunk, .fault message)
    | none =>
        (job.passFailures
          (streamingSteps.map fun step => (step, { start := chunk.1, stop := chunk.2 }))
          extraction).head?.map fun failure => (chunkName chunk, failure.2)

/-- The failures that a strategy meets, each with the name of what failed, in the order in which
they come. -/
def failures (job : Job) : Strategy → List (String × Crash)
  | .full => failuresOf job.stepFailure? job.runStep Step.all {}
  | .limited => job.passFailures job.limitedPasses {}
  | .streaming =>
      failuresOf job.chunkFailure? job.runChunk (chunks job.source.text Config.chunkSize) {}

def told (job : Job) (failure : String × Crash) : String :=
  failure.1 ++ ": " ++ (failure.2.toError failure.1 job.context).message

/-! ### Runs that end with a failure -/

private theorem passFailures_of_full (job : Job) (passes : List (Step × Pass))
    {extraction : Extraction Node} (full : extraction.isFull job.limit = true) :
    job.passFailures passes extraction = [] := by
  induction passes with
  | nil => rfl
  | cons pass rest ih =>
      unfold passFailures failuresOf stepFailure? afterPass
      rw [full]
      exact ih

/-- A run that ends with a failure ends with the first one. -/
theorem runUntilFault_crash (job : Job) (passes : List (Step × Pass))
    (extraction : Extraction Node) :
    (job.runUntilFault passes extraction).2 =
      (job.passFailures passes extraction).head?.map Prod.snd := by
  induction passes generalizing extraction with
  | nil => rfl
  | cons pass rest ih =>
      by_cases full : extraction.isFull job.limit = true
      · rw [runUntilFault, if_pos full, job.passFailures_of_full _ full]
        rfl
      · rw [runUntilFault, if_neg full]
        unfold passFailures failuresOf stepFailure? afterPass
        rw [if_neg full, Bool.eq_false_iff.mpr full]
        cases job.faults.step? pass.1 with
        | some message => rfl
        | none => exact ih _

/-- The limited strategy gives what it collected, or the crash of its first failure. -/
theorem runLimited_eq (job : Job) :
    job.runLimited =
      (job.failures .limited).head?.elim (.ok (job.runUntilFault job.limitedPasses {}).1)
        fun failure => .error failure.2 := by
  have crash := job.runUntilFault_crash job.limitedPasses {}
  unfold runLimited failures
  dsimp only
  split
  · rename_i extraction ran
    have whole : job.runUntilFault job.limitedPasses {} = (extraction, none) := ran
    rw [whole] at crash ⊢
    rw [Option.map_eq_none_iff.mp crash.symm]
    rfl
  · rename_i extraction last ran
    have whole : job.runUntilFault job.limitedPasses {} = (extraction, some last) := ran
    rw [whole] at crash
    obtain ⟨failure, first, same⟩ := Option.map_eq_some_iff.mp crash.symm
    rw [first, ← same]
    rfl

/-! ### Failures that are told of -/

private theorem foldl_problems {σ : Type} (job : Job)
    {failure? : Extraction Node → σ → Option (String × Crash)}
    {next : Extraction Node → σ → Extraction Node}
    (told : ∀ extraction part, (next extraction part).problems =
      extraction.problems ++ (failure? extraction part).toList.map job.told)
    (parts : List σ) (extraction : Extraction Node) :
    (parts.foldl next extraction).problems =
      extraction.problems ++ (failuresOf failure? next parts extraction).map job.told := by
  induction parts generalizing extraction with
  | nil => exact (List.append_nil _).symm
  | cons part rest ih =>
      rw [List.foldl_cons, ih, told, failuresOf, List.map_append, List.append_assoc]

private theorem runStep_problems (job : Job) (extraction : Extraction Node) (step : Step) :
    (job.runStep extraction step).problems =
      extraction.problems ++ (job.stepFailure? extraction step).toList.map job.told := by
  unfold runStep stepFailure?
  by_cases full : extraction.isFull job.limit = true
  · rw [if_pos full, if_pos full]
    exact (List.append_nil _).symm
  · rw [if_neg full, if_neg full]
    cases job.faults.step? step with
    | some message => rfl
    | none => exact (List.append_nil _).symm

private theorem readChunk_crash (job : Job) {extraction : Extraction Node} {chunk : Nat × Nat}
    (room : extraction.isFull job.limit = false) :
    job.chunkFailure? extraction chunk =
      (job.readChunk chunk.1 chunk.2 extraction).2.map fun crash => (chunkName chunk, crash) := by
  unfold chunkFailure? readChunk
  rw [room]
  cases job.faults.chunk? chunk.1 with
  | some message => rfl
  | none =>
      dsimp only
      rw [runUntilFault_crash, Option.map_map]
      rfl

private theorem runChunk_told (job : Job) (extraction : Extraction Node) (chunk : Nat × Nat) :
    (job.runChunk extraction chunk).problems =
      extraction.problems ++ (job.chunkFailure? extraction chunk).toList.map job.told := by
  cases full : extraction.isFull job.limit with
  | true =>
      unfold runChunk chunkFailure?
      rw [full]
      exact (List.append_nil _).symm
  | false =>
      rw [job.readChunk_crash full]
      have kept := job.readChunk_problems chunk.1 chunk.2 extraction
      unfold runChunk
      rw [full]
      rcases read : job.readChunk chunk.1 chunk.2 extraction with ⟨reached, _ | crash⟩
      · rw [read] at kept
        exact kept.trans (List.append_nil _).symm
      · rw [read] at kept
        exact congrArg (· ++ [job.told (chunkName chunk, crash)]) kept

/-- Every run that is not ended by a failure tells of all failures. -/
theorem run_problems (job : Job) (strategy : Strategy) {extraction : Extraction Node}
    (ran : job.run strategy = .ok extraction) :
    extraction.problems = (job.failures strategy).map job.told := by
  cases strategy with
  | full =>
      rw [run_full_eq] at ran
      cases ran
      exact job.foldl_problems job.runStep_problems Step.all {}
  | limited =>
      rw [run_limited_eq, runLimited_eq] at ran
      cases failed : job.failures .limited with
      | nil =>
          rw [failed] at ran
          cases ran
          exact job.runUntilFault_problems job.limitedPasses {}
      | cons first rest =>
          rw [failed] at ran
          cases ran
  | streaming =>
      rw [run_streaming_eq] at ran
      cases ran
      exact job.foldl_problems job.runChunk_told (chunks job.source.text Config.chunkSize) {}

private theorem run_eq_ok_iff (job : Job) (strategy : Strategy) :
    (∃ extraction, job.run strategy = .ok extraction) ↔
      ¬ (strategy = .limited ∧ job.failures .limited ≠ []) := by
  cases strategy with
  | full => exact ⟨fun _ fails => Strategy.noConfusion fails.1, fun _ => ⟨_, rfl⟩⟩
  | streaming => exact ⟨fun _ fails => Strategy.noConfusion fails.1, fun _ => ⟨_, rfl⟩⟩
  | limited =>
      rw [run_limited_eq, runLimited_eq]
      cases job.failures .limited with
      | nil => exact ⟨fun _ fails => fails.2 rfl, fun _ => ⟨_, rfl⟩⟩
      | cons first rest =>
          constructor
          · rintro ⟨_, ran⟩
            cases ran
          · intro spared
            exact absurd ⟨rfl, List.cons_ne_nil first rest⟩ spared

end Job

/-- The first failure under the limited strategy reaches the caller. -/
theorem parse_eq_crash {config : Config} {content : String}
    (admits : Admits config content .limited) {faults : Faults} (path : String)
    {context : Option Context} {failure : String × Crash}
    (first : ((jobOf config .limited faults content context).failures .limited).head? =
      some failure) :
    (parse config faults content path context).value = .error (.crash failure.2) := by
  have ran : (jobOf config .limited faults content context).run .limited = .error failure.2 := by
    rw [Job.run_limited_eq, Job.runLimited_eq, first]
    rfl
  rw [admits.parse faults path context, ran]

/-- A file within the size gives a tree that tells of every failure and whose symbols can be read,
unless a step fails under the limited strategy; then the caller gets the crash of the first step
that fails. -/
theorem parse_records_failures_iff {config : Config} {content : String} {strategy : Strategy}
    (admits : Admits config content strategy) (faults : Faults) (path : String)
    (context : Option Context) :
    ((∃ parsed found, (parse config faults content path context).value = .ok parsed ∧
        parsed.tree.root.metadata.Tells
          (((jobOf config strategy faults content context).failures strategy).map
            (jobOf config strategy faults content context).told) ∧
        symbols parsed.tree = .ok found) ↔
      ¬ (strategy = .limited ∧
        (jobOf config strategy faults content context).failures .limited ≠ [])) ∧
    ∀ failure, strategy = .limited →
      ((jobOf config strategy faults content context).failures .limited).head? = some failure →
      (parse config faults content path context).value = .error (.crash failure.2) := by
  have made := admits.parse faults path context
  refine ⟨?_, ?_⟩
  · rw [← Job.run_eq_ok_iff]
    constructor
    · rintro ⟨parsed, found, first, _⟩
      rw [first] at made
      cases ran : (jobOf config strategy faults content context).run strategy with
      | error crash =>
          rw [ran] at made
          cases made
      | ok extraction => exact ⟨extraction, rfl⟩
    · rintro ⟨extraction, ran⟩
      rw [ran] at made
      obtain ⟨found, read⟩ := symbols_assemble config _ strategy path ran
      refine ⟨_, found, made, ?_, read⟩
      rw [assemble_root, ← Job.run_problems _ strategy ran]
      exact rootFields_tells config _ strategy path extraction
  · intro failure limited first
    subst limited
    exact parse_eq_crash admits path first

/-- A chunk in which classes fail is told of, and the rest of the file can be read. -/
theorem parse_records_failing_classes :
    let chunkwise : Config := { performance := { streamingThreshold := 1 } }
    let faults : Faults := { step? := failingAt .classes }
    Admits chunkwise "class A {}" .streaming ∧
      ∃ parsed found, (parse chunkwise faults "class A {}" "a.dart" none).value = .ok parsed ∧
        parsed.tree.root.metadata.Tells
          ["stream_chunk_0: stream_chunk_0  (): panic recovered: boom"] ∧
        symbols parsed.tree = .ok found := by
  intro chunkwise faults
  have admits : Admits chunkwise "class A {}" .streaming := ⟨by decide, by decide⟩
  have failures : ((jobOf chunkwise .streaming faults "class A {}" none).failures
      .streaming).map (jobOf chunkwise .streaming faults "class A {}" none).told =
      ["stream_chunk_0: stream_chunk_0  (): panic recovered: boom"] := by decide +kernel
  have recorded := (parse_records_failures_iff admits faults "a.dart" none).1.mpr
    fun limited => Strategy.noConfusion limited.1
  rw [failures] at recorded
  exact ⟨admits, recorded⟩

/-- In a file of middling size a step that fails leaves no tree at all. -/
theorem limited_failure_escapes :
    ¬ ∀ (config : Config) (faults : Faults) (content path : String) (context : Option Context),
      content.utf8ByteSize ≤ config.dart.maxFileSize →
      ∃ parsed, (parse config faults content path context).value = .ok parsed := by
  intro parses
  let middling : Config := { performance := { streamingThreshold := 1000, limitedThreshold := 0 } }
  let faults : Faults := { step? := failingAt .classes }
  have admits : Admits middling "class A {}" .limited := ⟨by decide, by decide⟩
  have first : ((jobOf middling .limited faults "class A {}" none).failures .limited).head? =
      some ("extract_classes", .fault "boom") := by decide +kernel
  obtain ⟨parsed, made⟩ := parses middling faults "class A {}" "a.dart" none admits.allowed
  cases made.symm.trans (parse_eq_crash admits "a.dart" first)

end SourceOutline.Dart
