import SourceOutline.Dart.Parser
import SourceOutline.Proofs.Dart.Claim
import SourceOutline.Proofs.Extraction.Attempt

set_option autoImplicit false

/-! The parts in which a Dart file is taken apart: the steps over the whole file, or the chunks.

A chunk is a part as a whole: as long as no step fails, going through its steps is taking all that
they give. -/

namespace SourceOutline

namespace Dart

def jobOf (config : Config) (strategy : Strategy) (faults : Faults) (content : String)
    (context : Option Context) : Job where
  source := .ofContent content
  limit := strategy.limit config.performance
  faults := faults
  context := context

def Job.HasRoom (job : Job) (strategy : Strategy) : Prop :=
  ∃ extraction, job.run strategy = .ok extraction ∧ extraction.isFull job.limit = false

/-- The file is small enough to be parsed, and this is the strategy for it. -/
structure Admits (config : Config) (content : String) (strategy : Strategy) : Prop where
  allowed : content.utf8ByteSize ≤ config.dart.maxFileSize
  chosen : Strategy.ofSize config.performance content.utf8ByteSize = strategy

theorem Admits.parse {config : Config} {content : String} {strategy : Strategy}
    (admits : Admits config content strategy) (faults : Faults) (path : String)
    (context : Option Context) :
    (parse config faults content path context).value =
      match (jobOf config strategy faults content context).run strategy with
      | .error crash => .error (.crash crash)
      | .ok extraction =>
          .ok (assemble config (jobOf config strategy faults content context) strategy path
            extraction).value := by
  obtain ⟨allowed, chosen⟩ := admits
  unfold Dart.parse
  dsimp only
  rw [if_neg (Nat.not_lt.mpr allowed), chosen]
  change Logged.value (match (jobOf config strategy faults content context).run strategy with
    | .error crash => _
    | .ok extraction => _) = _
  split <;> rfl

theorem Admits.parse_full {config : Config} {content : String}
    (admits : Admits config content .full) (faults : Faults) (path : String)
    (context : Option Context) :
    (Dart.parse config faults content path context).value =
      .ok (assemble config (jobOf config .full faults content context) .full path
        (jobOf config .full faults content context).runFull).value := by
  rw [admits.parse, Job.run_full_eq]

/-- Every tree is made from what a run collected. -/
theorem run_of_parsed {config : Config} {faults : Faults} {content path : String}
    {context : Option Context} {parsed : Parsed}
    (made : (parse config faults content path context).value = .ok parsed) :
    ∃ strategy extraction, Admits config content strategy ∧
      (jobOf config strategy faults content context).run strategy = .ok extraction ∧
      (assemble config (jobOf config strategy faults content context) strategy path
        extraction).value = parsed := by
  have allowed : content.utf8ByteSize ≤ config.dart.maxFileSize := by
    refine Nat.le_of_not_lt fun large => ?_
    unfold parse at made
    dsimp only at made
    rw [if_pos large] at made
    cases made
  let strategy := Strategy.ofSize config.performance content.utf8ByteSize
  have admits : Admits config content strategy := ⟨allowed, rfl⟩
  rw [admits.parse] at made
  cases ran : (jobOf config strategy faults content context).run strategy with
  | error crash =>
      rw [ran] at made
      cases made
  | ok extraction =>
      rw [ran] at made
      exact ⟨strategy, extraction, admits, ran, Except.ok.inj made⟩

/-! ### Steps and chunks as parts -/

def Job.stepPlan (job : Job) : Plan Step Node where
  limit := job.limit
  weight := weight
  context := job.context
  name := Step.name
  fault? := job.faults.step?
  gives step := step.declarations job.source (.whole job.source)

def chunkDeclarations (source : Source) (chunk : Nat × Nat) : List Node :=
  streamingSteps.flatMap fun step =>
    step.declarations source { start := chunk.1, stop := chunk.2 }

def chunkName (chunk : Nat × Nat) : String :=
  "stream_chunk_" ++ toString chunk.1

def Job.chunkPlan (job : Job) : Plan (Nat × Nat) Node where
  limit := job.limit
  weight := weight
  context := job.context
  name := chunkName
  fault? chunk := job.faults.chunk? chunk.1
  gives := chunkDeclarations job.source

def Faults.SparesSteps (faults : Faults) : Prop :=
  ∀ step, faults.step? step = none

theorem Job.runUntilFault_sound {job : Job} (sound : job.faults.SparesSteps)
    (passes : List (Step × Pass)) (extraction : Extraction Node) :
    job.runUntilFault passes extraction =
      (extraction.take job.limit weight
        (passes.flatMap fun each => each.1.declarations job.source each.2), none) := by
  induction passes generalizing extraction with
  | nil =>
      unfold runUntilFault Extraction.take
      simp [takeWithin]
  | cons pass rest ih =>
      rw [runUntilFault]
      by_cases full : extraction.isFull job.limit = true
      · rw [if_pos full, Extraction.take_of_full full]
      · rw [if_neg full, sound pass.1, List.flatMap_cons, Extraction.take_append]
        exact ih _

private theorem Job.exists_run {job : Job} (sound : job.faults.SparesSteps) (strategy : Strategy) :
    ∃ extraction, job.run strategy = .ok extraction := by
  cases strategy with
  | full => exact ⟨_, rfl⟩
  | limited =>
      rw [run_limited_eq]
      unfold runLimited
      dsimp only
      rw [runUntilFault_sound sound]
      exact ⟨_, rfl⟩
  | streaming => exact ⟨_, rfl⟩

theorem exists_parsed {config : Config} {content : String}
    (allowed : content.utf8ByteSize ≤ config.dart.maxFileSize) {faults : Faults}
    (sound : faults.SparesSteps) (path : String) (context : Option Context) :
    ∃ parsed, (parse config faults content path context).value = .ok parsed := by
  have admits : Admits config content _ := ⟨allowed, rfl⟩
  obtain ⟨extraction, ran⟩ :=
    @Job.exists_run (jobOf config _ faults content context) sound
      (Strategy.ofSize config.performance content.utf8ByteSize)
  rw [admits.parse, ran]
  exact ⟨_, rfl⟩

private theorem Job.runChunk_eq {job : Job} (sound : job.faults.SparesSteps)
    (extraction : Extraction Node) (chunk : Nat × Nat) :
    job.runChunk extraction chunk = job.chunkPlan.attempt extraction chunk := by
  unfold runChunk Plan.attempt readChunk
  change (if extraction.isFull job.limit = true then _ else _) =
    if extraction.isFull job.limit = true then _ else _
  by_cases full : extraction.isFull job.limit = true
  · rw [if_pos full, if_pos full]
  · rw [if_neg full, if_neg full]
    rw [show job.chunkPlan.fault? chunk = job.faults.chunk? chunk.1 from rfl]
    cases job.faults.chunk? chunk.1 with
    | some message => rfl
    | none =>
        dsimp only
        rw [runUntilFault_sound sound, List.flatMap_map]
        rfl

theorem Job.run_streaming {job : Job} (sound : job.faults.SparesSteps) :
    job.run .streaming =
      .ok (job.chunkPlan.run (chunks job.source.text Config.chunkSize) {}) := by
  have same : job.runChunk = job.chunkPlan.attempt := by
    funext extraction chunk
    exact runChunk_eq sound extraction chunk
  rw [run_streaming_eq]
  unfold runStreaming Plan.run
  rw [same]

end Dart

end SourceOutline
