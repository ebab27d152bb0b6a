import SourceOutline.Dart.Strategy
import SourceOutline.Proofs.Pattern.Part
import SourceOutline.Proofs.Source.Chunk
import SourceOutline.Proofs.Source.Position

set_option autoImplicit false

/-! No function claims what another one has claimed.

A function header starts a line, and the next one starts behind it.  So each claims its name on a
line of its own, and all functions are taken.  What the strategies collect can therefore be told
without the claims: `Job.runFull`, `Job.runLimited` and `Job.runStreaming` do the same work and look
at no claim. -/

namespace SourceOutline.Dart

/-! ### Collecting without claims -/

namespace Job

def runStep (job : Job) (extraction : Extraction Node) (step : Step) : Extraction Node :=
  if extraction.isFull job.limit then extraction
  else
    match job.faults.step? step with
    | some message => extraction.fail step.name (.fault message) job.context
    | none => extraction.take job.limit weight (step.declarations job.source (.whole job.source))

def runFull (job : Job) : Extraction Node :=
  Step.all.foldl job.runStep {}

def runUntilFault (job : Job) :
    List (Step × Pass) → Extraction Node → Extraction Node × Option Crash
  | [], extraction => (extraction, none)
  | (step, pass) :: rest, extraction =>
      if extraction.isFull job.limit then (extraction, none)
      else
        match job.faults.step? step with
        | some message => (extraction, some (.fault message))
        | none =>
            job.runUntilFault rest
              (extraction.take job.limit weight (step.declarations job.source pass))

def runLimited (job : Job) : Except Crash (Extraction Node) :=
  let passes := limitedCaps.map fun (step, cap) =>
    (step, { start := 0, stop := job.source.size, cap := some cap : Pass })
  match job.runUntilFault passes {} with
  | (extraction, none) => .ok extraction
  | (_, some crash) => .error crash

def readChunk (job : Job) (start stop : Nat) (extraction : Extraction Node) :
    Extraction Node × Option Crash :=
  match job.faults.chunk? start with
  | some message => (extraction, some (.fault message))
  | none => job.runUntilFault (streamingSteps.map fun step => (step, { start, stop })) extraction

def runChunk (job : Job) (extraction : Extraction Node) (chunk : Nat × Nat) : Extraction Node :=
  if extraction.isFull job.limit then extraction
  else
    match job.readChunk chunk.1 chunk.2 extraction with
    | (extraction, none) => extraction
    | (extraction, some crash) =>
        extraction.fail ("stream_chunk_" ++ toString chunk.1) crash job.context

def runStreaming (job : Job) (chunkSize : Nat) : Extraction Node :=
  (chunks job.source.text chunkSize).foldl job.runChunk {}

end Job

/-! ### Lines of function headers -/

section

variable {source : Source} {pass : Pass}

private theorem lineOf_lt_of_atLineStart {offset place : Nat} (before : offset < place)
    (inside : place ≤ source.size) (starts : Pattern.atLineStart source.text place = true) :
    source.lineOf offset < source.lineOf place := by
  cases place with
  | zero => cases before
  | succ last =>
      obtain ⟨c, read⟩ := Source.exists_read inside
      have feed : c = '\n' := by
        change source.text[last]?.any (· == '\n') = true at starts
        rw [read] at starts
        exact beq_iff_eq.mp starts
      calc source.lineOf offset ≤ source.lineOf last :=
            (Source.mark_mono (Nat.le_of_lt_succ before) (Nat.le_of_lt inside)).1
        _ < source.lineOf last + 1 := Nat.lt_succ_self _
        _ = source.lineOf (last + 1) := by rw [Source.lineOf_succ read, if_pos feed]

/-- The name in a function header stands in the header, and the header starts a line. -/
theorem function_name_within {start stop : Nat} (inside : stop ≤ source.size) {found : Match}
    (member : found ∈ functionPattern.findAllBetween source.text start stop) :
    Pattern.atLineStart source.text found.start = true ∧ start ≤ found.start ∧
      found.start ≤ found.partStart .name ∧ found.partStart .name < found.stop ∧
      found.stop ≤ stop := by
  obtain ⟨behind, within, ends⟩ :=
    Pattern.mem_findAllBetween (by decide +kernel) (by decide +kernel) inside member
  obtain ⟨_, first, _⟩ := Pattern.ends_seq.mp ends
  obtain ⟨_, order, before, _, _⟩ :=
    @Pattern.Footing.mem_findAllBetween _ ⟨none, some .name⟩ _ _ _ rfl
      (Pattern.opens_seq Pattern.word_opens _) _ _ inside _ member
  exact ⟨(Pattern.ends_lineStart.mp first).1, behind, order, before, within⟩

private theorem capFunctions_sublist {α : Type} (pass : Pass) (sortOf : α → FunctionSort)
    (counts : FunctionCounts) (items : List α) :
    (capFunctions pass sortOf counts items).Sublist items := by
  induction items generalizing counts with
  | nil => exact List.Sublist.slnil
  | cons item rest ih =>
      rw [capFunctions]
      split
      · exact (ih counts).cons item
      · exact (ih _).cons_cons item

private theorem capFunctions_map {α β : Type} (pass : Pass) (sortOf : β → FunctionSort)
    (make : α → β) (counts : FunctionCounts) (items : List α) :
    (capFunctions pass (fun item => sortOf (make item)) counts items).map make =
      capFunctions pass sortOf counts (items.map make) := by
  induction items generalizing counts with
  | nil => rfl
  | cons item rest ih =>
      rw [List.map_cons, capFunctions, capFunctions]
      split
      · exact ih counts
      · rw [List.map_cons, ih]

theorem functionNodes_eq_capped (source : Source) (pass : Pass) :
    functionNodes source pass =
      if pass.capsAsync then
        capFunctions pass FunctionSort.ofNode {}
          (((pass.found source functionPattern).filter (isFunction source)).map
            (functionNode source))
      else ((pass.found source functionPattern).filter (isFunction source)).map
        (functionNode source) := by
  unfold functionNodes claimedFunctions
  dsimp only
  split
  · rw [capFunctions_map pass FunctionSort.ofNode Prod.snd, List.map_map]
    rfl
  · rw [List.map_map]
    rfl

theorem claimedFunctions_sublist (source : Source) (pass : Pass) :
    (claimedFunctions source pass).Sublist
      (((pass.found source functionPattern).filter (isFunction source)).map fun found =>
        (Claim.ofMatch source found, functionNode source found)) := by
  unfold claimedFunctions
  dsimp only
  split
  · exact capFunctions_sublist _ _ _ _
  · exact List.Sublist.refl _

theorem functionNodes_sublist (source : Source) (pass : Pass) :
    (functionNodes source pass).Sublist
      (functionNodes source { pass with capsAsync := false }) := by
  have whole : functionNodes source { pass with capsAsync := false } =
      (((pass.found source functionPattern).filter (isFunction source)).map fun found =>
        (Claim.ofMatch source found, functionNode source found)).map Prod.snd := rfl
  rw [whole]
  exact (claimedFunctions_sublist source pass).map Prod.snd

/-- Each function of a pass makes its claim on a later line than the one before. -/
theorem claimedFunctions_pairwise (inside : pass.stop ≤ source.size) :
    (claimedFunctions source pass).Pairwise fun function later =>
      function.1.line < later.1.line := by
  refine List.Pairwise.sublist (claimedFunctions_sublist source pass) (List.pairwise_map.mpr ?_)
  refine List.Pairwise.filter _ (List.Pairwise.imp_of_mem ?_ (Pattern.findAllFrom_pairwise _))
  intro found later member listed apart
  obtain ⟨_, _, _, before, _⟩ := function_name_within inside member
  obtain ⟨starts, _, behind, ahead, within⟩ := function_name_within inside listed
  calc source.lineOf (found.partStart .name)
      < source.lineOf later.start :=
        lineOf_lt_of_atLineStart (by omega) (by omega) starts
    _ ≤ source.lineOf (later.partStart .name) := (Source.mark_mono behind (by omega)).1

end

/-! ### Claims that are free -/

private theorem takeUnclaimed_free {claimed : List Claim} {functions : List (Claim × Node)}
    (free : ∀ function ∈ functions, function.1 ∉ claimed)
    (distinct : functions.Pairwise fun function later => function.1 ≠ later.1) :
    (takeUnclaimed claimed functions).1 = functions.map Prod.snd ∧
      ∀ claim ∈ (takeUnclaimed claimed functions).2,
        claim ∈ claimed ∨ ∃ function ∈ functions, function.1 = claim := by
  induction functions generalizing claimed with
  | nil => exact ⟨rfl, fun claim member => .inl member⟩
  | cons function rest ih =>
      obtain ⟨apart, others⟩ := List.pairwise_cons.mp distinct
      have unclaimed : claimed.contains function.1 = false := by
        simpa using free function List.mem_cons_self
      have further : ∀ later ∈ rest, later.1 ∉ function.1 :: claimed := by
        intro later member held
        rcases List.mem_cons.mp held with same | held
        · exact apart later member same.symm
        · exact free later (List.mem_cons_of_mem _ member) held
      obtain ⟨taken, claims⟩ := ih further others
      rw [takeUnclaimed, unclaimed, if_neg Bool.false_ne_true]
      refine ⟨congrArg (function.2 :: ·) taken, fun claim member => ?_⟩
      rcases claims claim member with held | ⟨later, listed, same⟩
      · rcases List.mem_cons.mp held with same | held
        · exact .inr ⟨function, List.mem_cons_self, same.symm⟩
        · exact .inl held
      · exact .inr ⟨later, List.mem_cons_of_mem _ listed, same⟩

def ClaimsBefore (source : Source) (bound : Nat) (claimed : List Claim) : Prop :=
  ∀ claim ∈ claimed, ∃ offset < bound, claim.line = source.lineOf offset

section

variable {source : Source} {bound : Nat} {claimed : List Claim}

private theorem ClaimsBefore.mono (before : ClaimsBefore source bound claimed) {later : Nat}
    (behind : bound ≤ later) : ClaimsBefore source later claimed := by
  intro claim member
  obtain ⟨offset, early, same⟩ := before claim member
  exact ⟨offset, Nat.lt_of_lt_of_le early behind, same⟩

private theorem ClaimsBefore.takeUnclaimed (before : ClaimsBefore source bound claimed)
    {pass : Pass} (behind : bound ≤ pass.start) (forward : pass.start ≤ pass.stop)
    (inside : pass.stop ≤ source.size) :
    (takeUnclaimed claimed (claimedFunctions source pass)).1 = functionNodes source pass ∧
      ClaimsBefore source pass.stop (takeUnclaimed claimed (claimedFunctions source pass)).2 := by
  have made : ∀ function ∈ claimedFunctions source pass, ∃ found,
      found ∈ pass.found source functionPattern ∧ function.1 = .ofMatch source found := by
    intro function member
    obtain ⟨found, kept, same⟩ :=
      List.mem_map.mp ((claimedFunctions_sublist source pass).mem member)
    exact ⟨found, (List.mem_filter.mp kept).1, congrArg Prod.fst same.symm⟩
  have free : ∀ function ∈ claimedFunctions source pass, function.1 ∉ claimed := by
    intro function member held
    obtain ⟨found, listed, same⟩ := made function member
    obtain ⟨offset, early, line⟩ := before _ held
    obtain ⟨starts, ahead, within, short, stops⟩ := function_name_within inside listed
    have apart := lineOf_lt_of_atLineStart (show offset < found.start by omega) (by omega) starts
    have onward := (Source.mark_mono within (show _ ≤ source.size by omega)).1
    have equal : source.lineOf (found.partStart .name) = source.lineOf offset := by
      rw [← line, same]
      rfl
    omega
  have distinct := (claimedFunctions_pairwise inside).imp
    fun {function later : Claim × Node} (apart : function.1.line < later.1.line) =>
      fun same : function.1 = later.1 => Nat.ne_of_lt apart (congrArg Claim.line same)
  obtain ⟨taken, claims⟩ := takeUnclaimed_free free distinct
  refine ⟨taken, fun claim member => ?_⟩
  rcases claims claim member with held | ⟨function, listed, rfl⟩
  · exact before.mono (Nat.le_trans behind forward) claim held
  · obtain ⟨found, member, same⟩ := made function listed
    obtain ⟨_, _, _, short, stops⟩ := function_name_within inside member
    exact ⟨found.partStart .name, Nat.lt_of_lt_of_le short stops, by rw [same]; rfl⟩

end

/-! ### Passes in order -/

/-- The end of the last pass for functions. -/
def reached (bound : Nat) (each : Step × Pass) : Nat :=
  if each.1 = .functions then each.2.stop else bound

/-- The passes for functions go on from one offset to another: each begins where the last one
stopped or behind it. -/
private def GoOn (source : Source) (stop : Nat) : Nat → List (Step × Pass) → Prop
  | bound, [] => bound ≤ stop
  | bound, each :: rest =>
      (each.1 = .functions →
        bound ≤ each.2.start ∧ each.2.start ≤ each.2.stop ∧ each.2.stop ≤ source.size) ∧
      GoOn source stop (reached bound each) rest

namespace GoOn

variable {source : Source} {stop bound : Nat} {passes : List (Step × Pass)}

private theorem le (goOn : GoOn source stop bound passes) : bound ≤ stop := by
  induction passes generalizing bound with
  | nil => exact goOn
  | cons each rest ih =>
      obtain ⟨behind, others⟩ := goOn
      unfold reached at others
      split at others
      · rename_i functions
        obtain ⟨before, forward, _⟩ := behind functions
        exact Nat.le_trans (Nat.le_trans before forward) (ih others)
      · exact ih others

private theorem tail {each : Step × Pass} (goOn : GoOn source stop bound (each :: passes))
    {claimed : List Claim} (before : ClaimsBefore source bound claimed) :
    ClaimsBefore source (reached bound each) claimed := by
  unfold reached
  split
  · rename_i functions
    obtain ⟨behind, forward, _⟩ := goOn.1 functions
    exact before.mono (Nat.le_trans behind forward)
  · exact before

end GoOn

namespace Job

variable {job : Job} {stop bound : Nat} {extraction : Extraction Node} {claimed : List Claim}

private theorem take_eq {each : Step × Pass} {rest : List (Step × Pass)}
    (goOn : GoOn job.source stop bound (each :: rest))
    (before : ClaimsBefore job.source bound claimed) :
    ∃ further, ClaimsBefore job.source (reached bound each) further ∧
      job.take each.1 each.2 ⟨extraction, claimed⟩ =
        ⟨extraction.take job.limit weight (each.1.declarations job.source each.2), further⟩ := by
  obtain ⟨step, pass⟩ := each
  cases step with
  | functions =>
      obtain ⟨behind, forward, inside⟩ := goOn.1 rfl
      obtain ⟨taken, claims⟩ := before.takeUnclaimed behind forward inside
      refine ⟨_, claims, ?_⟩
      change Progress.mk (extraction.take job.limit weight (takeUnclaimed claimed _).1) _ = _
      rw [taken]
      rfl
  | imports | classes | mixins | extensions | enums | typedefs | topVariables | parts =>
      exact ⟨claimed, before, rfl⟩

private theorem collectUntilFault_eq {passes : List (Step × Pass)}
    (goOn : GoOn job.source stop bound passes)
    (before : ClaimsBefore job.source bound claimed) :
    ∃ further, ClaimsBefore job.source stop further ∧
      job.collectUntilFault passes ⟨extraction, claimed⟩ =
        (⟨(job.runUntilFault passes extraction).1, further⟩,
          (job.runUntilFault passes extraction).2) := by
  induction passes generalizing bound extraction claimed with
  | nil => exact ⟨claimed, before.mono goOn, rfl⟩
  | cons each rest ih =>
      have kept := before.mono goOn.le
      rw [collectUntilFault, runUntilFault, Progress.isFull]
      split
      · exact ⟨claimed, kept, rfl⟩
      · cases job.faults.step? each.1 with
        | some message => exact ⟨claimed, kept, rfl⟩
        | none =>
            obtain ⟨further, claims, taken⟩ := take_eq goOn before
            dsimp only
            rw [taken]
            exact ih goOn.2 claims

/-! ### The strategies -/

private theorem collectStep_eq {step : Step} {rest : List (Step × Pass)}
    (goOn : GoOn job.source stop bound ((step, .whole job.source) :: rest))
    (before : ClaimsBefore job.source bound claimed) :
    ∃ further, ClaimsBefore job.source (reached bound (step, .whole job.source)) further ∧
      job.collectStep ⟨extraction, claimed⟩ step = ⟨job.runStep extraction step, further⟩ := by
  have kept := goOn.tail before
  unfold collectStep runStep Progress.isFull
  split
  · exact ⟨claimed, kept, rfl⟩
  · cases job.faults.step? step with
    | some message => exact ⟨claimed, kept, rfl⟩
    | none => exact take_eq goOn before

private theorem foldl_collectStep_eq {steps : List Step}
    (goOn : GoOn job.source stop bound (steps.map fun step => (step, .whole job.source)))
    (before : ClaimsBefore job.source bound claimed) :
    (steps.foldl job.collectStep ⟨extraction, claimed⟩).extraction =
      steps.foldl job.runStep extraction := by
  induction steps generalizing bound extraction claimed with
  | nil => rfl
  | cons step rest ih =>
      obtain ⟨further, claims, taken⟩ := collectStep_eq goOn before
      rw [List.foldl_cons, List.foldl_cons, taken]
      exact ih goOn.2 claims

private theorem claimsBefore_nil (source : Source) (bound : Nat) : ClaimsBefore source bound [] :=
  fun _ none => absurd none List.not_mem_nil

theorem run_full_eq (job : Job) : job.run .full = .ok job.runFull := by
  have goOn : GoOn job.source job.source.size 0
      (Step.all.map fun step => (step, .whole job.source)) := by
    simp [GoOn, reached, Step.all, Pass.whole]
  exact congrArg Except.ok (foldl_collectStep_eq goOn (claimsBefore_nil _ _))

theorem run_limited_eq (job : Job) : job.run .limited = job.runLimited := by
  have goOn : GoOn job.source job.source.size 0 (limitedCaps.map fun (step, cap) =>
      (step, { start := 0, stop := job.source.size, cap := some cap : Pass })) := by
    simp [GoOn, reached, limitedCaps]
  obtain ⟨further, _, collected⟩ := collectUntilFault_eq goOn (claimsBefore_nil _ _)
  change job.collectLimited = _
  unfold collectLimited runLimited
  dsimp only
  rw [collected]
  rcases job.runUntilFault _ {} with ⟨extraction, _ | crash⟩ <;> rfl

/-- Claims that were made before a chunk leave the functions of the chunk free. -/
theorem collectChunk_eq {chunk : Nat × Nat} (forward : chunk.1 ≤ chunk.2)
    (inside : chunk.2 ≤ job.source.size) (before : ClaimsBefore job.source chunk.1 claimed) :
    ∃ further, ClaimsBefore job.source chunk.2 further ∧
      job.collectChunk ⟨extraction, claimed⟩ chunk = ⟨job.runChunk extraction chunk, further⟩ := by
  have kept := before.mono forward
  unfold collectChunk runChunk collectBetween readChunk Progress.isFull
  split
  · exact ⟨claimed, kept, rfl⟩
  · cases job.faults.chunk? chunk.1 with
    | some message => exact ⟨claimed, kept, rfl⟩
    | none =>
        have goOn : GoOn job.source chunk.2 chunk.1
            (streamingSteps.map fun step => (step, { start := chunk.1, stop := chunk.2 })) := by
          simp [GoOn, reached, streamingSteps, forward, inside]
        obtain ⟨further, claims, collected⟩ := collectUntilFault_eq goOn before
        refine ⟨further, claims, ?_⟩
        dsimp only
        rw [collected]
        rcases job.runUntilFault _ extraction with ⟨reached, _ | crash⟩ <;> rfl

private theorem foldl_collectChunk_eq {start : Nat} {chunks : List (Nat × Nat)}
    (tiles : Tiles start chunks job.source.size)
    (before : ClaimsBefore job.source start claimed) :
    (chunks.foldl job.collectChunk ⟨extraction, claimed⟩).extraction =
      chunks.foldl job.runChunk extraction := by
  induction chunks generalizing start extraction claimed with
  | nil => rfl
  | cons chunk rest ih =>
      obtain ⟨rfl, forward, others⟩ := tiles
      obtain ⟨further, claims, collected⟩ :=
        collectChunk_eq (Nat.le_of_lt forward) others.le before
      rw [List.foldl_cons, List.foldl_cons, collected]
      exact ih others claims

theorem run_streaming_eq (job : Job) :
    job.run .streaming = .ok (job.runStreaming Config.chunkSize) :=
  congrArg Except.ok
    (foldl_collectChunk_eq (chunks_tile job.source.text (by decide)) (claimsBefore_nil _ _))

end Job

end SourceOutline.Dart
