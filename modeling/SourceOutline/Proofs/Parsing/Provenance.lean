import SourceOutline.Cpp.Parser
import SourceOutline.Dart.Parser
import SourceOutline.Language
import SourceOutline.Proofs.Dart.Claim
import SourceOutline.Swift.Parser

set_option autoImplicit false

/-! What the tree of a file tells of where it comes from.

It tells the language, the text and the path it was made from.  It does not tell on whose behalf it
was made: where nothing is made to fail, the context of a request enters the work at one place only,
as a C++ file is not parsed for a request that is no longer wanted. -/

namespace SourceOutline

theorem Language.name_injective {left right : Language} (same : left.name = right.name) :
    left = right := by
  cases left <;> cases right <;> first | rfl | exact absurd same (by decide)

structure Tree.IsOf (tree : Tree) (spoken : Language) (text file : String) : Prop where
  language : tree.language = spoken.name
  content : tree.content = text
  hash : tree.hash = digest text
  path : tree.path = file

/-! ### Dart -/

namespace Dart

private theorem Job.runUntilFault_snd (source : Source) (limit : Nat) (context : Option Context)
    (passes : List (Step × Pass)) (extraction : Extraction Node) :
    (Job.runUntilFault ⟨source, limit, {}, context⟩ passes extraction).2 = none := by
  induction passes generalizing extraction with
  | nil => rfl
  | cons pass rest ih =>
      rw [runUntilFault]
      split
      · rfl
      · exact ih _

private theorem Job.runUntilFault_context (source : Source) (limit : Nat)
    (context other : Option Context) (passes : List (Step × Pass))
    (extraction : Extraction Node) :
    Job.runUntilFault ⟨source, limit, {}, context⟩ passes extraction =
      Job.runUntilFault ⟨source, limit, {}, other⟩ passes extraction := by
  induction passes generalizing extraction with
  | nil => rfl
  | cons pass rest ih =>
      rw [runUntilFault, runUntilFault]
      split
      · rfl
      · exact ih _

private theorem Job.runChunk_context (source : Source) (limit : Nat)
    (context other : Option Context) (extraction : Extraction Node) (chunk : Nat × Nat) :
    Job.runChunk ⟨source, limit, {}, context⟩ extraction chunk =
      Job.runChunk ⟨source, limit, {}, other⟩ extraction chunk := by
  have same : Job.readChunk ⟨source, limit, {}, context⟩ chunk.1 chunk.2 extraction =
      Job.readChunk ⟨source, limit, {}, other⟩ chunk.1 chunk.2 extraction :=
    runUntilFault_context source limit context other _ extraction
  have sound : (Job.readChunk ⟨source, limit, {}, other⟩ chunk.1 chunk.2 extraction).2 = none :=
    runUntilFault_snd source limit other _ extraction
  unfold Job.runChunk
  rw [same]
  split
  · rfl
  · split
    · rfl
    · rename_i crashed
      rw [crashed] at sound
      cases sound

private theorem Job.run_context (source : Source) (limit : Nat) (context other : Option Context)
    (strategy : Strategy) :
    Job.run ⟨source, limit, {}, context⟩ strategy =
      Job.run ⟨source, limit, {}, other⟩ strategy := by
  cases strategy with
  | full => rfl
  | limited =>
      rw [run_limited_eq, run_limited_eq]
      unfold Job.runLimited
      dsimp only
      rw [runUntilFault_context source limit context other]
  | streaming =>
      have same : Job.runChunk ⟨source, limit, {}, context⟩ =
          Job.runChunk ⟨source, limit, {}, other⟩ := by
        funext extraction chunk
        exact runChunk_context source limit context other extraction chunk
      rw [run_streaming_eq, run_streaming_eq]
      unfold Job.runStreaming
      rw [same]

theorem parse_value_context (config : Config) (content path : String)
    (context other : Option Context) :
    (parse config {} content path context).value = (parse config {} content path other).value := by
  unfold parse
  dsimp only
  split
  · rfl
  · rw [Job.run_context _ _ context other]
    split <;> rfl

theorem parse_isOf {config : Config} {faults : Faults} {content path : String}
    {context : Option Context} {parsed : Parsed}
    (made : (parse config faults content path context).value = .ok parsed) :
    parsed.tree.IsOf .dart content path := by
  unfold parse at made
  dsimp only at made
  split at made
  · cases made
  · split at made
    · cases made
    · cases made
      exact ⟨rfl, rfl, rfl, rfl⟩

end Dart

/-! ### Swift -/

namespace Swift

theorem parse_value_context (config : Config) (content path : String)
    (context other : Option Context) :
    (parse config {} content path context).value = (parse config {} content path other).value :=
  rfl

theorem parse_isOf {config : Config} {faults : Faults} {content path : String}
    {context : Option Context} {parsed : Parsed}
    (made : (parse config faults content path context).value = .ok parsed) :
    parsed.tree.IsOf .swift content path := by
  cases made
  exact ⟨rfl, rfl, rfl, rfl⟩

end Swift

/-! ### C++ -/

namespace Cpp

/-- Nothing goes wrong around the work on a C++ file: telling features does not fail, the grammar
takes no longer than it may, and the request is still wanted. -/
structure Undisturbed (config : Config) (surroundings : Surroundings)
    (context : Option Context) : Prop where
  features : surroundings.features? = none
  inTime : config.cpp.parseTimeout.lt surroundings.elapsed = false
  wanted : context.any Context.isCancelled = false

private theorem checkContent_context (config : Config.Cpp) (content path : String)
    {context other : Option Context}
    (same : context.any Context.isCancelled = other.any Context.isCancelled) :
    checkContent config content path context = checkContent config content path other := by
  unfold checkContent
  rw [same]

theorem parse_value_context (config : Config) (content path : String)
    {surroundings another : Surroundings} {context other : Option Context}
    (calm : Undisturbed config surroundings context) (calmToo : Undisturbed config another other)
    (grammar : surroundings.grammar = another.grammar) :
    (parse config surroundings content path context).value =
      (parse config another content path other).value := by
  unfold parse
  rw [grammar, checkContent_context config.cpp content path (calm.wanted.trans calmToo.wanted.symm)]
  split
  · rfl
  · rfl
  · split
    · rfl
    · unfold parseTree
      simp only [calm.inTime, calmToo.inTime, Bool.false_and, Bool.false_eq_true, if_false]
      split
      · rfl
      · unfold assemble
        rw [calm.features, calmToo.features]
        rfl

/-- A tree that is made is assembled from a concrete one. -/
theorem exists_assembled {config : Config} {surroundings : Surroundings} {content path : String}
    {context : Option Context} {parsed : Parsed}
    (made : (parse config surroundings content path context).value = .ok parsed) :
    ∃ tree,
      parsed = (assemble config surroundings.features? content path context tree).value := by
  unfold parse at made
  split at made
  · cases made
  · cases made
  · split at made
    · cases made
    · unfold parseTree at made
      dsimp only at made
      split at made
      · cases made
      · split at made
        · cases made
        · cases made
          exact ⟨_, rfl⟩

theorem parse_isOf {config : Config} {surroundings : Surroundings} {content path : String}
    {context : Option Context} {parsed : Parsed}
    (made : (parse config surroundings content path context).value = .ok parsed) :
    parsed.tree.IsOf .cpp content path := by
  obtain ⟨tree, rfl⟩ := exists_assembled made
  exact ⟨rfl, rfl, rfl, rfl⟩

end Cpp

end SourceOutline
