import SourceOutline.Proofs.Dart.CutHeader
import SourceOutline.Proofs.Parsing.Problems
import SourceOutline.Proofs.Swift.Marked

set_option autoImplicit false

/-! A part of the work that fails costs its own nodes and nothing else.

The tree that is made when steps or chunks fail is the tree that is made when none does, without
the nodes that those parts give; its root tells of each of them in the order in which they are
tried. -/

namespace SourceOutline

/-- Of two trees of a file, `left` is `whole` without the nodes marked with parts that fail.  The
root of `left` tells of each of these parts, and all else is the same. -/
def Plan.Isolates {σ α : Type} (plan : Plan σ α) (parts : List σ) (marked : List (Marked σ))
    (whole left : Tree) : Prop :=
  parts.Nodup ∧ ∃ label fields,
    whole.root = .node label (Marked.plainAll marked) ∧
    label.metadata.Tells [] ∧
    left = { whole with
      root := .node { label with metadata := fields }
        (Marked.plainAll (Marked.pruneAll plan.fails marked)) } ∧
    fields.AgreeBesides label.metadata ∧
    fields.Tells ((parts.filter plan.fails).map plan.message)

private theorem Plan.isolates_unit {σ α : Type} {plan : Plan σ α} {parts : List σ}
    {marked : List (Marked σ)} {whole left : Tree} {fields otherFields : Fields}
    {all others : List Node} {source : Source} {id : String} (distinct : parts.Nodup)
    (besides : left = { whole with root := left.root })
    (wholeRoot : whole.root = source.compilationUnit id fields all)
    (leftRoot : left.root = source.compilationUnit id otherFields others)
    (plain : Marked.plainAll marked = Node.inSourceOrder all)
    (pruned : Marked.plainAll (Marked.pruneAll plan.fails marked) = Node.inSourceOrder others)
    (sound : fields.Tells []) (agree : otherFields.AgreeBesides fields)
    (tells : otherFields.Tells ((parts.filter plan.fails).map plan.message)) :
    plan.Isolates parts marked whole left := by
  unfold Source.compilationUnit at wholeRoot leftRoot
  rw [← plain] at wholeRoot
  rw [leftRoot, ← pruned] at besides
  exact ⟨distinct, _, otherFields, wholeRoot, sound, besides, agree, tells⟩

private theorem Marked.plainAll_pruned {σ : Type} (dropped : σ → Bool) (gives : σ → List Node)
    (parts : List σ) :
    plainAll (pruneAll dropped (bySpan span (fromParts gives parts))) =
      Node.inSourceOrder ((parts.filter fun part => !dropped part).flatMap gives) := by
  rw [pruneAll_bySpan, pruneAll_fromParts, plainAll_bySpan, plainAll_fromParts]

namespace Dart

def markedBySteps (source : Source) : List (Marked Step) :=
  bySpan Marked.span
    (Marked.fromParts (fun step => step.declarations source (.whole source)) Step.all)

def markedByChunks (source : Source) : List (Marked (Nat × Nat)) :=
  bySpan Marked.span
    (Marked.fromParts (chunkDeclarations source) (chunks source.text Config.chunkSize))

/-- What holds of steps and chunks alike, since both are tried by a plan. -/
theorem parse_isolates {σ : Type} {config : Config} {strategy : Strategy} {content : String}
    (admits : Admits config content strategy) {faults : Faults} (sound : faults.flutter? = none)
    (path : String) {context : Option Context} {plan : Plan σ Node}
    {parts : List σ} (distinct : parts.Nodup)
    (undisturbed : (jobOf config strategy {} content context).run strategy =
      .ok (plan.faultless.run parts {}))
    (disturbed : (jobOf config strategy faults content context).run strategy =
      .ok (plan.run parts {}))
    (room : (plan.faultless.run parts {}).isFull plan.limit = false) :
    ∃ whole left, (parse config {} content path context).value = .ok whole ∧
      (parse config faults content path context).value = .ok left ∧
      plan.Isolates parts (bySpan Marked.span (Marked.fromParts plan.gives parts))
        whole.tree left.tree := by
  obtain ⟨items, nothing⟩ := Plan.run_faultless room
  obtain ⟨others, problems, _⟩ := Plan.run_spared room
  have first := admits.parse {} path context
  have second := admits.parse faults path context
  rw [undisturbed] at first
  rw [disturbed] at second
  refine ⟨_, _, first, second, ?_⟩
  refine Plan.isolates_unit distinct rfl (assemble_root ..) (assemble_root ..) ?_ ?_ ?_ ?_
    ?_
  · rw [Marked.plainAll_bySpan, Marked.plainAll_fromParts, items]
  · rw [Marked.plainAll_pruned, others]
  · have told := rootFields_tells config (jobOf config strategy {} content context) strategy path
      (plan.faultless.run parts {})
    rwa [nothing] at told
  · refine rootFields_agree config _ _ ?_ sound ?_ strategy path _ _ <;> rfl
  · rw [← problems]
    exact rootFields_tells config _ strategy path _

end Dart

namespace Swift

def jobOf (config : Config) (faults : Faults) (content : String) (context : Option Context) :
    Job where
  source := .ofContent content
  limit := config.performance.maxSymbols
  faults := faults
  context := context

def Job.runAll (job : Job) : Extraction Placed :=
  job.run job.bodies

def Job.HasRoom (job : Job) : Prop :=
  job.runAll.isFull job.limit = false

def Job.stepPlan (job : Job) : Plan Step Placed where
  limit := job.limit
  weight _ := 1
  context := job.context
  name := Step.name
  fault? := job.faults.step?
  gives := Step.placed job.source job.bodies

def markedBySteps (source : Source) : List (Marked Step) :=
  markedTop source (TypeBody.allIn source) (foundBy source (TypeBody.allIn source) Step.all)

theorem topNodes_inSourceOrder (source : Source) (bodies : List TypeBody) (placed : List Placed) :
    Node.inSourceOrder (topNodes source bodies placed) = topNodes source bodies placed :=
  bySpan_bySpan Node.span _

/-- Telling that the limit is reached changes nothing in the tree. -/
theorem report_noteLimit {job : Job} (features : job.faults.features? = none) (path : String)
    (extraction : Extraction Placed) :
    rootFields job (noteLimit job path extraction) = rootFields job extraction ∧
      (reportFeatures job (noteLimit job path extraction)).1.items = extraction.items := by
  unfold rootFields
  rw [reportFeatures_sound features, reportFeatures_sound features]
  unfold noteLimit
  split <;> exact ⟨rfl, rfl⟩

private theorem parse_value {config : Config} {faults : Faults} (features : faults.features? = none)
    (content path : String) (context : Option Context) :
    (parse config faults content path context).value = .ok {
      tree := {
        language := "swift"
        content := content
        hash := digest content
        root := (Source.ofContent content).compilationUnit "swift-root"
          (rootFields (jobOf config faults content context)
            (jobOf config faults content context).runAll)
          (topNodes (.ofContent content) (jobOf config faults content context).bodies
            (jobOf config faults content context).runAll.items)
        path := path } } := by
  have sound : (jobOf config faults content context).faults.features? = none := features
  obtain ⟨fields, items⟩ := report_noteLimit sound path (jobOf config faults content context).runAll
  rw [← fields, ← items]
  rfl

private theorem parse_isolates {config : Config} {content : String} {faults : Faults}
    (features : faults.features? = none) (types : faults.step? .types = none) (path : String)
    {context : Option Context} (room : (jobOf config {} content context).HasRoom) :
    ∃ whole left, (parse config {} content path context).value = .ok whole ∧
      (parse config faults content path context).value = .ok left ∧
      (jobOf config faults content context).stepPlan.Isolates Step.all
        (markedBySteps (.ofContent content)) whole.tree left.tree := by
  have bodies : (jobOf config faults content context).bodies =
      TypeBody.allIn (.ofContent content) := by
    unfold Job.bodies jobOf
    dsimp only
    rw [types]
    rfl
  have gives : (jobOf config faults content context).stepPlan.gives =
      Step.placed (.ofContent content) (TypeBody.allIn (.ofContent content)) := by
    rw [← bodies]
    rfl
  have plans : (jobOf config {} content context).stepPlan =
      (jobOf config faults content context).stepPlan.faultless := by
    unfold Job.stepPlan Plan.faultless
    rw [bodies]
    rfl
  have free : (jobOf config {} content context).runAll =
      (jobOf config faults content context).stepPlan.faultless.run Step.all {} := by
    rw [← plans]
    rfl
  have space : ((jobOf config faults content context).stepPlan.faultless.run Step.all {}).isFull
      (jobOf config faults content context).stepPlan.limit = false := by
    rw [← free]
    exact room
  obtain ⟨items, nothing⟩ := Plan.run_faultless space
  obtain ⟨others, problems, _⟩ := Plan.run_spared space
  refine ⟨_, _, parse_value rfl content path context, parse_value features content path context, ?_⟩
  refine Plan.isolates_unit (by decide) rfl rfl rfl ?_ ?_ ?_ ?_ ?_
  · unfold markedBySteps
    rw [plainAll_markedTop, foundBy_placed, free, items, gives, topNodes_inSourceOrder]
    rfl
  · have kept : (jobOf config faults content context).stepPlan.fails .types = false := by
      unfold Plan.fails Job.stepPlan jobOf
      dsimp only
      rw [types]
      rfl
    have marked := foundBy_typesMarked (.ofContent content) (TypeBody.allIn (.ofContent content))
      Step.all
    unfold markedBySteps
    rw [pruneAll_markedTop kept _ _ marked, foundBy_filter, plainAll_markedTop, foundBy_placed,
      bodies, topNodes_inSourceOrder, ← gives, ← others]
    rfl
  · have told := @rootFields_tells (jobOf config {} content context) rfl
      ((jobOf config faults content context).stepPlan.faultless.run Step.all {})
    rw [free]
    rwa [nothing] at told
  · refine rootFields_agree _ _ ?_ features ?_ _ _ <;> rfl
  · rw [← problems]
    exact rootFields_tells features _

end Swift

/-- Whichever steps or chunks fail, the tree is the one that is made without failures, less the
nodes of those parts, and its root tells of each of them.  In a Swift file the types must not
fail, since the other declarations are placed by them. -/
theorem parse_isolates_failures (config : Config) (content path : String)
    (context : Option Context) :
    (Dart.Admits config content .full →
      (Dart.jobOf config .full {} content context).HasRoom .full →
      ∀ fault? : Dart.Step → Option String, ∃ whole left,
        (Dart.parse config {} content path context).value = .ok whole ∧
        (Dart.parse config { step? := fault? } content path context).value = .ok left ∧
        (Dart.jobOf config .full { step? := fault? } content context).stepPlan.Isolates
          Dart.Step.all (Dart.markedBySteps (.ofContent content)) whole.tree left.tree) ∧
    (Dart.Admits config content .streaming →
      (Dart.jobOf config .streaming {} content context).HasRoom .streaming →
      ∀ fault? : Nat → Option String, ∃ whole left,
        (Dart.parse config {} content path context).value = .ok whole ∧
        (Dart.parse config { chunk? := fault? } content path context).value = .ok left ∧
        (Dart.jobOf config .streaming { chunk? := fault? } content context).chunkPlan.Isolates
          (chunks (Source.ofContent content).text Config.chunkSize)
          (Dart.markedByChunks (.ofContent content)) whole.tree left.tree) ∧
    ((Swift.jobOf config {} content context).HasRoom →
      ∀ fault? : Swift.Step → Option String, fault? .types = none → ∃ whole left,
        (Swift.parse config {} content path context).value = .ok whole ∧
        (Swift.parse config { step? := fault? } content path context).value = .ok left ∧
        (Swift.jobOf config { step? := fault? } content context).stepPlan.Isolates
          Swift.Step.all (Swift.markedBySteps (.ofContent content)) whole.tree left.tree) := by
  refine ⟨?_, ?_, ?_⟩
  · rintro admits ⟨extraction, ran, room⟩ fault?
    cases (Dart.Job.run_full_eq _).symm.trans ran
    exact Dart.parse_isolates admits rfl path (by decide) (Dart.Job.run_full_eq _)
      (Dart.Job.run_full_eq _) room
  · rintro admits ⟨extraction, ran, room⟩ fault?
    have distinct : (chunks (Source.ofContent content).text Config.chunkSize).Nodup :=
      List.Pairwise.of_map Prod.fst (fun _ _ apart same => apart (congrArg Prod.fst same))
        (chunks_tile (Source.ofContent content).text (by decide : 0 < Config.chunkSize)).nodup
    have spared : Dart.Faults.SparesSteps {} := fun _ => rfl
    have sparedToo : Dart.Faults.SparesSteps { chunk? := fault? } := fun _ => rfl
    cases (Dart.Job.run_streaming spared).symm.trans ran
    exact Dart.parse_isolates admits rfl path distinct (Dart.Job.run_streaming spared)
      (Dart.Job.run_streaming sparedToo) room
  · intro room fault? types
    exact Swift.parse_isolates rfl types path room

/-- If the second chunk fails, the class is lost and the function is left. -/
theorem Dart.DistantClass.length_children {width : Nat} (fits : Fits width) {whole left : Tree}
    (isolates : (jobOf chunkwise .streaming { chunk? := failingAt 6 } (content width)
      none).chunkPlan.Isolates (chunksOf (source width)) (markedByChunks (source width))
      whole left) :
    whole.root.children.length = 2 ∧ left.root.children.length = 1 := by
  obtain ⟨_, label, fields, wholeRoot, _, besides, _, _⟩ := isolates
  constructor
  · rw [wholeRoot]
    change (Marked.plainAll (markedByChunks (source width))).length = 2
    unfold markedByChunks
    rw [Marked.plainAll_bySpan, Marked.plainAll_fromParts]
    change (Node.inSourceOrder ((chunksOf (source width)).flatMap _)).length = 2
    rw [declarations_eq fits, Node.inSourceOrder_eq, (bySpan_perm _ _).length_eq]
    rfl
  · rw [besides]
    change (Marked.plainAll (Marked.pruneAll _ (markedByChunks (source width)))).length = 1
    unfold markedByChunks
    rw [Marked.plainAll_pruned]
    change (Node.inSourceOrder (((chunksOf (source width)).filter _).flatMap _)).length = 1
    rw [chunksOf_eq fits, Node.inSourceOrder_eq, (bySpan_perm _ _).length_eq]
    change ([(0, 6)].flatMap (chunkDeclarations (source width))).length = 1
    rw [List.flatMap_cons, declarations_first fits]
    rfl

/-- A file with two declarations of which the classes fail, a file of two chunks with a declaration
in each of which the second fails, and a type of which the properties fail. -/
theorem parse_isolates_single_failures :
    let dart := "class A \x7b\x7d\nf() \x7b\x7d"
    let distant := Dart.DistantClass.content 102384
    let chunkwise := Dart.DistantClass.chunkwise
    let swift := "class A \x7b\nvar x = 1\n\x7d"
    (Dart.Admits {} dart .full ∧ (Dart.jobOf {} .full {} dart none).HasRoom .full ∧
      ∃ whole left, (Dart.parse {} {} dart "a.dart" none).value = .ok whole ∧
        (Dart.parse {} { step? := failingAt .classes } dart "a.dart" none).value = .ok left ∧
        (Dart.jobOf {} .full { step? := failingAt .classes } dart none).stepPlan.Isolates
          Dart.Step.all (Dart.markedBySteps (.ofContent dart)) whole.tree left.tree) ∧
    (Dart.Admits chunkwise distant .streaming ∧
      (Dart.jobOf chunkwise .streaming {} distant none).HasRoom .streaming ∧
      chunks (Source.ofContent distant).text Config.chunkSize = [(0, 6), (6, 102401)] ∧
      ∃ whole left, (Dart.parse chunkwise {} distant "a.dart" none).value = .ok whole ∧
        (Dart.parse chunkwise { chunk? := failingAt 6 } distant "a.dart" none).value = .ok left ∧
        (Dart.jobOf chunkwise .streaming { chunk? := failingAt 6 } distant none).chunkPlan.Isolates
          (chunks (Source.ofContent distant).text Config.chunkSize)
          (Dart.markedByChunks (.ofContent distant)) whole.tree left.tree ∧
        whole.tree.root.children.length = 2 ∧ left.tree.root.children.length = 1) ∧
    ((Swift.jobOf {} {} swift none).HasRoom ∧
      ∃ whole left, (Swift.parse {} {} swift "a.swift" none).value = .ok whole ∧
        (Swift.parse {} { step? := failingAt .properties } swift "a.swift" none).value = .ok left ∧
        (Swift.jobOf {} { step? := failingAt .properties } swift none).stepPlan.Isolates
          Swift.Step.all (Swift.markedBySteps (.ofContent swift)) whole.tree left.tree) := by
  intro dart distant chunkwise swift
  have full : Dart.Admits {} dart .full := ⟨by decide, by decide⟩
  have roomFull : (Dart.jobOf {} .full {} dart none).HasRoom .full := ⟨_, rfl, by decide +kernel⟩
  have fits : Dart.DistantClass.Fits 102384 := by
    unfold Dart.DistantClass.Fits
    decide
  have inChunks : Dart.Admits chunkwise distant .streaming := Dart.DistantClass.admits fits
  have roomInChunks : (Dart.jobOf chunkwise .streaming {} distant none).HasRoom .streaming :=
    Dart.DistantClass.hasRoom fits
  have cuts : chunks (Source.ofContent distant).text Config.chunkSize = [(0, 6), (6, 102401)] :=
    Dart.DistantClass.chunksOf_eq fits
  have roomSwift : (Swift.jobOf {} {} swift none).HasRoom := by
    unfold Swift.Job.HasRoom
    decide +kernel
  obtain ⟨whole, left, made, remade, isolates⟩ :=
    (parse_isolates_failures chunkwise distant "a.dart" none).2.1 inChunks roomInChunks
      (failingAt 6)
  exact ⟨⟨full, roomFull, (parse_isolates_failures {} dart "a.dart" none).1 full roomFull _⟩,
    ⟨inChunks, roomInChunks, cuts, whole, left, made, remade, isolates,
      Dart.DistantClass.length_children fits isolates⟩,
    ⟨roomSwift, (parse_isolates_failures {} swift "a.swift" none).2.2 roomSwift _ rfl⟩⟩

end SourceOutline
