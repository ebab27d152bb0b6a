import SourceOutline.Proofs.Dart.Limited

set_option autoImplicit false

/-! How deep in blocks the declarations at the top of a Dart tree stand.

Functions and variables are taken only where no brace is open.  All other declarations are taken
wherever their headers stand, so a tree has just as many of them in blocks as there are headers in
blocks. -/

namespace SourceOutline

namespace Source

def startDepth (source : Source) (node : Node) : Int :=
  source.depthAt (node.span.startIn source.content)

variable {source : Source}

private theorem shift_of_ne {c : Char} (unopened : c ≠ '{') (unclosed : c ≠ '}') :
    braceShift c = 0 := by
  unfold braceShift
  rw [if_neg (by rwa [beq_iff_eq]), if_neg (by rwa [beq_iff_eq])]

/-- Text without braces does not change the depth. -/
theorem depthAt_of_takes {accepts : Char → Bool} (unopened : accepts '{' = false)
    (unclosed : accepts '}' = false) {start stop : Nat}
    (taken : Pattern.Takes source.text accepts start stop) :
    source.depthAt stop = source.depthAt start := by
  obtain ⟨forward, accepted⟩ := taken
  obtain ⟨length, rfl⟩ := Nat.exists_eq_add_of_le forward
  clear forward
  induction length with
  | zero => rfl
  | succ length ih =>
      obtain ⟨c, read, held⟩ :=
        Pattern.acceptedAt_iff.mp (accepted (start + length) (by omega) (by omega))
      have level : braceShift c = 0 := by
        apply shift_of_ne
        · rintro rfl
          cases held.symm.trans unopened
        · rintro rfl
          cases held.symm.trans unclosed
      rw [← Nat.add_assoc, depthAt_succ read, level, Int.add_zero]
      exact ih fun place behind before => accepted place behind (by omega)

private theorem depthAt_skipBlanks (start stop : Nat) :
    source.depthAt (source.skipBlanks start stop) = source.depthAt start :=
  depthAt_of_takes rfl rfl (Pattern.takes_spanEnd Text.isBlank (stop - start) start)

end Source

namespace Dart

section

variable {source : Source} {start stop : Nat}

/-- Leading blanks left out, a declaration is as deep as its header. -/
theorem startDepth_declaration {found : Match}
    (leads : Pattern.Leads source.text found.start found.stop) {last : Nat}
    (within : found.stop ≤ last) (inside : last ≤ source.size) (tag : String) (metadata : Fields)
    (children : List Node) :
    source.startDepth (source.declaration tag found.start last metadata children) =
      source.depthAt found.start := by
  unfold Source.startDepth
  rw [(declaration_covers_of_leads leads within inside tag metadata children).startIn,
    Source.depthAt_skipBlanks]

private def Reaches (source : Source) (found : Match) (node : Node) : Prop :=
  ∃ tag last metadata children,
    node = source.declaration tag found.start last metadata children ∧
      (last = found.stop ∨ last = ownBlock source found ∨ last = openBlock source found)

private theorem Reaches.startDepth {pattern : Pattern} (leading : pattern.leads = true)
    (inside : stop ≤ source.size) {found : Match}
    (member : found ∈ pattern.findAllBetween source.text start stop) {node : Node}
    (reaches : Reaches source found node) :
    source.startDepth node = source.depthAt found.start := by
  obtain ⟨_, within, leads⟩ := Pattern.mem_findAllBetween_leads leading inside member
  have bounded := Nat.le_trans within inside
  obtain ⟨tag, last, metadata, children, rfl, ends⟩ := reaches
  rcases ends with rfl | rfl | rfl
  · exact startDepth_declaration leads (Nat.le_refl _) bounded _ _ _
  · obtain ⟨behind, limited⟩ := stop_le_blockStop leads.lt (Nat.le_refl _) bounded
    exact startDepth_declaration leads behind limited _ _ _
  · obtain ⟨behind, limited⟩ := stop_le_blockStop leads.lt bounded (Nat.le_refl source.size)
    exact startDepth_declaration leads behind limited _ _ _

private theorem map_startDepth {pattern : Pattern} (leading : pattern.leads = true) {pass : Pass}
    (inside : pass.stop ≤ source.size) {node : Match → Node}
    (made : ∀ found, Reaches source found (node found)) {headers : List Match}
    (listed : ∀ found ∈ headers, found ∈ pass.found source pattern) :
    (headers.map node).map source.startDepth =
      headers.map fun found => source.depthAt found.start := by
  rw [List.map_map]
  exact List.map_congr_left fun found member =>
    (made found).startDepth leading inside (listed found member)

private theorem map_takeCap {α β : Type} (make : α → β) (cap : Option Nat) (items : List α) :
    (takeCap cap items).map make = takeCap cap (items.map make) := by
  cases cap with
  | none => rfl
  | some most => exact List.map_take

/-- Between the start of a match and the name in it there is no brace. -/
theorem depthAt_name {pattern lead tail : Pattern}
    (split : Pattern.Footing.pieces ⟨none, some .name⟩ pattern = some (lead, tail))
    (unopened : lead.mayTake '{' = false) (unclosed : lead.mayTake '}' = false)
    (opening : tail.opens = true) (inside : stop ≤ source.size) {found : Match}
    (member : found ∈ pattern.findAllBetween source.text start stop) :
    source.depthAt (found.partStart .name) = source.depthAt found.start := by
  obtain ⟨_, order, before, within, _⟩ :=
    Pattern.Footing.mem_findAllBetween split opening inside member
  obtain ⟨_, early, _⟩ := Pattern.Footing.pieces_end split (Pattern.mem_findAllFrom member).2
  refine Source.depthAt_of_takes unopened unclosed ⟨order, fun place behind ahead => ?_⟩
  have cut : place < stop := Nat.lt_of_lt_of_le (Nat.lt_trans ahead before) within
  rw [← Pattern.acceptedAt_extract inside cut]
  exact early.takes.2 place behind ahead

end

/-! ### Steps -/

/-- The steps that look at how deep a declaration stands. -/
def placedSteps : List Step := [.functions, .topVariables]

def placedTags : List String :=
  ["async_generator", "async_function", "closure_factory", "higher_order_function",
    "function_declaration", "variable_declaration"]

namespace Step

/-- The headers that a step takes wherever they stand. -/
def openHeaders (source : Source) (pass : Pass) : Step → List Match
  | imports => takeCap pass.cap (pass.found source importPattern)
  | classes => takeCap pass.cap (pass.found source classPattern)
  | mixins => takeCap pass.cap (pass.found source mixinPattern)
  | extensions => takeCap pass.cap (pass.found source extensionPattern)
  | enums => takeCap pass.cap (pass.found source enumPattern)
  | typedefs =>
      takeCap pass.cap
        (pass.found source typedefPattern ++ pass.found source functionTypedefPattern)
  | functions | topVariables => []
  | parts => pass.found source partPattern ++ pass.found source partOfPattern

variable {source : Source} {pass : Pass} {step : Step}

/-- What is taken wherever it stands is as deep as the headers it is made of. -/
theorem startDepth_declarations (inside : pass.stop ≤ source.size) (free : step ∉ placedSteps) :
    (step.declarations source pass).map source.startDepth =
      (step.openHeaders source pass).map fun found => source.depthAt found.start := by
  cases step with
  | functions | topVariables => exact absurd (by decide) free
  | imports =>
      exact map_startDepth (by decide +kernel) inside (fun _ => ⟨_, _, _, _, rfl, .inl rfl⟩)
        fun _ => mem_of_mem_takeCap
  | classes =>
      exact map_startDepth (by decide +kernel) inside
        (fun _ => ⟨_, _, _, _, rfl, .inr (.inr rfl)⟩) fun _ => mem_of_mem_takeCap
  | mixins =>
      exact map_startDepth (by decide +kernel) inside
        (fun _ => ⟨_, _, _, _, rfl, .inr (.inl rfl)⟩) fun _ => mem_of_mem_takeCap
  | extensions =>
      exact map_startDepth (by decide +kernel) inside
        (fun _ => ⟨_, _, _, _, rfl, .inr (.inl rfl)⟩) fun _ => mem_of_mem_takeCap
  | enums =>
      exact map_startDepth (by decide +kernel) inside
        (fun _ => ⟨_, _, _, _, rfl, .inr (.inr rfl)⟩) fun _ => mem_of_mem_takeCap
  | typedefs =>
      rw [declarations, openHeaders, map_takeCap, map_takeCap, List.map_append, List.map_append]
      refine congrArg (takeCap pass.cap) (congrArg₂ _ ?_ ?_)
      · exact map_startDepth (by decide +kernel) inside (fun _ => ⟨_, _, _, _, rfl, .inl rfl⟩)
          fun _ => id
      · exact map_startDepth (by decide +kernel) inside (fun _ => ⟨_, _, _, _, rfl, .inl rfl⟩)
          fun _ => id
  | parts =>
      rw [declarations, openHeaders, List.map_append, List.map_append]
      refine congrArg₂ _ ?_ ?_
      · exact map_startDepth (by decide +kernel) inside (fun _ => ⟨_, _, _, _, rfl, .inl rfl⟩)
          fun _ => id
      · exact map_startDepth (by decide +kernel) inside (fun _ => ⟨_, _, _, _, rfl, .inl rfl⟩)
          fun _ => id

/-- Functions and variables are taken only where no brace is open. -/
theorem startDepth_eq_zero (inside : pass.stop ≤ source.size) (placed : step ∈ placedSteps) :
    ∀ node ∈ step.declarations source pass, source.startDepth node = 0 := by
  intro node member
  cases step with
  | imports | classes | mixins | extensions | enums | typedefs | parts =>
      exact absurd placed (by decide)
  | functions =>
      obtain ⟨found, listed, function, rfl⟩ := mem_functionNodes member
      unfold isFunction at function
      simp only [Bool.and_eq_true] at function
      have top : source.depthAt (found.partStart .name) = 0 := beq_iff_eq.mp function.1.2
      have reaches : Reaches source found (functionNode source found) :=
        ⟨_, _, _, _, rfl, .inr (.inl rfl)⟩
      have known := @Step.headers_known .functions _ (List.mem_singleton.mpr rfl)
      rw [reaches.startDepth known.leading inside listed,
        ← depthAt_name rfl (by decide +kernel) (by decide +kernel)
          (Pattern.opens_seq Pattern.word_opens _) inside listed, top]
  | topVariables =>
      obtain ⟨found, kept, made⟩ := List.mem_filterMap.mp member
      obtain ⟨listed, stands⟩ := List.mem_filter.mp kept
      have top : source.depthAt (found.partStart .name) = 0 := beq_iff_eq.mp stands
      have reaches : Reaches source found node := by
        unfold variableNode? at made
        dsimp only at made
        split at made
        · cases made
        · split at made
          · cases made
          · cases made
            exact ⟨_, _, _, _, rfl, .inl rfl⟩
      rw [reaches.startDepth variablePattern_leads inside listed,
        ← depthAt_name rfl (by decide +kernel) (by decide +kernel)
          (Pattern.opens_seq Pattern.word_opens _) inside listed, top]

private theorem declarations_at_top_iff (inside : pass.stop ≤ source.size) :
    (∀ node ∈ step.declarations source pass, source.startDepth node = 0) ↔
      ∀ found ∈ step.openHeaders source pass, source.depthAt found.start = 0 := by
  by_cases placed : step ∈ placedSteps
  · refine iff_of_true (startDepth_eq_zero inside placed) fun found member => ?_
    rcases List.mem_cons.mp placed with rfl | other
    · cases member
    · cases List.mem_singleton.mp other
      cases member
  · have same := startDepth_declarations inside placed
    rw [← List.forall_mem_map (P := (· = 0)), same, List.forall_mem_map]

/-- The other steps make nodes of other types. -/
theorem tag_notMem_placedTags (free : step ∉ placedSteps) :
    ∀ node ∈ step.declarations source pass, node.tag ∉ placedTags := by
  intro node member
  cases step with
  | functions | topVariables => exact absurd (by decide) free
  | imports | mixins | extensions | enums =>
      obtain ⟨found, _, rfl⟩ := List.mem_map.mp member
      exact of_decide_eq_true rfl
  | classes =>
      obtain ⟨found, _, rfl⟩ := List.mem_map.mp member
      have tags : ∀ tag ∈ classTags, tag ∉ placedTags := by decide
      obtain ⟨_, members, _, _, _, same⟩ := classNode_eq source pass.withMembers found
      rw [same]
      exact tags _ (classSort_mem _ members)
  | typedefs =>
      rcases List.mem_append.mp (mem_of_mem_takeCap member) with named | function
      · obtain ⟨found, _, rfl⟩ := List.mem_map.mp named
        change (if _ then _ else _) ∉ placedTags
        split <;> decide
      · obtain ⟨found, _, rfl⟩ := List.mem_map.mp function
        exact of_decide_eq_true rfl
  | parts =>
      rcases List.mem_append.mp member with part | partOf
      · obtain ⟨found, _, rfl⟩ := List.mem_map.mp part
        exact of_decide_eq_true rfl
      · obtain ⟨found, _, rfl⟩ := List.mem_map.mp partOf
        exact of_decide_eq_true rfl

end Step

/-! ### Runs -/

namespace Job

variable {job : Job} {strategy : Strategy} {extraction : Extraction Node}

/-- A run without faults that reaches no limit takes all that its passes give. -/
theorem items_of_room (unharmed : job.faults = {}) (ran : job.run strategy = .ok extraction)
    (room : extraction.isFull job.limit = false) :
    extraction.items =
      (job.passes strategy).flatMap fun each => each.1.declarations job.source each.2 := by
  have sound : job.faults.SparesSteps := by
    rw [unharmed]
    exact fun _ => rfl
  cases strategy with
  | full =>
      cases job.run_full_eq.symm.trans ran
      rw [passes, List.flatMap_map]
      exact runFull_items_of_room sound ⟨_, job.run_full_eq, room⟩
  | limited =>
      cases (run_limited sound).symm.trans ran
      rw [Extraction.take_items room, passes, limitedPasses, List.flatMap_map]
      rfl
  | streaming =>
      cases (run_streaming sound).symm.trans ran
      have same : job.chunkPlan = job.chunkPlan.faultless := by
        unfold chunkPlan Plan.faultless
        rw [unharmed]
      rw [same] at room ⊢
      rw [(Plan.run_faultless room).1, passes, List.flatMap_assoc]
      refine congrArg (List.flatMap · _) (funext fun chunk => ?_)
      exact (List.flatMap_map _ _ _).symm

/-- All headers that are taken wherever they stand do stand at the top. -/
def HeadersAtTop (job : Job) (strategy : Strategy) : Prop :=
  ∀ each ∈ job.passes strategy, ∀ found ∈ each.1.openHeaders job.source each.2,
    job.source.depthAt found.start = 0

instance (job : Job) (strategy : Strategy) : Decidable (job.HeadersAtTop strategy) :=
  inferInstanceAs (Decidable (∀ each ∈ job.passes strategy,
    ∀ found ∈ each.1.openHeaders job.source each.2, job.source.depthAt found.start = 0))

private theorem startDepth_of_placedTag (ran : job.run strategy = .ok extraction) :
    ∀ node ∈ extraction.items, node.tag ∈ placedTags → job.source.startDepth node = 0 := by
  intro node member tag
  obtain ⟨each, pass, given⟩ := exists_pass_of_mem ran node member
  by_cases placed : each.1 ∈ placedSteps
  · exact Step.startDepth_eq_zero (stop_le_of_mem_passes pass) placed node given
  · exact absurd tag (Step.tag_notMem_placedTags placed node given)

private theorem HeadersAtTop.startDepth (top : job.HeadersAtTop strategy)
    (ran : job.run strategy = .ok extraction) :
    ∀ node ∈ extraction.items, job.source.startDepth node = 0 := by
  intro node member
  obtain ⟨each, pass, given⟩ := exists_pass_of_mem ran node member
  exact (Step.declarations_at_top_iff (stop_le_of_mem_passes pass)).mpr (top each pass) node given

end Job

/-! ### Trees -/

theorem mem_children_assemble {config : Config} {job : Job} {strategy : Strategy} {path : String}
    {extraction : Extraction Node} {node : Node} :
    node ∈ (assemble config job strategy path extraction).value.tree.root.children ↔
      node ∈ extraction.items := by
  rw [assemble_root]
  exact (bySpan_perm Node.span extraction.items).mem_iff

/-- Without faults and limits, the tree has what the passes of its strategy give. -/
theorem exists_parsed_children {config : Config} {content : String} {strategy : Strategy}
    (admits : Admits config content strategy) {context : Option Context}
    (room : (jobOf config strategy {} content context).HasRoom strategy) (path : String) :
    ∃ parsed, (parse config {} content path context).value = .ok parsed ∧
      ∀ node, node ∈ parsed.tree.root.children ↔
        ∃ each ∈ (jobOf config strategy {} content context).passes strategy,
          node ∈ each.1.declarations (.ofContent content) each.2 := by
  obtain ⟨extraction, ran, free⟩ := room
  have made := admits.parse {} path context
  rw [ran] at made
  refine ⟨_, made, fun node => ?_⟩
  rw [mem_children_assemble, Job.items_of_room rfl ran free]
  exact List.mem_flatMap

/-- Without faults and limits, the tree has all its declarations at the top just if all headers
stand there that are taken wherever they stand. -/
theorem exists_parsed_at_top_iff {config : Config} {content : String} {strategy : Strategy}
    (admits : Admits config content strategy) {context : Option Context}
    (room : (jobOf config strategy {} content context).HasRoom strategy) (path : String) :
    ∃ parsed, (parse config {} content path context).value = .ok parsed ∧
      ((∀ child ∈ parsed.tree.root.children, (Source.ofContent content).startDepth child = 0) ↔
        (jobOf config strategy {} content context).HeadersAtTop strategy) := by
  obtain ⟨parsed, made, children⟩ := exists_parsed_children admits room path
  refine ⟨parsed, made, fun held each pass => ?_, fun top child member => ?_⟩
  · apply (Step.declarations_at_top_iff (Job.stop_le_of_mem_passes pass)).mp
    exact fun node given => held node ((children node).mpr ⟨each, pass, given⟩)
  · obtain ⟨each, pass, given⟩ := (children child).mp member
    exact (Step.declarations_at_top_iff (Job.stop_le_of_mem_passes pass)).mpr (top each pass) child
      given

/-- Of whatever tree a file gives, functions and variables start where no brace is open, and all
declarations do if the headers of the others stand there.  Without faults and limits the tree has
something in a block as soon as one of these headers stands in a block. -/
theorem parse_at_top_iff {config : Config} {content : String} {strategy : Strategy}
    (admits : Admits config content strategy) (faults : Faults) (path : String)
    (context : Option Context) :
    (∀ parsed, (parse config faults content path context).value = .ok parsed →
      (∀ child ∈ parsed.tree.root.children, child.tag ∈ placedTags →
        (Source.ofContent content).startDepth child = 0) ∧
      ((jobOf config strategy faults content context).HeadersAtTop strategy →
        ∀ child ∈ parsed.tree.root.children,
          (Source.ofContent content).startDepth child = 0)) ∧
    ((jobOf config strategy {} content context).HasRoom strategy →
      ∃ parsed, (parse config {} content path context).value = .ok parsed ∧
        ((∀ child ∈ parsed.tree.root.children,
            (Source.ofContent content).startDepth child = 0) ↔
          (jobOf config strategy {} content context).HeadersAtTop strategy)) := by
  refine ⟨fun parsed made => ?_, fun room => exists_parsed_at_top_iff admits room path⟩
  obtain ⟨other, extraction, chosen, ran, rfl⟩ := run_of_parsed made
  cases chosen.chosen.symm.trans admits.chosen
  refine ⟨fun child member => ?_, fun top child member => ?_⟩
  · exact Job.startDepth_of_placedTag ran child (mem_children_assemble.mp member)
  · exact top.startDepth ran child (mem_children_assemble.mp member)

/-- The member of a class stands in its block and below its node, the rest of the file at the
top. -/
theorem parse_at_top_of_class :
    let content := "class A \x7b\n  int x;\n\x7d\nint y;\nf() \x7b\x7d"
    Admits {} content .full ∧ (jobOf {} .full {} content none).HasRoom .full ∧
      (jobOf {} .full {} content none).HeadersAtTop .full ∧
      ∃ parsed, (parse {} {} content "a.dart" none).value = .ok parsed ∧
        ∀ child ∈ parsed.tree.root.children, (Source.ofContent content).startDepth child = 0 := by
  intro content
  have admits : Admits {} content .full := ⟨by decide +kernel, by decide +kernel⟩
  have room : (jobOf {} .full {} content none).HasRoom .full := ⟨_, rfl, by decide +kernel⟩
  have top : (jobOf {} .full {} content none).HeadersAtTop .full := by decide +kernel
  obtain ⟨parsed, made, same⟩ := (parse_at_top_iff admits {} "a.dart" none).2 room
  exact ⟨admits, room, top, parsed, made, same.mpr top⟩

/-- A class in a text in the body of a function is at the top of the tree. -/
theorem quoted_class_at_top :
    ¬ ∀ (config : Config) (content path : String) (parsed : Parsed),
      (parse config {} content path none).value = .ok parsed →
        ∀ child ∈ parsed.tree.root.children, (Source.ofContent content).startDepth child = 0 := by
  intro holds
  let content := "f() \x7b\n\'\'\'\nclass A \x7b\x7d\'\'\';\n\x7d"
  have admits : Admits {} content .full := ⟨by decide +kernel, by decide +kernel⟩
  have room : (jobOf {} .full {} content none).HasRoom .full := ⟨_, rfl, by decide +kernel⟩
  have deep : ¬ (jobOf {} .full {} content none).HeadersAtTop .full := by decide +kernel
  obtain ⟨parsed, made, same⟩ := exists_parsed_at_top_iff admits room "a.dart"
  exact deep (same.mp (holds {} content "a.dart" parsed made))

end Dart

end SourceOutline
