import SourceOutline.Proofs.Dart.Members
import SourceOutline.Proofs.Extraction.Limit

set_option autoImplicit false

/-! How many symbols a Dart file has.

A class is counted with all its members, but only when it is taken.  So the limit holds for the
declarations at the top of a file, and for all symbols unless the members of a class go beyond it.
-/

namespace SourceOutline.Dart

/-- How many symbols a node declares, with what stands below it. -/
def symbolCount (path language : String) (node : Node) : Nat :=
  (Outline.preorderAll (Node.shape (reading.symbol? path language) node)).length

private theorem length_preorderAll_shapes (path language : String) (nodes : List Node) :
    (Outline.preorderAll (Node.shapes (reading.symbol? path language) nodes)).length =
      totalWeight (symbolCount path language) nodes := by
  induction nodes with
  | nil => rfl
  | cons node rest ih =>
      rw [Node.shapes, Node.preorderAll_append, List.length_append, totalWeight, ih]
      rfl

section

variable {source : Source} {withMembers : Bool} {step : Step} {node : Node}

private theorem Drawn.symbolCount_le_one (drawn : Drawn source withMembers step node)
    (single : withMembers = false ∨ step ≠ .classes) (path language : String) :
    symbolCount path language node ≤ 1 := by
  unfold symbolCount
  rcases drawn.shape_cases path language with
    ⟨declared, shape, _⟩ | ⟨classes, own, members, shape, _, _, bare⟩
  · rw [shape, Outline.preorderAll_leaves]
    cases declared with
    | none => exact Nat.zero_le _
    | some symbol => exact Nat.le_refl _
  · rw [shape, bare (single.resolve_right fun other => other classes)]
    exact Nat.le_refl _

private theorem Drawn.symbolCount_eq_weight (drawn : Drawn source withMembers step node)
    (first : step = .imports ∨ step = .classes) (path language : String) :
    symbolCount path language node = weight node := by
  unfold symbolCount weight
  rcases drawn.shape_cases path language with
    ⟨declared, shape, imported, other⟩ | ⟨_, own, members, shape, _, same, _⟩
  · obtain ⟨some, none⟩ := imported (first.resolve_right other)
    obtain ⟨symbol, rfl⟩ := Option.isSome_iff_exists.mp some
    rw [shape, none]
    rfl
  · rw [shape, ← same, Nat.add_comm]
    simp [Outline.preorderAll, Outline.preorder, Outline.preorderAll_leaves]

end

/-! ### Runs -/

private theorem one_le_weight (node : Node) : 1 ≤ weight node :=
  Nat.le_add_right 1 _

/-- However a file is gone through, no more declarations are collected than the limit allows. -/
theorem Job.items_length_le {job : Job} {strategy : Strategy} {extraction : Extraction Node}
    (ran : job.run strategy = .ok extraction) : extraction.items.length ≤ job.limit := by
  have kept : job.Keeps (job.passes strategy) fun extraction =>
      extraction.items.length ≤ extraction.count ∧ extraction.items.length ≤ job.limit := by
    refine ⟨fun extraction held each _ => ?_, fun extraction held _ _ => held⟩
    have taken := takeWithin_length one_le_weight (each.1.declarations job.source each.2)
      held.1 held.2
    unfold Extraction.take
    dsimp only
    rw [List.length_append]
    exact taken
  exact (kept.run ⟨Nat.le_refl _, Nat.zero_le _⟩ ran).2

/-- The number of symbols of a tree is the sum over what was collected. -/
theorem length_symbols (config : Config) (job : Job) (strategy : Strategy) (path : String)
    (extraction : Extraction Node) :
    (Outline.preorderAll
        (reading.shapes (assemble config job strategy path extraction).value.tree)).length =
      totalWeight (symbolCount path "dart") extraction.items := by
  rw [← totalWeight_perm _ (bySpan_perm Node.span extraction.items)]
  exact length_preorderAll_shapes path "dart" _

/-- Without members there are no more symbols than declarations. -/
theorem length_symbols_le {job : Job} {strategy : Strategy} (partly : strategy ≠ .full)
    {extraction : Extraction Node} (ran : job.run strategy = .ok extraction) (config : Config)
    (path : String) :
    (Outline.preorderAll
        (reading.shapes (assemble config job strategy path extraction).value.tree)).length ≤
      job.limit := by
  rw [length_symbols]
  refine Nat.le_trans (totalWeight_le_length fun node member => ?_) (Job.items_length_le ran)
  have listed : node ∈ Node.inSourceOrder extraction.items := by
    rw [Node.inSourceOrder_eq, (bySpan_perm _ _).mem_iff]
    exact member
  obtain ⟨step, withMembers, bare, drawn⟩ := Job.exists_drawn ran node listed
  exact drawn.symbolCount_le_one (.inl (bare partly)) path "dart"

/-! ### Files that are taken apart in full -/

private theorem Job.runFull_items (job : Job) :
    job.runFull.items =
      (takeWithin job.limit weight 0
        ((job.stepPlan.given .imports ++ job.stepPlan.given .classes) ++
          (Step.all.drop 2).flatMap job.stepPlan.given)).1 := by
  rw [List.append_assoc]
  exact (job.stepPlan.run_taken Step.all {}).1

theorem Job.given_drawn {job : Job} {step : Step} {node : Node}
    (member : node ∈ job.stepPlan.given step) : Drawn job.source true step node :=
  @Step.declarations_drawn job.source (.whole job.source) (Nat.le_refl _) step node
    ((job.stepPlan.given_sublist step).mem member)

private theorem Job.symbolCount_first {job : Job} (path language : String) :
    ∀ node ∈ job.stepPlan.given .imports ++ job.stepPlan.given .classes,
      symbolCount path language node = weight node := by
  intro node member
  rcases List.mem_append.mp member with imported | declared
  · exact (given_drawn imported).symbolCount_eq_weight (.inl rfl) path language
  · exact (given_drawn declared).symbolCount_eq_weight (.inr rfl) path language

private theorem Job.symbolCount_rest {job : Job} (path language : String) :
    ∀ node ∈ (Step.all.drop 2).flatMap job.stepPlan.given, symbolCount path language node ≤ 1 := by
  intro node member
  obtain ⟨step, listed, given⟩ := List.mem_flatMap.mp member
  refine (given_drawn given).symbolCount_le_one (.inr ?_) path language
  rintro rfl
  exact absurd listed (by decide)

private theorem Job.weight_first_le {job : Job} {most : Nat}
    (bounded : ∀ node ∈ job.stepPlan.given .classes, node.children.length ≤ most) :
    ∀ node ∈ job.stepPlan.given .imports ++ job.stepPlan.given .classes,
      weight node ≤ 1 + most := by
  intro node member
  apply Nat.add_le_add_left
  rcases List.mem_append.mp member with imported | declared
  · have drawn := given_drawn imported
    cases drawn
    exact Nat.zero_le _
  · exact bounded node declared

/-- In a file that is taken apart in full the limit holds for the declarations at the top.  There
are more symbols than it allows exactly if a class that is reached before the limit goes beyond it
with its members; and there are never more besides than a class has members. -/
theorem parse_exceeds_limit_iff {config : Config} {content : String}
    (admits : Admits config content .full) (faults : Faults) (path : String)
    (context : Option Context) :
    let limit := config.performance.maxSymbols
    let given := (jobOf config .full faults content context).stepPlan.given
    ∃ parsed found, (parse config faults content path context).value = .ok parsed ∧
      symbols parsed.tree = .ok found ∧
      parsed.tree.root.children.length ≤ limit ∧
      (limit < found.length ↔
        ∃ earlier last later, given .imports ++ given .classes = earlier ++ last :: later ∧
          totalWeight weight earlier < limit ∧
          limit < totalWeight weight earlier + weight last) ∧
      ∀ most, (∀ node ∈ given .classes, node.children.length ≤ most) →
        found.length ≤ limit + most := by
  intro limit given
  let job := jobOf config .full faults content context
  have ran := job.run_full_eq
  refine ⟨_, _, admits.parse_full faults path context,
    symbols_assemble_eq config job .full path ran, ?_, ?_, ?_⟩
  · change (Node.inSourceOrder job.runFull.items).length ≤ job.limit
    rw [Node.inSourceOrder_eq, (bySpan_perm _ _).length_eq]
    exact Job.items_length_le ran
  · rw [length_symbols, job.runFull_items]
    exact lt_size_iff one_le_weight (Job.symbolCount_first path "dart")
      (Job.symbolCount_rest path "dart")
  · intro most bounded
    rw [length_symbols, job.runFull_items]
    exact size_le _ one_le_weight (Job.symbolCount_first path "dart")
      (Job.symbolCount_rest path "dart") (Job.weight_first_le bounded)

/-- A class with a variable where one symbol is allowed. -/
theorem class_exceeds_limit :
    let config : Config := { performance := { maxSymbols := 1 } }
    let content := "class A \x7b\n  int x;\n\x7d"
    Admits config content .full ∧
      ∃ parsed found, (parse config {} content "a.dart" none).value = .ok parsed ∧
        symbols parsed.tree = .ok found ∧ parsed.tree.root.children.length ≤ 1 ∧
        1 < found.length ∧ found.length ≤ 1 + 1 := by
  intro config content
  have admits : Admits config content .full := ⟨by decide +kernel, by decide +kernel⟩
  obtain ⟨parsed, found, made, read, top, beyond, bounded⟩ :=
    parse_exceeds_limit_iff admits {} "a.dart" none
  let given := (jobOf config .full {} content none).stepPlan.given
  have weights : (given .imports ++ given .classes).map weight = [2] ∧
      (given .classes).map (fun node => node.children.length) = [1] := by decide +kernel
  obtain ⟨only, all, two⟩ := List.map_eq_singleton_iff.mp weights.1
  refine ⟨admits, parsed, found, made, read, top, beyond.mpr ⟨[], only, [], all, ?_, ?_⟩, ?_⟩
  · decide
  · rw [two]
    decide
  · apply bounded
    intro node member
    have listed := List.mem_map_of_mem (f := fun node : Node => node.children.length) member
    rw [weights.2] at listed
    exact Nat.le_of_eq (List.mem_singleton.mp listed)

/-- The limit does not hold for all symbols of a file. -/
theorem members_escape_limit :
    ¬ ∀ (config : Config) (content path : String) (parsed : Parsed) (found : List Symbol),
      Admits config content .full → (parse config {} content path none).value = .ok parsed →
      symbols parsed.tree = .ok found → found.length ≤ config.performance.maxSymbols := by
  intro holds
  let config : Config := { performance := { maxSymbols := 1 } }
  let content := "class A \x7b\n  int x;\n\x7d"
  have admits : Admits config content .full := ⟨by decide +kernel, by decide +kernel⟩
  have made := admits.parse {} "a.dart" none
  have read := symbols_assemble_eq config (jobOf config .full {} content none) .full "a.dart" rfl
  have limited := holds config content "a.dart" _ _ admits made read
  rw [length_symbols] at limited
  exact absurd limited (by decide +kernel)

end SourceOutline.Dart
