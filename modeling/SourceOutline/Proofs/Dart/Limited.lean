import Mathlib.Data.List.Perm.Subperm
import SourceOutline.Proofs.Dart.Chunkwise
import SourceOutline.Proofs.Extraction.Limit

set_option autoImplicit false

/-! What the limited strategy gives, against what a file gives that is taken apart in full.

Both look for the same headers.  The limited strategy leaves out members, variables and parts, takes
the steps in another order and has a cap for each of them.  So its declarations are among those of
the whole file, and they are all of their types if no cap is exceeded. -/

namespace SourceOutline

/-- If the limit is not reached by what is taken, then everything is taken. -/
theorem Extraction.take_items {α : Type} {limit : Nat} {weight : α → Nat} {items : List α}
    {extraction : Extraction α}
    (room : (extraction.take limit weight items).isFull limit = false) :
    (extraction.take limit weight items).items = extraction.items ++ items := by
  have below := (isFull_eq_false_iff _ _).mp room
  rcases takeWithin_count limit weight items extraction.count with reached | all
  · exact absurd below (Nat.not_lt.mpr reached)
  · rw [take_all items extraction (all ▸ below)]

private theorem Extraction.take_sublist {α : Type} (limit : Nat) (weight : α → Nat) (items : List α)
    (extraction : Extraction α) :
    (extraction.take limit weight items).items.Sublist (extraction.items ++ items) :=
  (takeWithin_sublist limit weight items extraction.count).append_left extraction.items

namespace Dart

/-! ### Rows -/

/-- What is compared of a declaration: its type, name and signature, where it stands, and its
text. -/
structure Row where
  tag : String
  name? : Option Value
  signature? : Option Value
  span : Span
  value : String

namespace Row

def ofNode (node : Node) : Row where
  tag := node.tag
  name? := node.metadata.get? "name"
  signature? := node.metadata.get? "signature"
  span := node.span
  value := node.value

def isTop (row : Row) : Bool :=
  (stepOfTag? row.tag).isSome

end Row

/-- The members of a class change nothing in its row. -/
theorem row_classNode (source : Source) (found : Match) :
    Row.ofNode (classNode source true found) = Row.ofNode (classNode source false found) := by
  have row : ∀ withMembers, Row.ofNode (classNode source withMembers found) =
      { Row.ofNode (source.declaration (classTag (Text.trim (source.part found .superclass)))
          found.start (openBlock source found) [] []) with
        name? := some (.ofChars (source.part found .name))
        signature? := some (.ofChars (headerText source found)) } := by
    intro withMembers
    obtain ⟨front, members, _, name, signature, made⟩ := classNode_eq source withMembers found
    rw [made, classSort_fst, Row.mk.injEq]
    exact ⟨rfl, Fields.get?_append_left name _, Fields.get?_append_left signature _, rfl, rfl⟩
  rw [row, row]

/-! ### Steps -/

def Pass.bare (source : Source) : Pass :=
  { start := 0, stop := source.size, capsAsync := false }

def Pass.capped (source : Source) (cap : Nat) : Pass :=
  { start := 0, stop := source.size, cap := some cap }

def Step.rows (source : Source) (step : Step) : List Row :=
  (step.declarations source (.whole source)).map Row.ofNode

private theorem Step.rows_bare (source : Source) (step : Step) :
    step.rows source = (step.declarations source (.bare source)).map Row.ofNode := by
  cases step with
  | classes =>
      change (List.map _ _).map _ = (List.map _ _).map _
      rw [List.map_map, List.map_map]
      exact List.map_congr_left fun found _ => row_classNode source found
  | imports | mixins | extensions | enums | typedefs | functions | topVariables | parts => rfl

/-- All steps but that for functions take the first of what there is. -/
theorem Step.capped_eq_take {step : Step} (lists : step ≠ .functions)
    (streamed : step ∈ streamingSteps) (source : Source) (cap : Nat) :
    step.declarations source (.capped source cap) =
      (step.declarations source (.bare source)).take cap := by
  cases step with
  | imports | classes | mixins | extensions | enums => exact List.map_take
  | typedefs => rfl
  | functions => exact absurd rfl lists
  | topVariables | parts => exact absurd streamed (by decide)

private theorem limitedCaps_streamed {each : Step × Nat} (member : each ∈ limitedCaps) :
    each.1 ∈ streamingSteps := by
  revert each
  decide

private theorem capped_sublist {each : Step × Nat} (member : each ∈ limitedCaps) (source : Source) :
    (each.1.declarations source (.capped source each.2)).Sublist
      (each.1.declarations source (.bare source)) := by
  by_cases functions : each.1 = .functions
  · rw [functions]
    exact functionNodes_sublist _ _
  · rw [Step.capped_eq_take functions (limitedCaps_streamed member)]
    exact List.take_sublist _ _

/-- No step of the limited strategy finds more than its cap allows, and no more functions of any
sort are found than are taken of it. -/
structure WithinLimitedCaps (source : Source) : Prop where
  lists : ∀ each ∈ limitedCaps, each.1 ≠ .functions → (each.1.rows source).length ≤ each.2
  functions : ∀ each ∈ limitedCaps, each.1 = .functions → ∀ sort most,
    FunctionSort.cap? (.capped source each.2) sort = some most →
      (functionNodes source (.whole source)).countP (FunctionSort.ofNode · == sort) ≤ most

private theorem WithinLimitedCaps.capped_eq {source : Source} (within : WithinLimitedCaps source)
    {each : Step × Nat} (member : each ∈ limitedCaps) :
    each.1.declarations source (.capped source each.2) =
      each.1.declarations source (.bare source) := by
  by_cases functions : each.1 = .functions
  · rw [functions]
    apply functionNodes_uncapped
    intro sort most capped
    exact within.functions each member functions sort most capped
  · have short := within.lists each member functions
    rw [Step.rows_bare, List.length_map] at short
    rw [Step.capped_eq_take functions (limitedCaps_streamed member), List.take_of_length_le short]

/-! ### Types of declarations -/

private theorem Step.isTop_of_streamed {source : Source} {step : Step}
    (streamed : step ∈ streamingSteps) :
    ∀ row ∈ step.rows source, row.isTop = true := by
  intro row member
  rw [Step.rows_bare] at member
  obtain ⟨node, declared, rfl⟩ := List.mem_map.mp member
  unfold Pass.bare at declared
  rw [Step.declarations_eq streamed] at declared
  obtain ⟨header, listed, made⟩ := List.mem_flatMap.mp declared
  obtain ⟨found, _, rfl⟩ := List.mem_map.mp made
  unfold Row.isTop
  rw [show (Row.ofNode (header.node source found)).tag = (header.node source found).tag from rfl,
    (Step.headers_known listed).tag_step]
  rfl

private theorem variableNode?_tag {source : Source} {found : Match} {node : Node}
    (made : variableNode? source found = some node) : node.tag = "variable_declaration" := by
  unfold variableNode? at made
  dsimp only at made
  split at made
  · cases made
  · split at made
    · cases made
    · cases made
      rfl

private theorem Step.isTop_of_not_streamed {source : Source} {step : Step}
    (other : step ∉ streamingSteps) : ∀ row ∈ step.rows source, row.isTop = false := by
  intro row member
  obtain ⟨node, declared, rfl⟩ := List.mem_map.mp member
  cases step with
  | imports | classes | mixins | extensions | enums | typedefs | functions =>
      exact absurd (by decide) other
  | topVariables =>
      obtain ⟨found, _, made⟩ := List.mem_filterMap.mp declared
      unfold Row.isTop Row.ofNode
      dsimp only
      rw [variableNode?_tag made]
      rfl
  | parts =>
      rcases List.mem_append.mp declared with part | partOf
      · obtain ⟨found, _, rfl⟩ := List.mem_map.mp part
        rfl
      · obtain ⟨found, _, rfl⟩ := List.mem_map.mp partOf
        rfl

/-- Of all that a file declares, the limited strategy looks for what its own steps find. -/
theorem rows_filter_isTop (source : Source) :
    ((Step.all.flatMap fun step => step.rows source).filter Row.isTop).Perm
      (limitedCaps.flatMap fun each => each.1.rows source) := by
  have order : (Step.all.take 7).Perm (limitedCaps.map Prod.fst) := by decide
  have tops : ∀ step ∈ Step.all.take 7, step ∈ streamingSteps := by decide
  have others : ∀ step ∈ Step.all.drop 7, step ∉ streamingSteps := by decide
  have kept : ((Step.all.take 7).flatMap fun step => step.rows source).filter Row.isTop =
      (Step.all.take 7).flatMap fun step => step.rows source := by
    rw [List.filter_eq_self]
    intro row member
    obtain ⟨step, listed, inside⟩ := List.mem_flatMap.mp member
    exact Step.isTop_of_streamed (tops step listed) row inside
  have left : ((Step.all.drop 7).flatMap fun step => step.rows source).filter Row.isTop = [] := by
    rw [List.filter_eq_nil_iff]
    intro row member
    obtain ⟨step, listed, inside⟩ := List.mem_flatMap.mp member
    rw [Step.isTop_of_not_streamed (others step listed) row inside]
    exact Bool.false_ne_true
  rw [← List.take_append_drop 7 Step.all, List.flatMap_append, List.filter_append, kept, left,
    List.append_nil, ← List.flatMap_map]
  exact order.flatMap_right _

/-! ### Runs -/

private theorem flatMap_sublist {α β : Type} {items : List α} {make other : α → List β}
    (kept : ∀ item ∈ items, (make item).Sublist (other item)) :
    (items.flatMap make).Sublist (items.flatMap other) := by
  induction items with
  | nil => exact .slnil
  | cons item rest ih =>
      obtain ⟨here, later⟩ := List.forall_mem_cons.mp kept
      rw [List.flatMap_cons, List.flatMap_cons]
      exact here.append (ih later)

def limitedDeclarations (source : Source) : List Node :=
  limitedCaps.flatMap fun each => each.1.declarations source (.capped source each.2)

private theorem limitedRows_sublist (source : Source) :
    ((limitedDeclarations source).map Row.ofNode).Sublist
      (limitedCaps.flatMap fun each => each.1.rows source) := by
  unfold limitedDeclarations
  rw [List.map_flatMap]
  apply flatMap_sublist
  intro each member
  rw [Step.rows_bare]
  exact (capped_sublist member source).map _

private theorem WithinLimitedCaps.rows_eq {source : Source} (within : WithinLimitedCaps source) :
    (limitedDeclarations source).map Row.ofNode =
      limitedCaps.flatMap fun each => each.1.rows source := by
  unfold limitedDeclarations
  rw [List.map_flatMap]
  apply flatMap_congr_mem
  intro each member
  rw [Step.rows_bare, within.capped_eq member]

theorem Job.run_limited {job : Job} (sound : job.faults.SparesSteps) :
    job.run .limited =
      .ok (Extraction.take job.limit weight (limitedDeclarations job.source) {}) := by
  rw [run_limited_eq]
  unfold runLimited
  dsimp only
  rw [runUntilFault_sound sound, List.flatMap_map]
  rfl

theorem Job.runFull_items_of_room {job : Job} (sound : job.faults.SparesSteps)
    (room : job.HasRoom .full) :
    job.runFull.items =
      Step.all.flatMap fun step => step.declarations job.source (.whole job.source) := by
  obtain ⟨extraction, ran, notFull⟩ := room
  cases job.run_full_eq.symm.trans ran
  have same : job.stepPlan.faultless = job.stepPlan := by
    unfold stepPlan Plan.faultless
    congr 1
    funext step
    exact (sound step).symm
  have space : (job.stepPlan.faultless.run Step.all {}).isFull job.stepPlan.limit = false := by
    rw [same]
    exact notFull
  have items := (Plan.run_faultless space).1
  rw [same] at items
  exact items

/-! ### Files -/

def topRows (parsed : Parsed) : List Row :=
  parsed.tree.root.children.map Row.ofNode

private theorem topRows_assemble (config : Config) (job : Job) (strategy : Strategy) (path : String)
    (extraction : Extraction Node) :
    (topRows (assemble config job strategy path extraction).value).Perm
      (extraction.items.map Row.ofNode) :=
  (bySpan_perm Node.span extraction.items).map Row.ofNode

private theorem topRows_full (config : Config) {job : Job} (sound : job.faults.SparesSteps)
    (room : job.HasRoom .full) (path : String) :
    ((topRows (assemble config job .full path job.runFull).value).filter Row.isTop).Perm
      (limitedCaps.flatMap fun each => each.1.rows job.source) := by
  have rows := topRows_assemble config job .full path job.runFull
  rw [Job.runFull_items_of_room sound room, List.map_flatMap] at rows
  exact (rows.filter Row.isTop).trans (rows_filter_isTop job.source)

private theorem topRows_limited_subperm (config : Config) (job : Job) (path : String) :
    (topRows (assemble config job .limited path
      (.take job.limit weight (limitedDeclarations job.source) {})).value).Subperm
      (limitedCaps.flatMap fun each => each.1.rows job.source) := by
  have rows := topRows_assemble config job .limited path
    (.take job.limit weight (limitedDeclarations job.source) {})
  have kept := Extraction.take_sublist job.limit weight (limitedDeclarations job.source) {}
  have among := (kept.map Row.ofNode).trans (limitedRows_sublist job.source)
  exact rows.subperm.trans among.subperm

private theorem topRows_limited (config : Config) {job : Job}
    (room : (Extraction.take job.limit weight (limitedDeclarations job.source) {}).isFull
      job.limit = false)
    (within : WithinLimitedCaps job.source) (path : String) :
    (topRows (assemble config job .limited path
      (.take job.limit weight (limitedDeclarations job.source) {})).value).Perm
      (limitedCaps.flatMap fun each => each.1.rows job.source) := by
  have rows := topRows_assemble config job .limited path
    (.take job.limit weight (limitedDeclarations job.source) {})
  rw [Extraction.take_items room, List.nil_append, within.rows_eq] at rows
  exact rows

/-- What the limited strategy gives of a file is part of what the file gives that is taken apart in
full, and it is all of it that is of one of its types if neither a limit nor a cap is reached. -/
theorem limited_agrees_with_full {limited whole : Config} {content : String}
    (few : Admits limited content .limited) (all : Admits whole content .full) {faults : Faults}
    (sound : faults.SparesSteps) {context : Option Context}
    (room : (jobOf whole .full faults content context).HasRoom .full) (path : String) :
    ∃ part full, (parse limited faults content path context).value = .ok part ∧
      (parse whole faults content path context).value = .ok full ∧
      (topRows part).Subperm ((topRows full).filter Row.isTop) ∧
      ((jobOf limited .limited faults content context).HasRoom .limited →
        WithinLimitedCaps (.ofContent content) →
        (topRows part).Perm ((topRows full).filter Row.isTop)) := by
  have ran := @Job.run_limited (jobOf limited .limited faults content context) sound
  have first := few.parse faults path context
  rw [ran] at first
  have tops := topRows_full whole sound room path
  refine ⟨_, _, first, all.parse_full faults path context, ?_, ?_⟩
  · have among := topRows_limited_subperm limited
      (jobOf limited .limited faults content context) path
    exact among.trans tops.symm.subperm
  · rintro ⟨extraction, ranToo, notFull⟩ within
    rw [← Except.ok.inj (ran.symm.trans ranToo)] at notFull
    exact (topRows_limited limited notFull within path).trans tops.symm

/-- A class with a member, a function and a variable, of which the class and the function are
given. -/
theorem limited_agrees_on_class :
    let content := "class A \x7b\n  int x;\n\x7d\nf() \x7b\x7d\nint y;"
    let limited : Config := { performance := { limitedThreshold := 1 } }
    Admits limited content .limited ∧ Admits {} content .full ∧
      (jobOf {} .full {} content none).HasRoom .full ∧
      (jobOf limited .limited {} content none).HasRoom .limited ∧
      WithinLimitedCaps (.ofContent content) ∧
      ∃ part full, (parse limited {} content "a.dart" none).value = .ok part ∧
        (parse {} {} content "a.dart" none).value = .ok full ∧
        (topRows part).Perm ((topRows full).filter Row.isTop) := by
  intro content limited
  have few : Admits limited content .limited := ⟨by decide +kernel, by decide +kernel⟩
  have all : Admits {} content .full := ⟨by decide +kernel, by decide +kernel⟩
  have room : (jobOf {} .full {} content none).HasRoom .full := ⟨_, rfl, by decide +kernel⟩
  have space : (jobOf limited .limited {} content none).HasRoom .limited :=
    ⟨_, Job.run_limited fun _ => rfl, by decide +kernel⟩
  have within : WithinLimitedCaps (.ofContent content) := by
    have lengths : (∀ each ∈ limitedCaps, (each.1.rows (.ofContent content)).length ≤ 1) ∧
        (functionNodes (.ofContent content) (.whole (.ofContent content))).length ≤ 1 := by
      decide +kernel
    have caps : ∀ each ∈ limitedCaps, 1 ≤ each.2 := by decide
    refine ⟨fun each member _ => Nat.le_trans (lengths.1 each member) (caps each member), ?_⟩
    intro each member _ sort most capped
    apply Nat.le_trans (Nat.le_trans List.countP_le_length lengths.2)
    cases sort with
    | generator | async =>
        cases capped
        decide
    | plain =>
        cases capped
        exact caps each member
  obtain ⟨part, full, first, second, _, same⟩ :=
    limited_agrees_with_full few all (fun _ => rfl) room "a.dart"
  exact ⟨few, all, room, space, within, part, full, first, second, same space within⟩

end Dart

end SourceOutline
