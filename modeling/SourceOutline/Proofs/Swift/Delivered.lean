import SourceOutline.Proofs.Swift.Limit

set_option autoImplicit false

/-! How many symbols of a Swift file the limit leaves.

What is placed in a type that stands in the body of a function is counted, though the tree does not
show it.  So the limit may be used up by declarations without a symbol, and then fewer symbols are
left than it allows. -/

namespace SourceOutline

/-! ### Counts in the front of a list -/

/-- Of the items wanted in a list, as many stand in its front as it has room for, unless the front
has others as well and some of them stand behind it. -/
theorem countP_take_eq_min_iff {α : Type} (wanted : α → Bool) (items : List α) (limit : Nat) :
    (items.take limit).countP wanted = min limit (items.countP wanted) ↔
      ¬((∃ item ∈ items.take limit, wanted item = false) ∧
        ∃ item ∈ items.drop limit, wanted item = true) := by
  have parts : (items.take limit).countP wanted + (items.drop limit).countP wanted =
      items.countP wanted := by
    rw [← List.countP_append, List.take_append_drop]
  have front : (items.take limit).countP wanted = (items.take limit).length ↔
      ¬∃ item ∈ items.take limit, wanted item = false := by
    rw [List.countP_eq_length]
    simp
  have back : 0 < (items.drop limit).countP wanted ↔
      ∃ item ∈ items.drop limit, wanted item = true :=
    List.countP_pos_iff
  have most := (items.take limit).countP_le_length (p := wanted)
  have few := (items.drop limit).countP_le_length (p := wanted)
  rw [List.length_take] at front most
  rw [List.length_drop] at few
  rw [not_and', ← front, ← back]
  omega

/-! ### Symbols of nodes that all declare something -/

mutual

theorem Node.length_shape {symbol? : Label → Option Symbol} :
    ∀ node : Node, Declares symbol? node →
      (Outline.preorderAll (shape symbol? node)).length = count node
  | .missing, declares => absurd declares (by rw [Declares]; exact id)
  | .node label children, declares => by
      rw [Declares] at declares
      obtain ⟨⟨symbol, declared, _⟩, others⟩ := declares
      have below := length_shapes children others
      rw [shape, declared, count]
      simp [Outline.preorderAll, Outline.preorder, below]

private theorem Node.length_shapes {symbol? : Label → Option Symbol} :
    ∀ nodes : List Node, AllDeclare symbol? nodes →
      (Outline.preorderAll (shapes symbol? nodes)).length = countAll nodes
  | [], _declare => rfl
  | first :: rest, declare => by
      rw [AllDeclare] at declare
      rw [shapes, preorderAll_append, List.length_append, length_shape first declare.1,
        length_shapes rest declare.2, countAll]

end

namespace Swift

/-! ### What all steps place -/

def Job.allItems (job : Job) : List Placed :=
  Step.all.flatMap job.stepPlan.given

private theorem Job.runAll_items_take (job : Job) :
    job.runAll.items = job.allItems.take job.limit := by
  rw [job.runAll_items, takeWithin_one, Nat.sub_zero, allItems]

private theorem Job.runAll_items_of_hasRoom {job : Job} (room : job.HasRoom) :
    job.runAll.items = job.allItems := by
  have below : job.runAll.count < job.limit := (Extraction.isFull_eq_false_iff _ _).mp room
  have count : job.runAll.count = (takeWithin job.limit (fun _ => 1) 0 job.allItems).2 :=
    (job.stepPlan.run_taken Step.all {}).2
  have taken := (takeWithin_length (fun _ => Nat.le_refl 1) job.allItems (Nat.le_refl 0)
    (Nat.zero_le job.limit)).1
  rw [← count, takeWithin_one, List.length_take] at taken
  rw [job.runAll_items_take]
  apply List.take_of_length_le
  omega

private theorem Placed.ordinal?_eq_some_iff {placed : Placed} {ordinal : Nat} :
    placed.ordinal? = some ordinal ↔ placed.item = .type ordinal := by
  obtain ⟨place, item⟩ := placed
  cases item <;> simp [ordinal?]

private theorem ordinal?_of_types {source : Source} {bodies : List TypeBody} {placed : Placed}
    (member : placed ∈ Step.types.placed source bodies) :
    ∃ ordinal, placed.ordinal? = some ordinal := by
  obtain ⟨candidate, listed, found⟩ := List.mem_filterMap.mp member
  obtain ⟨body, _, rfl⟩ := List.mem_map.mp listed
  rw [place?_eq_some found]
  exact ⟨body.ordinal, rfl⟩

/-- A type comes before all that is placed in it. -/
theorem Job.allItems_ordered {job : Job} (room : job.HasRoom) :
    job.allItems.Pairwise fun earlier later =>
      ∀ ordinal, later.ordinal? = some ordinal → earlier.place ≠ .within ordinal := by
  have placement := job.placement
  have ordinals := (List.pairwise_map.mpr placement.ordered).sublist job.ordinals_sublist
  have split : job.allItems =
      job.stepPlan.given .types ++ Step.all.tail.flatMap job.stepPlan.given :=
    List.flatMap_cons
  rw [job.runAll_items_of_hasRoom room] at placement ordinals
  rw [split] at placement ordinals ⊢
  rw [List.filterMap_append] at ordinals
  have vacuous : ∀ earlier : Placed, ∀ later ∈ Step.all.tail.flatMap job.stepPlan.given,
      ∀ ordinal, later.ordinal? = some ordinal → earlier.place ≠ .within ordinal := by
    intro earlier later member ordinal isType
    cases (ordinal?_of_rest later member).symm.trans isType
  refine List.pairwise_append.mpr ⟨?_, ?_, fun earlier _ => vacuous earlier⟩
  · have types := List.pairwise_filterMap.mp (List.pairwise_append.mp ordinals).1
    refine types.imp_of_mem fun {earlier later} first second rising ordinal isType inside => ?_
    obtain ⟨own, ownType⟩ := ordinal?_of_types ((job.stepPlan.given_sublist .types).mem first)
    have before := rising own ownType ordinal isType
    obtain ⟨place, item⟩ := earlier
    cases inside
    cases Placed.ordinal?_eq_some_iff.mp ownType
    have behind := placement.follows ordinal own (List.mem_append_left _ first)
    omega
  · exact List.pairwise_of_forall_mem_list
      fun earlier _ later member => vacuous earlier later member

/-- What the front of a list of items shows depends on nothing behind it, if no type stands behind
what is placed in it. -/
theorem Shown.of_append {front back : List Placed}
    (ordered : ∀ placed ∈ front, ∀ later ∈ back, ∀ ordinal, later.ordinal? = some ordinal →
      placed.place ≠ .within ordinal) {place : Place} (shown : Shown (front ++ back) place) :
    ∀ placed ∈ front, placed.place = place → Shown front place := by
  induction shown with
  | top => exact fun _ _ _ => .top
  | @within outer ordinal above member ih =>
      intro placed inside here
      rcases List.mem_append.mp member with known | behind
      · exact .within (ih _ known rfl) known
      · exact absurd here (ordered placed inside _ behind ordinal rfl)

private theorem Shown.mono {items others : List Placed} (subset : items ⊆ others) {place : Place}
    (shown : Shown items place) : Shown others place := by
  induction shown with
  | top => exact .top
  | within above member ih => exact .within ih (subset member)

/-- Without types only what stands at the top is shown. -/
theorem shown_iff_of_no_types {items : List Placed} (members : items.filterMap Placed.ordinal? = [])
    (place : Place) : Shown items place ↔ place = .top := by
  constructor
  · intro shown
    cases shown with
    | top => rfl
    | within above member => cases List.filterMap_eq_nil_iff.mp members _ member
  · rintro rfl
    exact .top

/-! ### Files -/

open scoped Classical in
/-- A Swift file has a symbol for each item that stands in its tree. -/
theorem exists_symbols (config : Config) (faults : Faults) (content path : String)
    (context : Option Context) :
    let items := (jobOf config faults content context).runAll.items
    ∃ parsed found, (parse config faults content path context).value = .ok parsed ∧
      symbols parsed.tree = .ok found ∧
      found.length = items.countP fun placed => Shown items placed.place := by
  intro items
  let job := jobOf config faults content context
  obtain ⟨parsed, value, children, read⟩ := exists_parsed config faults content path context
  refine ⟨parsed, _, value, read, ?_⟩
  have declare := job.placement.allDeclare parsed.tree.path parsed.tree.language
  rw [NodeReading.shapes, children, Node.length_shapes _ declare,
    job.placement.countAll_topNodes job.ordinals_nodup, List.countP_eq_length_filter]

/-- Let the limit of one configuration not be reached in a file.  Then another limit leaves as many
of the symbols as it allows, unless it is used up in part by what the tree does not show while
something that the tree would show is left behind. -/
theorem parse_delivers_limit_iff (config : Config) {unlimited : Config} {faults : Faults}
    {content : String} {context : Option Context}
    (room : (jobOf unlimited faults content context).HasRoom) (path : String) :
    let limit := config.performance.maxSymbols
    let items := (jobOf unlimited faults content context).allItems
    ∃ parsed whole found every, (parse config faults content path context).value = .ok parsed ∧
      (parse unlimited faults content path context).value = .ok whole ∧
      symbols parsed.tree = .ok found ∧ symbols whole.tree = .ok every ∧
      found.length ≤ min limit every.length ∧
      (found.length = min limit every.length ↔
        ¬((∃ hidden ∈ items.take limit, ¬Shown items hidden.place) ∧
          ∃ shown ∈ items.drop limit, Shown items shown.place)) := by
  classical
  intro limit items
  obtain ⟨parsed, found, value, read, length⟩ := exists_symbols config faults content path context
  obtain ⟨whole, every, wholeValue, wholeRead, all⟩ :=
    exists_symbols unlimited faults content path context
  rw [Job.runAll_items_of_hasRoom room] at all
  -- what the limit leaves is the front of all items, and shows of it what all items show
  have front : (jobOf config faults content context).runAll.items = items.take limit :=
    (jobOf config faults content context).runAll_items_take
  have ordered := Job.allItems_ordered room
  rw [← List.take_append_drop limit (jobOf unlimited faults content context).allItems,
    List.pairwise_append] at ordered
  have same : ∀ placed ∈ items.take limit,
      Shown (items.take limit) placed.place ↔ Shown items placed.place := by
    intro placed member
    constructor
    · exact Shown.mono (List.take_subset limit items)
    · intro shown
      rw [← List.take_append_drop limit items] at shown
      exact shown.of_append ordered.2.2 placed member rfl
  have kept : found.length = (items.take limit).countP fun placed => Shown items placed.place := by
    rw [length, front]
    exact List.countP_congr fun placed member => by simp [same placed member]
  refine ⟨parsed, whole, found, every, value, wholeValue, read, wholeRead, ?_, ?_⟩
  · rw [kept, all]
    apply Nat.le_min.mpr
    exact ⟨Nat.le_trans List.countP_le_length (List.length_take_le limit items),
      (List.take_sublist limit items).countP_le⟩
  · rw [kept, all, countP_take_eq_min_iff]
    simp

/-- Of a function with a type in its body, and a variable behind it, the function is left where one
symbol is allowed. -/
theorem function_delivered :
    let content := "func f() \x7b struct S \x7b let a = 1 \x7d \x7d\nlet b = 2"
    let config : Config := { performance := { maxSymbols := 1 } }
    (jobOf {} {} content none).HasRoom ∧
      ∃ parsed whole found every, (parse config {} content "a.swift" none).value = .ok parsed ∧
        (parse {} {} content "a.swift" none).value = .ok whole ∧
        symbols parsed.tree = .ok found ∧ symbols whole.tree = .ok every ∧
        found.length = min 1 every.length := by
  intro content config
  let job := jobOf {} {} content none
  have placed : job.runAll.isFull job.limit = false ∧
      job.allItems.filterMap Placed.ordinal? = [] ∧
      (job.allItems.take 1).map Placed.place = [.top] := by decide +kernel
  obtain ⟨room, members, first⟩ := placed
  obtain ⟨parsed, whole, found, every, value, wholeValue, read, wholeRead, _, exactly⟩ :=
    parse_delivers_limit_iff config room "a.swift"
  refine ⟨room, parsed, whole, found, every, value, wholeValue, read, wholeRead, exactly.mpr ?_⟩
  rintro ⟨⟨hidden, member, notShown⟩, _⟩
  apply notShown
  rw [shown_iff_of_no_types members]
  have listed := List.mem_map_of_mem (f := Placed.place) member
  exact List.mem_singleton.mp (first ▸ listed)

/-- A property of a type in the body of a function has no symbol, but it takes the place of the
variable behind the function. -/
theorem hidden_property_takes_place :
    ¬ ∀ (config unlimited : Config) (content path : String) (parsed whole : Parsed)
        (found every : List Symbol),
      (jobOf unlimited {} content none).HasRoom →
      (parse config {} content path none).value = .ok parsed →
      (parse unlimited {} content path none).value = .ok whole →
      symbols parsed.tree = .ok found → symbols whole.tree = .ok every →
      found.length = min config.performance.maxSymbols every.length := by
  classical
  intro holds
  let content := "func f() \x7b struct S \x7b let a = 1 \x7d \x7d\nlet b = 2"
  let config : Config := { performance := { maxSymbols := 2 } }
  let job := jobOf {} {} content none
  have placed : job.runAll.isFull job.limit = false ∧
      job.allItems.filterMap Placed.ordinal? = [] ∧
      job.allItems.map Placed.place = [.top, .within 0, .top] := by decide +kernel
  obtain ⟨room, members, places⟩ := placed
  have counted : ∀ limit, ((job.allItems.take limit).countP fun placed =>
      Shown (job.allItems.take limit) placed.place) =
        ([.top, .within 0, .top].take limit).countP (· == Place.top) := by
    intro limit
    have none : (job.allItems.take limit).filterMap Placed.ordinal? = [] :=
      List.sublist_nil.mp (members ▸ (List.take_sublist limit _).filterMap Placed.ordinal?)
    rw [← places, ← List.map_take, List.countP_map]
    exact List.countP_congr fun placed _ => by simp [shown_iff_of_no_types none]
  obtain ⟨parsed, found, value, read, length⟩ := exists_symbols config {} content "a.swift" none
  obtain ⟨whole, every, wholeValue, wholeRead, allLength⟩ :=
    exists_symbols {} {} content "a.swift" none
  rw [Job.runAll_items_take] at length allLength
  have short := length.trans (counted 2)
  have long := allLength.trans (counted 10000)
  have same := holds config {} content "a.swift" parsed whole found every room value wholeValue read
    wholeRead
  rw [short, long] at same
  exact absurd same (by decide)

end Swift

end SourceOutline
