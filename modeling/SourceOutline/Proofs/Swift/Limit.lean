import SourceOutline.Proofs.Extraction.Limit
import SourceOutline.Proofs.Node.Complete
import SourceOutline.Proofs.Swift.Nested

set_option autoImplicit false

/-! How many nodes the tree of a Swift file has.

Every node of the tree is made of an item that was placed.  A type is placed only once, so what is
placed in it is counted once, and the tree has a node for each item whose place stands in it. -/

namespace SourceOutline

private theorem Node.countAll_eq (nodes : List Node) :
    countAll nodes = totalWeight count nodes := by
  induction nodes with
  | nil => rfl
  | cons node rest ih => rw [countAll, totalWeight, ih]

namespace Swift

def Placed.ordinal? (placed : Placed) : Option Nat :=
  match placed.item with
  | .type ordinal => some ordinal
  | .member _ => none

def Placed.nodeCount (types : List (Nat × Node)) (placed : Placed) : Nat :=
  (placed.item.node? types).elim 0 Node.count

private theorem countAll_nodesAt (items : List Placed) (types : List (Nat × Node)) (place : Place) :
    Node.countAll (nodesAt items types place) =
      totalWeight (Placed.nodeCount types) (items.filter fun each => each.place == place) := by
  rw [Node.countAll_eq, nodesAt_eq, totalWeight_perm _ (bySpan_perm _ _), totalWeight_filterMap]
  rfl

namespace Placement

variable {source : Source} {bodies : List TypeBody} {items : List Placed}

def nodeCountAt (source : Source) (bodies : List TypeBody) (items : List Placed)
    (place : Place) : Nat :=
  Node.countAll (nodesAt items (typeNodes source items bodies) place)

/-- An item brings its own node and, if it is a type, what is placed in it. -/
theorem nodeCount_eq (placement : Placement source bodies items) {placed : Placed}
    (member : placed ∈ items) :
    placed.nodeCount (typeNodes source items bodies) =
      1 + placed.ordinal?.elim 0 fun ordinal =>
        nodeCountAt source bodies items (.within ordinal) := by
  obtain ⟨place, item⟩ := placed
  obtain ⟨_, _, _, node, _, _, drawn, _⟩ := placement.exists_drawn member
  rw [Placed.nodeCount, placement.node?_of_drawn drawn, Option.elim_some, Placed.ordinal?]
  cases drawn with
  | type known => exact Nat.add_comm _ _
  | member declares => rfl

private theorem totalWeight_nodeCount (placement : Placement source bodies items)
    {some : List Placed} (kept : some ⊆ items) :
    totalWeight (Placed.nodeCount (typeNodes source items bodies)) some =
      some.length + totalWeight (fun ordinal => nodeCountAt source bodies items (.within ordinal))
        (some.filterMap Placed.ordinal?) := by
  rw [totalWeight_filterMap, ← totalWeight_one_add]
  exact totalWeight_congr fun placed member => placement.nodeCount_eq (kept member)

open scoped Classical in
/-- The tree has a node for each item that stands in it. -/
theorem countAll_topNodes (placement : Placement source bodies items)
    (once : (items.filterMap Placed.ordinal?).Nodup) :
    Node.countAll (topNodes source bodies items) =
      (items.filter fun placed => Shown items placed.place).length := by
  let shown := items.filter fun placed => Shown items placed.place
  let places : List Place := .top :: (shown.filterMap Placed.ordinal?).map .within
  have kept : shown.Sublist items := List.filter_sublist
  have distinct : places.Nodup := by
    refine List.nodup_cons.mpr ⟨by simp, ?_⟩
    rw [List.nodup_iff_pairwise_ne, List.pairwise_map]
    refine ((kept.filterMap Placed.ordinal?).nodup once).imp fun apart same => ?_
    exact apart (Place.within.inj same)
  have listed : ∀ place, place ∈ places ↔ Shown items place := by
    intro place
    constructor
    · intro member
      rcases List.mem_cons.mp member with rfl | inner
      · exact .top
      · obtain ⟨ordinal, found, rfl⟩ := List.mem_map.mp inner
        obtain ⟨⟨outer, item⟩, stands, isType⟩ := List.mem_filterMap.mp found
        obtain ⟨inside, above⟩ := List.mem_filter.mp stands
        cases item with
        | type other =>
            cases isType
            exact .within (of_decide_eq_true above) inside
        | member node => cases isType
    · intro stands
      cases stands with
      | top => exact List.mem_cons_self
      | @within outer ordinal above member =>
          have stands : ⟨outer, .type ordinal⟩ ∈ shown :=
            List.mem_filter.mpr ⟨member, decide_eq_true above⟩
          apply List.mem_cons_of_mem
          exact List.mem_map_of_mem (List.mem_filterMap.mpr ⟨_, stands, rfl⟩)
  have groups := totalWeight_groups (Placed.nodeCount (typeNodes source items bodies))
    Placed.place distinct items
  have same : (items.filter fun placed => places.contains placed.place) = shown := by
    apply List.filter_congr
    intro placed _
    rw [Bool.eq_iff_iff, List.contains_iff_mem, listed, decide_eq_true_iff]
  -- What the types bring stands in their bodies, so that the rest is left for the top.
  rw [same, placement.totalWeight_nodeCount kept.subset, totalWeight, totalWeight_map,
    ← countAll_nodesAt] at groups
  have inner : totalWeight (fun ordinal => totalWeight
        (Placed.nodeCount (typeNodes source items bodies))
        (items.filter fun each => each.place == .within ordinal))
        (shown.filterMap Placed.ordinal?) =
      totalWeight (fun ordinal => nodeCountAt source bodies items (.within ordinal))
        (shown.filterMap Placed.ordinal?) :=
    totalWeight_congr fun ordinal _ => (countAll_nodesAt items _ _).symm
  rw [inner] at groups
  exact Nat.add_right_cancel groups

end Placement

/-! ### What steps place -/

private theorem ordinals_of_types (source : Source) (bodies others : List TypeBody) :
    (((others.map fun body => (⟨body.offset, .type body.ordinal⟩ : Candidate)).filterMap
      (place? source bodies .types)).filterMap Placed.ordinal?).Sublist
        (others.map TypeBody.ordinal) := by
  induction others with
  | nil => exact .slnil
  | cons body rest ih =>
      rw [List.map_cons, List.map_cons]
      cases found : place? source bodies .types ⟨body.offset, .type body.ordinal⟩ with
      | none =>
          rw [List.filterMap_cons_none found]
          exact ih.cons _
      | some placed =>
          have ordinal : placed.ordinal? = some body.ordinal := by
            rw [place?_eq_some found]
            rfl
          rw [List.filterMap_cons_some found, List.filterMap_cons_some ordinal]
          exact ih.cons_cons _

private theorem ordinal?_of_member {source : Source} {bodies : List TypeBody} {step : Step}
    (other : step ≠ .types) {placed : Placed} (member : placed ∈ step.placed source bodies) :
    placed.ordinal? = none := by
  obtain ⟨candidate, listed, found⟩ := List.mem_filterMap.mp member
  rw [← Step.written_candidates] at listed
  obtain ⟨each, written, rfl⟩ := List.mem_map.mp listed
  obtain ⟨_, isMember⟩ := Step.written_isMember other written
  obtain ⟨tag, metadata, _, item⟩ := isMember.item
  rw [place?_eq_some found, Placed.ordinal?, item]

theorem Job.runAll_items (job : Job) :
    job.runAll.items =
      (takeWithin job.limit (fun _ => 1) 0 (Step.all.flatMap job.stepPlan.given)).1 :=
  (job.stepPlan.run_taken Step.all {}).1

theorem Job.ordinal?_of_rest {job : Job} :
    ∀ placed ∈ Step.all.tail.flatMap job.stepPlan.given, placed.ordinal? = none := by
  intro placed member
  obtain ⟨step, listed, given⟩ := List.mem_flatMap.mp member
  refine ordinal?_of_member ?_ ((job.stepPlan.given_sublist step).mem given)
  rintro rfl
  exact absurd listed (by decide)

/-- Only the first step places types, each of them at most once. -/
theorem Job.ordinals_sublist (job : Job) :
    (job.runAll.items.filterMap Placed.ordinal?).Sublist (job.bodies.map TypeBody.ordinal) := by
  have others : (Step.all.tail.flatMap job.stepPlan.given).filterMap Placed.ordinal? = [] :=
    List.filterMap_eq_nil_iff.mpr ordinal?_of_rest
  have all : (Step.all.flatMap job.stepPlan.given).filterMap Placed.ordinal? =
      (job.stepPlan.given .types).filterMap Placed.ordinal? := by
    rw [show Step.all = .types :: Step.all.tail from rfl, List.flatMap_cons, List.filterMap_append,
      others, List.append_nil]
  have types := (job.stepPlan.given_sublist .types).filterMap Placed.ordinal?
  rw [← all] at types
  rw [job.runAll_items]
  apply ((takeWithin_sublist _ _ _ _).filterMap _).trans
  apply types.trans
  exact ordinals_of_types job.source job.bodies job.bodies

private theorem Job.runAll_length_le (job : Job) : job.runAll.items.length ≤ job.limit := by
  rw [job.runAll_items]
  have limited := (takeWithin_length (fun _ => Nat.le_refl 1) (Step.all.flatMap job.stepPlan.given)
    (Nat.le_refl 0) (Nat.zero_le job.limit)).2
  rwa [Nat.zero_add] at limited

/-- No type is placed twice. -/
theorem Job.ordinals_nodup (job : Job) : (job.runAll.items.filterMap Placed.ordinal?).Nodup := by
  apply job.ordinals_sublist.nodup
  rw [List.nodup_iff_pairwise_ne, List.pairwise_map]
  exact job.placement.ordered.imp Nat.ne_of_lt

/-- The tree of a Swift file has no more declarations than the limit allows. -/
theorem Job.countAll_le (job : Job) :
    Node.countAll (topNodes job.source job.bodies job.runAll.items) ≤ job.limit := by
  rw [job.placement.countAll_topNodes job.ordinals_nodup]
  exact Nat.le_trans (List.length_filter_le _ _) job.runAll_length_le

end Swift

end SourceOutline
