import SourceOutline.Proofs.Extraction.Attempt

set_option autoImplicit false

/-! How far a limit is kept.

Items are taken as long as the limit is not reached.  So there are never more of them than the limit
allows, and it is only the last one that can go beyond it. -/

namespace SourceOutline

variable {σ α κ : Type}

/-! ### Weights -/

theorem totalWeight_perm (weight : α → Nat) {left right : List α} (same : left.Perm right) :
    totalWeight weight left = totalWeight weight right := by
  induction same with
  | nil => rfl
  | cons item _ ih => rw [totalWeight, totalWeight, ih]
  | swap first second rest =>
      simp only [totalWeight]
      omega
  | trans _ _ first second => exact first.trans second

theorem totalWeight_congr {weight other : α → Nat} {items : List α}
    (same : ∀ item ∈ items, weight item = other item) :
    totalWeight weight items = totalWeight other items := by
  induction items with
  | nil => rfl
  | cons item rest ih =>
      obtain ⟨here, later⟩ := List.forall_mem_cons.mp same
      rw [totalWeight, totalWeight, here, ih later]

theorem totalWeight_le_length {weight : α → Nat} {items : List α}
    (light : ∀ item ∈ items, weight item ≤ 1) : totalWeight weight items ≤ items.length := by
  induction items with
  | nil => exact Nat.le_refl _
  | cons item rest ih =>
      obtain ⟨here, later⟩ := List.forall_mem_cons.mp light
      have others := ih later
      rw [totalWeight, List.length_cons]
      omega

theorem totalWeight_map {α β : Type} (weight : β → Nat) (change : α → β) (items : List α) :
    totalWeight weight (items.map change) =
      totalWeight (fun item => weight (change item)) items := by
  induction items with
  | nil => rfl
  | cons item rest ih => rw [List.map_cons, totalWeight, totalWeight, ih]

theorem totalWeight_filterMap {α β : Type} (weight : β → Nat) (make : α → Option β)
    (items : List α) :
    totalWeight weight (items.filterMap make) =
      totalWeight (fun item => (make item).elim 0 weight) items := by
  induction items with
  | nil => rfl
  | cons item rest ih =>
      rw [totalWeight, ← ih]
      cases made : make item with
      | none => rw [List.filterMap_cons_none made, Option.elim_none, Nat.zero_add]
      | some value => rw [List.filterMap_cons_some made, Option.elim_some, totalWeight]

theorem totalWeight_one_add (weight : α → Nat) (items : List α) :
    totalWeight (fun item => 1 + weight item) items = items.length + totalWeight weight items := by
  induction items with
  | nil => rfl
  | cons item rest ih =>
      rw [totalWeight, totalWeight, ih, List.length_cons]
      omega

private theorem totalWeight_filter (weight : α → Nat) (keep : α → Bool) (items : List α) :
    totalWeight weight (items.filter keep) +
      totalWeight weight (items.filter fun item => !keep item) = totalWeight weight items := by
  induction items with
  | nil => rfl
  | cons item rest ih =>
      rw [totalWeight, ← ih]
      cases kept : keep item with
      | true =>
          rw [List.filter_cons_of_pos kept, List.filter_cons_of_neg (by simp [kept]), totalWeight]
          omega
      | false =>
          rw [List.filter_cons_of_neg (by simp [kept]), List.filter_cons_of_pos (by simp [kept]),
            totalWeight]
          omega

/-- The items of different groups, one group for each key, weigh as much as all items that have one
of the keys. -/
theorem totalWeight_groups [BEq κ] [LawfulBEq κ] (weight : α → Nat) (key : α → κ) {keys : List κ}
    (distinct : keys.Nodup) (items : List α) :
    totalWeight (fun each => totalWeight weight (items.filter fun item => key item == each)) keys =
      totalWeight weight (items.filter fun item => keys.contains (key item)) := by
  induction keys with
  | nil =>
      have none : (items.filter fun item => ([] : List κ).contains (key item)) = [] :=
        List.filter_eq_nil_iff.mpr fun _ _ => Bool.false_ne_true
      rw [none]
      rfl
  | cons first rest ih =>
      obtain ⟨fresh, others⟩ := List.nodup_cons.mp distinct
      rw [totalWeight, ih others,
        ← totalWeight_filter weight (fun item => key item == first)
          (items.filter fun item => (first :: rest).contains (key item)),
        List.filter_filter, List.filter_filter]
      -- an item with the first key has none of the others
      congr 2 <;> apply List.filter_congr <;> intro item _ <;> by_cases here : key item = first
      · simp [here]
      · simp [here]
      · simp [here, fresh]
      · simp [here]

/-! ### What is taken -/

/-- If every item has some weight, no more of them are taken than the limit allows. -/
theorem takeWithin_length {weight : α → Nat} (heavy : ∀ item, 1 ≤ weight item) {limit : Nat}
    (items : List α) {taken count : Nat} (before : taken ≤ count) (allowed : taken ≤ limit) :
    taken + (takeWithin limit weight count items).1.length ≤
        (takeWithin limit weight count items).2 ∧
      taken + (takeWithin limit weight count items).1.length ≤ limit := by
  induction items generalizing taken count with
  | nil => exact ⟨before, allowed⟩
  | cons item rest ih =>
      rw [takeWithin]
      split
      · exact ⟨before, allowed⟩
      · have positive := heavy item
        obtain ⟨counted, limited⟩ := @ih (taken + 1) (count + weight item) (by omega) (by omega)
        dsimp only
        rw [List.length_cons]
        omega

/-- If every item counts once, the items are taken from the front up to the limit. -/
theorem takeWithin_one (limit : Nat) (items : List α) (count : Nat) :
    (takeWithin limit (fun _ => 1) count items).1 = items.take (limit - count) := by
  induction items generalizing count with
  | nil => rw [List.take_nil, takeWithin]
  | cons item rest ih =>
      rw [takeWithin]
      split
      · rename_i full
        rw [Nat.sub_eq_zero_of_le full, List.take_zero]
      · dsimp only
        rw [ih, show limit - count = limit - (count + 1) + 1 by omega, List.take_succ_cons]

/-- Either everything is taken and the limit is not reached, or it is reached by the last item that
is taken. -/
theorem takeWithin_cases (weight : α → Nat) {limit : Nat} (items : List α) {count : Nat}
    (room : count < limit) :
    (count + totalWeight weight items < limit ∧
        takeWithin limit weight count items = (items, count + totalWeight weight items)) ∨
      ∃ earlier last later, items = earlier ++ last :: later ∧
        count + totalWeight weight earlier < limit ∧
        limit ≤ count + totalWeight weight earlier + weight last ∧
        takeWithin limit weight count items =
          (earlier ++ [last], count + totalWeight weight earlier + weight last) := by
  induction items generalizing count with
  | nil => exact .inl ⟨room, rfl⟩
  | cons item rest ih =>
      rw [takeWithin, if_neg (Nat.not_le.mpr room), totalWeight]
      by_cases reached : limit ≤ count + weight item
      · right
        refine ⟨[], item, rest, rfl, room, reached, ?_⟩
        rw [takeWithin_of_full reached]
        rfl
      · rcases ih (Nat.lt_of_not_le reached) with ⟨space, all⟩ | ⟨earlier, last, later, rest, early,
          late, taken⟩
        · left
          rw [all, ← Nat.add_assoc]
          exact ⟨space, rfl⟩
        · right
          refine ⟨item :: earlier, last, later, ?_, ?_, ?_, ?_⟩
          · rw [rest]
            rfl
          · rw [totalWeight]
            omega
          · rw [totalWeight]
            omega
          · rw [taken, totalWeight, ← Nat.add_assoc]
            rfl

/-- The item that reaches the limit is the last one taken. -/
theorem takeWithin_of_split {weight : α → Nat} {limit : Nat} {earlier later : List α} {last : α}
    (early : totalWeight weight earlier < limit)
    (late : limit ≤ totalWeight weight earlier + weight last) :
    (takeWithin limit weight 0 (earlier ++ last :: later)).1 = earlier ++ [last] := by
  have all := takeWithin_all earlier 0 (by rwa [Nat.zero_add])
  rw [takeWithin_append, all, Nat.zero_add]
  dsimp only
  rw [takeWithin, if_neg (Nat.not_le.mpr early), takeWithin_of_full late]

section

variable {weight size : α → Nat} {first rest : List α}

/-- Items whose size is their weight come first, and behind them only small ones.  Then the size of
what is taken keeps the limit, unless one of the first goes beyond it. -/
theorem takeWithin_size (limit : Nat) (heavy : ∀ item, 1 ≤ weight item)
    (exact : ∀ item ∈ first, size item = weight item) (light : ∀ item ∈ rest, size item ≤ 1) :
    totalWeight size (takeWithin limit weight 0 (first ++ rest)).1 ≤ limit ∨
      ∃ earlier last later, first = earlier ++ last :: later ∧
        totalWeight weight earlier < limit ∧
        totalWeight size (takeWithin limit weight 0 (first ++ rest)).1 =
          totalWeight weight earlier + weight last := by
  by_cases none : limit = 0
  · left
    rw [takeWithin_of_full (by omega)]
    exact Nat.zero_le _
  · rw [takeWithin_append]
    rcases takeWithin_cases weight first (Nat.pos_of_ne_zero none) with
      ⟨room, all⟩ | ⟨earlier, last, later, split, early, late, taken⟩
    · left
      rw [Nat.zero_add] at room all
      have short := (takeWithin_length heavy rest (Nat.le_refl _) (Nat.le_of_lt room)).2
      have small := totalWeight_le_length fun item member =>
        light item ((takeWithin_sublist limit weight rest (totalWeight weight first)).mem member)
      rw [all, totalWeight_append, totalWeight_congr exact]
      dsimp only
      omega
    · right
      refine ⟨earlier, last, later, split, by omega, ?_⟩
      rw [taken, takeWithin_of_full late, List.append_nil, totalWeight_append, totalWeight,
        totalWeight, Nat.add_zero]
      have listed := exact
      rw [split, List.forall_mem_append, List.forall_mem_cons] at listed
      rw [totalWeight_congr listed.1, listed.2.1]

theorem lt_size_iff {limit : Nat} (heavy : ∀ item, 1 ≤ weight item)
    (exact : ∀ item ∈ first, size item = weight item) (light : ∀ item ∈ rest, size item ≤ 1) :
    limit < totalWeight size (takeWithin limit weight 0 (first ++ rest)).1 ↔
      ∃ earlier last later, first = earlier ++ last :: later ∧
        totalWeight weight earlier < limit ∧ limit < totalWeight weight earlier + weight last := by
  constructor
  · intro beyond
    rcases takeWithin_size limit heavy exact light with
      within | ⟨earlier, last, later, split, early, same⟩
    · omega
    · exact ⟨earlier, last, later, split, early, same ▸ beyond⟩
  · intro crossed
    obtain ⟨earlier, last, later, split, early, late⟩ := crossed
    rw [split, List.forall_mem_append, List.forall_mem_cons] at exact
    rw [split, List.append_assoc, List.cons_append, takeWithin_of_split early (Nat.le_of_lt late),
      totalWeight_append, totalWeight_congr exact.1, totalWeight, totalWeight, exact.2.1]
    exact late

theorem size_le (limit : Nat) (heavy : ∀ item, 1 ≤ weight item)
    (exact : ∀ item ∈ first, size item = weight item) (light : ∀ item ∈ rest, size item ≤ 1)
    {most : Nat} (bounded : ∀ item ∈ first, weight item ≤ 1 + most) :
    totalWeight size (takeWithin limit weight 0 (first ++ rest)).1 ≤ limit + most := by
  rcases takeWithin_size limit heavy exact light with
      within | ⟨earlier, last, later, split, early, same⟩
  · exact Nat.le_trans within (Nat.le_add_right _ _)
  · rw [split, List.forall_mem_append, List.forall_mem_cons] at bounded
    have last := bounded.2.1
    omega

end

namespace Plan

def given (plan : Plan σ α) (part : σ) : List α :=
  if plan.fails part then [] else plan.gives part

theorem given_sublist (plan : Plan σ α) (part : σ) :
    (plan.given part).Sublist (plan.gives part) := by
  unfold given
  split
  · exact List.nil_sublist _
  · exact .refl _

/-- A run takes from all that is given as if it came from one part. -/
theorem run_taken (plan : Plan σ α) (parts : List σ) (extraction : Extraction α) :
    (plan.run parts extraction).items =
        extraction.items ++
          (takeWithin plan.limit plan.weight extraction.count (parts.flatMap plan.given)).1 ∧
      (plan.run parts extraction).count =
        (takeWithin plan.limit plan.weight extraction.count (parts.flatMap plan.given)).2 := by
  induction parts generalizing extraction with
  | nil => exact ⟨(List.append_nil _).symm, rfl⟩
  | cons part rest ih =>
      rw [run, List.foldl_cons, List.flatMap_cons, takeWithin_append, attempt]
      by_cases full : extraction.isFull plan.limit = true
      · rw [if_pos full]
        have reached : plan.limit ≤ extraction.count := of_decide_eq_true full
        rw [takeWithin_of_full reached, List.nil_append]
        exact ih extraction
      · rw [if_neg full]
        cases fault : plan.fault? part with
        | some message =>
            have nothing : plan.given part = [] := by rw [given, fails, fault]; rfl
            rw [nothing]
            exact ih _
        | none =>
            have all : plan.given part = plan.gives part := by rw [given, fails, fault]; rfl
            obtain ⟨items, count⟩ := ih (extraction.take plan.limit plan.weight (plan.gives part))
            rw [all]
            refine ⟨items.trans ?_, count⟩
            rw [← List.append_assoc]
            rfl

end Plan

end SourceOutline
