import SourceOutline.Extraction

set_option autoImplicit false

/-! Work in parts, of which some may fail.

Parts are tried one after the other.  As long as the limit leaves room, a part that fails costs what
it would have given and nothing else: what the others give is taken as if it had not been there. -/

namespace SourceOutline

variable {σ α : Type}

/-! ### Taking under a limit -/

def totalWeight (weight : α → Nat) : List α → Nat
  | [] => 0
  | item :: rest => weight item + totalWeight weight rest

theorem totalWeight_append (weight : α → Nat) (left right : List α) :
    totalWeight weight (left ++ right) = totalWeight weight left + totalWeight weight right := by
  induction left with
  | nil => exact (Nat.zero_add _).symm
  | cons item rest ih =>
      rw [List.cons_append, totalWeight, totalWeight, ih, Nat.add_assoc]

theorem takeWithin_of_full {limit count : Nat} (full : limit ≤ count) (weight : α → Nat)
    (items : List α) : takeWithin limit weight count items = ([], count) := by
  cases items with
  | nil => rfl
  | cons item rest => rw [takeWithin, if_pos full]

theorem takeWithin_append (limit : Nat) (weight : α → Nat) (left right : List α) (count : Nat) :
    takeWithin limit weight count (left ++ right) =
      ((takeWithin limit weight count left).1 ++
          (takeWithin limit weight (takeWithin limit weight count left).2 right).1,
        (takeWithin limit weight (takeWithin limit weight count left).2 right).2) := by
  induction left generalizing count with
  | nil => rfl
  | cons item rest ih =>
      rw [List.cons_append, takeWithin, takeWithin]
      by_cases full : limit ≤ count
      · rw [if_pos full, if_pos full, takeWithin_of_full full]
        rfl
      · rw [if_neg full, if_neg full, ih]
        rfl

/-- Under the limit, everything is taken. -/
theorem takeWithin_all {limit : Nat} {weight : α → Nat} (items : List α) (count : Nat)
    (room : count + totalWeight weight items < limit) :
    takeWithin limit weight count items = (items, count + totalWeight weight items) := by
  induction items generalizing count with
  | nil => rfl
  | cons item rest ih =>
      rw [totalWeight] at room ⊢
      rw [takeWithin, if_neg (by omega), ih (count + weight item) (by omega), Nat.add_assoc]

/-- What is taken reaches the limit, or it is everything. -/
theorem takeWithin_count (limit : Nat) (weight : α → Nat) (items : List α) (count : Nat) :
    limit ≤ (takeWithin limit weight count items).2 ∨
      (takeWithin limit weight count items).2 = count + totalWeight weight items := by
  induction items generalizing count with
  | nil => exact Or.inr rfl
  | cons item rest ih =>
      rw [takeWithin, totalWeight]
      by_cases full : limit ≤ count
      · rw [if_pos full]
        exact Or.inl full
      · rw [if_neg full]
        dsimp only
        rw [← Nat.add_assoc]
        exact ih (count + weight item)

theorem takeWithin_sublist (limit : Nat) (weight : α → Nat) (items : List α) (count : Nat) :
    (takeWithin limit weight count items).1.Sublist items := by
  induction items generalizing count with
  | nil => exact List.Sublist.slnil
  | cons item rest ih =>
      rw [takeWithin]
      split
      · exact List.nil_sublist _
      · exact (ih _).cons_cons item

namespace Extraction

theorem isFull_eq_false_iff (limit : Nat) (extraction : Extraction α) :
    extraction.isFull limit = false ↔ extraction.count < limit := by
  rw [isFull, decide_eq_false_iff_not, Nat.not_le]

theorem take_of_full {limit : Nat} {extraction : Extraction α}
    (full : extraction.isFull limit = true) (weight : α → Nat) (items : List α) :
    extraction.take limit weight items = extraction := by
  unfold take
  rw [takeWithin_of_full (of_decide_eq_true full)]
  dsimp only
  rw [List.append_nil]

theorem take_append (limit : Nat) (weight : α → Nat) (left right : List α)
    (extraction : Extraction α) :
    extraction.take limit weight (left ++ right) =
      (extraction.take limit weight left).take limit weight right := by
  unfold take
  rw [takeWithin_append]
  dsimp only
  rw [List.append_assoc]

theorem take_all {limit : Nat} {weight : α → Nat} (items : List α) (extraction : Extraction α)
    (room : extraction.count + totalWeight weight items < limit) :
    extraction.take limit weight items =
      { extraction with
        items := extraction.items ++ items
        count := extraction.count + totalWeight weight items } := by
  unfold take
  rw [takeWithin_all items extraction.count room]

end Extraction

/-! ### Parts -/

/-- Parts of some work: how a part is named, why it fails if it does, and what it gives if it does
not, collected under a limit. -/
structure Plan (σ α : Type) where
  limit : Nat
  weight : α → Nat
  context : Option Context
  name : σ → String
  fault? : σ → Option String
  gives : σ → List α

def failingAt {σ : Type} [DecidableEq σ] (part : σ) : σ → Option String :=
  fun other => if other = part then some "boom" else none

namespace Plan

def attempt (plan : Plan σ α) (extraction : Extraction α) (part : σ) : Extraction α :=
  if extraction.isFull plan.limit then extraction
  else
    match plan.fault? part with
    | some message => extraction.fail (plan.name part) (.fault message) plan.context
    | none => extraction.take plan.limit plan.weight (plan.gives part)

def run (plan : Plan σ α) (parts : List σ) (extraction : Extraction α) : Extraction α :=
  parts.foldl plan.attempt extraction

def faultless (plan : Plan σ α) : Plan σ α :=
  { plan with fault? := fun _ => none }

def fails (plan : Plan σ α) (part : σ) : Bool :=
  (plan.fault? part).isSome

def message (plan : Plan σ α) (part : σ) : String :=
  let crash := Crash.fault ((plan.fault? part).getD "")
  plan.name part ++ ": " ++ (crash.toError (plan.name part) plan.context).message

def weightOf (plan : Plan σ α) (parts : List σ) : Nat :=
  totalWeight plan.weight (parts.flatMap plan.gives)

theorem weightOf_cons (plan : Plan σ α) (part : σ) (rest : List σ) :
    plan.weightOf (part :: rest) =
      totalWeight plan.weight (plan.gives part) + plan.weightOf rest := by
  unfold weightOf
  rw [List.flatMap_cons, totalWeight_append]

/-- Once the limit is reached nothing changes any more. -/
theorem run_of_full (plan : Plan σ α) {extraction : Extraction α}
    (full : extraction.isFull plan.limit = true) (parts : List σ) :
    plan.run parts extraction = extraction := by
  induction parts with
  | nil => rfl
  | cons part rest ih =>
      rw [run, List.foldl_cons, attempt, if_pos full]
      exact ih

/-- Where nothing fails, a run that does not reach the limit has taken everything. -/
theorem weightOf_lt {plan : Plan σ α} {parts : List σ} {extraction : Extraction α}
    (room : (plan.faultless.run parts extraction).isFull plan.limit = false) :
    extraction.count + plan.weightOf parts < plan.limit := by
  induction parts generalizing extraction with
  | nil => exact (Extraction.isFull_eq_false_iff _ _).mp room
  | cons part rest ih =>
      cases full : extraction.isFull plan.limit with
      | true =>
          rw [run_of_full plan.faultless full] at room
          cases full.symm.trans room
      | false =>
          rw [run, List.foldl_cons, attempt, if_neg (by rw [faultless, full]; decide)] at room
          have taken := ih room
          rw [weightOf_cons]
          change (takeWithin plan.limit plan.weight extraction.count (plan.gives part)).2 +
            plan.weightOf rest < plan.limit at taken
          rcases takeWithin_count plan.limit plan.weight (plan.gives part) extraction.count with
            reached | all
          · omega
          · omega

/-- While there is room for all parts, each gives what it has or fails for itself. -/
theorem run_of_lt {plan : Plan σ α} {parts : List σ} (extraction : Extraction α)
    (room : extraction.count + plan.weightOf parts < plan.limit) :
    (plan.run parts extraction).items =
        extraction.items ++ (parts.filter fun part => !plan.fails part).flatMap plan.gives ∧
      (plan.run parts extraction).problems =
        extraction.problems ++ (parts.filter plan.fails).map plan.message ∧
      (plan.run parts extraction).count ≤ extraction.count + plan.weightOf parts := by
  induction parts generalizing extraction with
  | nil => simp [run, weightOf, totalWeight]
  | cons part rest ih =>
      rw [weightOf_cons] at room ⊢
      have space : ¬ extraction.isFull plan.limit = true := by
        rw [Bool.not_eq_true, Extraction.isFull_eq_false_iff]
        omega
      rw [run, List.foldl_cons, attempt, if_neg space]
      cases fault : plan.fault? part with
      | some message =>
          have failing : plan.fails part = true := by rw [fails, fault]; rfl
          obtain ⟨items, problems, count⟩ :=
            ih (extraction.fail (plan.name part) (.fault message) plan.context)
              (Nat.lt_of_le_of_lt (Nat.add_le_add_left (Nat.le_add_left _ _) _) room)
          refine ⟨?_, ?_, ?_⟩
          · rw [List.filter_cons_of_neg (by rw [failing]; decide)]
            exact items
          · rw [List.filter_cons_of_pos failing, List.map_cons, Plan.message, fault]
            refine problems.trans ?_
            rw [Extraction.fail, List.append_assoc]
            rfl
          · refine Nat.le_trans count ?_
            exact Nat.add_le_add_left (Nat.le_add_left _ _) _
      | none =>
          have sound : plan.fails part = false := by rw [fails, fault]; rfl
          have here : extraction.count + totalWeight plan.weight (plan.gives part) < plan.limit :=
            by omega
          have taken := Extraction.take_all (plan.gives part) extraction here
          obtain ⟨items, problems, count⟩ :=
            ih (extraction.take plan.limit plan.weight (plan.gives part))
              (by rw [taken]; dsimp only; omega)
          refine ⟨?_, ?_, ?_⟩
          · rw [List.filter_cons_of_pos (by rw [sound]; decide), List.flatMap_cons,
              ← List.append_assoc]
            refine items.trans ?_
            rw [taken]
          · rw [List.filter_cons_of_neg (by rw [sound]; decide)]
            refine problems.trans ?_
            rw [taken]
          · refine Nat.le_trans count ?_
            rw [taken]
            dsimp only
            omega

/-- If the work reaches no limit as long as nothing fails, then whatever fails is recorded in
order, and what is collected is what the other parts give. -/
theorem run_spared {plan : Plan σ α} {parts : List σ}
    (room : (plan.faultless.run parts {}).isFull plan.limit = false) :
    (plan.run parts {}).items = (parts.filter fun part => !plan.fails part).flatMap plan.gives ∧
      (plan.run parts {}).problems = (parts.filter plan.fails).map plan.message ∧
      (plan.run parts {}).isFull plan.limit = false := by
  have space := weightOf_lt room
  obtain ⟨items, problems, count⟩ := run_of_lt {} space
  refine ⟨items, problems, ?_⟩
  rw [Extraction.isFull_eq_false_iff]
  exact Nat.lt_of_le_of_lt count space

theorem run_faultless {plan : Plan σ α} {parts : List σ}
    (room : (plan.faultless.run parts {}).isFull plan.limit = false) :
    (plan.faultless.run parts {}).items = parts.flatMap plan.gives ∧
      (plan.faultless.run parts {}).problems = [] := by
  obtain ⟨items, problems, _⟩ := @run_spared _ _ plan.faultless parts room
  have all : (parts.filter fun part => !plan.faultless.fails part) = parts :=
    List.filter_eq_self.mpr fun _ _ => rfl
  have none : parts.filter plan.faultless.fails = [] :=
    List.filter_eq_nil_iff.mpr fun _ _ => Bool.false_ne_true
  rw [all] at items
  rw [none] at problems
  exact ⟨items, problems⟩

end Plan

end SourceOutline
