import SourceOutline.Proofs.Pattern.Spelling

set_option autoImplicit false

/-! The endings that patterns prefer: the longest of an eager run of characters, the shortest of a
lazy one. -/

namespace SourceOutline.Pattern

section

variable {text : Array Char}

theorem endings_literal_seq {chars : List Char} {second : Pattern} {place : Nat}
    (here : hasAt text chars place = true) :
    endings text (.seq (.literal chars) second) place =
      endings text second (place + chars.length) := by
  rw [endings, endings, if_pos here, List.flatMap_singleton]
  simp

theorem endings_literal_seq_none {chars : List Char} {second : Pattern} {place : Nat}
    (absent : hasAt text chars place = false) :
    endings text (.seq (.literal chars) second) place = [] := by
  rw [endings, endings, absent]
  rfl

private theorem spanEnd_eq_of_takes {accepts : Char → Bool} {start stop : Nat}
    (taken : Takes text accepts start stop) (ended : acceptedAt text accepts stop = false) :
    spanEnd text accepts (text.size - start) start = stop := by
  rw [spanEnd_of_takes taken]
  cases text.size - stop with
  | zero => rfl
  | succ fuel => rw [spanEnd_succ, ended, if_neg Bool.false_ne_true]

/-- As many characters as possible. -/
theorem head?_endings_star {accepts : Char → Bool} {start stop : Nat}
    (taken : Takes text accepts start stop) (ended : acceptedAt text accepts stop = false) :
    (endings text (star accepts) start).head? = some (stop, []) := by
  have forward := taken.1
  rw [star, endings, List.head?_map, spanEndings, if_pos rfl, List.head?_reverse,
    spanEnd_eq_of_takes taken ended, List.getLast?_range', if_neg (Nat.succ_ne_zero _),
    Option.map_some, show start + (stop - start + 1) - 1 = stop by omega]

/-- As few characters as possible before a text. -/
theorem head?_endings_starLazy {accepts : Char → Bool} {chars : List Char} {start stop : Nat}
    (taken : Takes text accepts start stop) (here : hasAt text chars stop = true)
    (first : ∀ place, start ≤ place → place < stop → hasAt text chars place = false) :
    (endings text (.seq (starLazy accepts) (.literal chars)) start).head? =
      some (stop + chars.length, []) := by
  obtain ⟨length, rfl⟩ := Nat.exists_eq_add_of_le taken.1
  obtain ⟨more, reach⟩ : ∃ more,
      spanEnd text accepts (text.size - start) start = start + length + more := by
    rw [spanEnd_of_takes taken]
    exact Nat.exists_eq_add_of_le (spanEnd_ge _ _ _ _)
  have ends : endings text (starLazy accepts) start =
      (List.range' start (length + (more + 1))).map fun stop => (stop, []) := by
    rw [starLazy, endings, spanEndings, reach,
      show start + length + more - start + 1 = length + (more + 1) by omega]
    rfl
  rw [endings, ends, ← List.range'_append_1, List.map_append, List.flatMap_append,
    List.range'_succ, List.map_cons, List.flatMap_cons]
  have none : ((List.range' start length).map fun stop => ((stop, []) : Ending)).flatMap
      (fun early => (endings text (.literal chars) early.1).map fun last =>
        (last.1, last.2 ++ early.2)) = [] := by
    rw [List.flatMap_eq_nil_iff]
    intro early member
    obtain ⟨place, listed, rfl⟩ := List.mem_map.mp member
    obtain ⟨behind, before⟩ := List.mem_range'_1.mp listed
    rw [endings, first place behind before]
    rfl
  rw [none, List.nil_append, endings, if_pos here]
  rfl

/-- At least one character, and as many as possible. -/
theorem matchAt?_plus {accepts : Char → Bool} {start stop : Nat} (forward : start < stop)
    (taken : Takes text accepts start stop) (ended : acceptedAt text accepts stop = false) :
    (plus accepts).matchAt? text start = some ⟨start, stop, []⟩ := by
  have here := taken.2 start (Nat.le_refl _) forward
  have others : Takes text accepts (start + 1) stop :=
    ⟨forward, fun place behind before => taken.2 place (by omega) before⟩
  have ends : endings text (plus accepts) start =
      (endings text (star accepts) (start + 1)).map fun last => (last.1, last.2 ++ []) := by
    rw [plus, endings, endings, if_pos here, List.flatMap_singleton]
    rfl
  rw [matchAt?_eq, ends, List.head?_map, head?_endings_star others ended]
  rfl

end

theorem takes_of_list {accepts : Char → Bool} {run : List Char}
    (accepted : ∀ c ∈ run, accepts c = true) (front rest : List Char) :
    Takes (front ++ (run ++ rest)).toArray accepts front.length (front.length + run.length) := by
  refine ⟨Nat.le_add_right _ _, fun place behind before => ?_⟩
  obtain ⟨offset, rfl⟩ := Nat.exists_eq_add_of_le behind
  have inside : offset < run.length := by omega
  refine acceptedAt_iff.mpr ⟨run.get ⟨offset, inside⟩, ?_, accepted _ (List.get_mem _ _)⟩
  rw [List.getElem?_toArray, List.getElem?_append_right (Nat.le_add_right _ _),
    Nat.add_sub_cancel_left, List.getElem?_append_left inside]
  exact List.getElem?_eq_getElem inside

theorem getElem?_behind_list (front rest : List Char) (offset : Nat) :
    (front ++ rest).toArray[front.length + offset]? = rest[offset]? := by
  rw [List.getElem?_toArray, List.getElem?_append_right (Nat.le_add_right _ _),
    Nat.add_sub_cancel_left]

end SourceOutline.Pattern
