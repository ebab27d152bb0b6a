import SourceOutline.Proofs.Source.Index
import SourceOutline.Source.Declaration

set_option autoImplicit false

/-! Lines and columns tell offsets apart, and so spans tell where a stretch of text starts and
ends. -/

namespace SourceOutline

namespace Source

variable {source : Source}

theorem exists_read {offset : Nat} (inside : offset < source.size) :
    ∃ c, source.text[offset]? = some c :=
  ⟨_, Array.getElem?_eq_some_iff.mpr ⟨inside, rfl⟩⟩

theorem lt_size_of_read {offset : Nat} {c : Char} (read : source.text[offset]? = some c) :
    offset < source.size :=
  (Array.getElem?_eq_some_iff.mp read).1

theorem lineStart_le {offset : Nat} (inside : offset ≤ source.size) :
    source.lineStart offset ≤ offset := by
  induction offset with
  | zero => exact Nat.le_of_eq source.lineStart_zero
  | succ offset ih =>
      obtain ⟨c, read⟩ := exists_read inside
      rw [lineStart_succ read]
      split
      · exact Nat.le_refl _
      · exact Nat.le_succ_of_le (ih (Nat.le_of_lt inside))

/-- Lines only go on, and as long as the line is the same it starts at the same place. -/
theorem mark_mono {offset later : Nat} (before : offset ≤ later) (inside : later ≤ source.size) :
    source.lineOf offset ≤ source.lineOf later ∧
      (source.lineOf offset = source.lineOf later →
        source.lineStart offset = source.lineStart later) := by
  obtain ⟨length, same⟩ := Nat.exists_eq_add_of_le before
  induction length generalizing later with
  | zero =>
      rw [same]
      exact ⟨Nat.le_refl _, fun _ => rfl⟩
  | succ length ih =>
      obtain ⟨onward, kept⟩ := @ih (offset + length) (by omega) (by omega) rfl
      obtain ⟨c, read⟩ := exists_read (show offset + length < source.size by omega)
      rw [same, ← Nat.add_assoc, lineOf_succ read, lineStart_succ read]
      split
      · exact ⟨Nat.le_succ_of_le onward, fun equal => by omega⟩
      · exact ⟨onward, kept⟩

/-- Different offsets have different positions. -/
theorem position_inj (source : Source) {offset other : Nat} (inside : offset ≤ source.size)
    (otherInside : other ≤ source.size) (same : source.position offset = source.position other) :
    offset = other := by
  have start := lineStart_le inside
  have otherStart := lineStart_le otherInside
  unfold position at same
  obtain ⟨line, column⟩ := Prod.mk.inj same
  have marks : source.lineStart offset = source.lineStart other := by
    rcases Nat.le_total offset other with before | behind
    · exact (mark_mono before otherInside).2 line
    · exact ((mark_mono behind inside).2 line.symm).symm
  omega

theorem spanOf_start_inj {start stop otherStart otherStop : Nat} (inside : start ≤ source.size)
    (otherInside : otherStart ≤ source.size)
    (same : source.spanOf start stop = source.spanOf otherStart otherStop) :
    start = otherStart := by
  unfold spanOf at same
  simp only [Span.mk.injEq] at same
  refine position_inj source inside otherInside (Prod.ext ?_ ?_) <;> omega

theorem spanOf_stop_inj {start stop otherStop : Nat} (before : start < stop)
    (otherBefore : start < otherStop) (inside : stop ≤ source.size)
    (otherInside : otherStop ≤ source.size)
    (same : source.spanOf start stop = source.spanOf start otherStop) : stop = otherStop := by
  unfold spanOf at same
  simp only [Span.mk.injEq] at same
  have stops : max start (stop - 1) = max start (otherStop - 1) := by
    refine position_inj source (by omega) (by omega) (Prod.ext ?_ ?_) <;> omega
  omega

end Source

end SourceOutline
