import SourceOutline.Proofs.Source.Location
import SourceOutline.Proofs.Source.Matching

set_option autoImplicit false

/-! Lines and columns as a coordinate of a text.

One character on, the offset is on the same line, or at the start of the next one if the character
is a line feed.  So the line of an offset starts at the place behind the last line feed before it,
positions come in the order of the offsets, and no line is left out. -/

namespace SourceOutline.Source

variable {source : Source}

/-- The line of an offset starts at a place: with the text or behind a line feed, and with no line
feed from there up to the offset. -/
structure LineStartsAt (source : Source) (offset start : Nat) : Prop where
  before : start ≤ offset
  begins : start = 0 ∨ 0 < start ∧ source.content.toList[start - 1]? = some '\n'
  whole : ∀ place, start ≤ place → place < offset → source.content.toList[place]? ≠ some '\n'

/-! ### One character on -/

private theorem LineStartsAt.succ {offset start : Nat} (starts : source.LineStartsAt offset start)
    {c : Char} (read : source.text[offset]? = some c) :
    source.LineStartsAt (offset + 1) (if c = '\n' then offset + 1 else start) := by
  have listed : source.content.toList[offset]? = some c := by
    rw [← getElem?_text, read]
  by_cases feed : c = '\n'
  · rw [if_pos feed]
    refine ⟨Nat.le_refl _, Or.inr ⟨Nat.succ_pos _, ?_⟩, fun place behind within => by omega⟩
    rw [Nat.add_sub_cancel, listed, feed]
  · rw [if_neg feed]
    refine ⟨Nat.le_succ_of_le starts.before, starts.begins, fun place behind within => ?_⟩
    rcases Nat.lt_or_eq_of_le (Nat.le_of_lt_succ within) with earlier | here
    · exact starts.whole place behind earlier
    · rw [here, listed]
      exact fun same => feed (Option.some.inj same)

/-! ### Any number of characters on -/

private theorem lineStartsAt_lineStart {offset : Nat} (inside : offset ≤ source.size) :
    source.LineStartsAt offset (source.lineStart offset) := by
  induction offset with
  | zero =>
      rw [lineStart_zero]
      exact ⟨Nat.le_refl 0, Or.inl rfl, fun place _ impossible => by omega⟩
  | succ offset ih =>
      obtain ⟨c, read⟩ := exists_read inside
      rw [lineStart_succ read]
      exact (ih (Nat.le_of_lt inside)).succ read

/-- On the way to an offset every line before its own is met. -/
theorem exists_lineOf {offset : Nat} (inside : offset ≤ source.size) {line : Nat} (first : 1 ≤ line)
    (before : line ≤ source.lineOf offset) : ∃ place ≤ offset, source.lineOf place = line := by
  induction offset with
  | zero =>
      have start := source.lineOf_zero
      exact ⟨0, Nat.le_refl 0, by omega⟩
  | succ offset ih =>
      obtain ⟨c, read⟩ := exists_read inside
      have next : source.lineOf (offset + 1) ≤ source.lineOf offset + 1 := by
        rw [lineOf_succ read]
        split <;> omega
      by_cases last : line = source.lineOf (offset + 1)
      · exact ⟨offset + 1, Nat.le_refl _, last.symm⟩
      · obtain ⟨place, early, here⟩ := ih (Nat.le_of_lt inside) (by omega)
        exact ⟨place, Nat.le_succ_of_le early, here⟩

/-! ### The order of positions -/

theorem position_lt_iff {offset other : Nat} (inside : offset ≤ source.size)
    (otherInside : other ≤ source.size) :
    Prod.Lex (· < ·) (· < ·) (source.position offset) (source.position other) ↔ offset < other := by
  have ordered := position_le_iff otherInside inside
  rw [Prod.lex_def]
  simp only [position]
  omega

private theorem lineOf_range (source : Source) (line : Nat) :
    (∃ offset ≤ source.size, source.lineOf offset = line) ↔
      1 ≤ line ∧ line ≤ source.content.toList.count '\n' + 1 := by
  constructor
  · rintro ⟨offset, inside, rfl⟩
    exact ⟨one_le_lineOf inside, lineOf_le inside⟩
  · rintro ⟨first, last⟩
    apply exists_lineOf (Nat.le_refl _) first
    have whole : source.text.toList.take source.size = source.text.toList := List.take_length
    rw [lineOf_eq (Nat.le_refl _), whole, text_toList]
    omega

/-- Line and column of an offset tell how many line feeds are before it and how far it is behind the
last of them; they grow with the offset, a later line counting more than any column, so that no two
offsets share them; and the lines are those from the first to the one behind the last line feed. -/
theorem position_coordinates (source : Source) :
    (∀ offset ≤ source.size, ∃ start, source.LineStartsAt offset start ∧
      source.position offset =
        (1 + (source.content.toList.take offset).count '\n', offset - start + 1)) ∧
    (∀ offset ≤ source.size, ∀ other ≤ source.size,
      (offset < other ↔
        Prod.Lex (· < ·) (· < ·) (source.position offset) (source.position other)) ∧
      (source.position offset = source.position other → offset = other)) ∧
    ∀ line, (∃ offset ≤ source.size, (source.position offset).1 = line) ↔
      1 ≤ line ∧ line ≤ source.content.toList.count '\n' + 1 := by
  refine ⟨fun offset inside => ?_, fun offset inside other otherInside => ?_, lineOf_range source⟩
  · refine ⟨source.lineStart offset, lineStartsAt_lineStart inside, ?_⟩
    rw [← text_toList, ← lineOf_eq inside]
    rfl
  · exact ⟨(position_lt_iff inside otherInside).symm, position_inj source inside otherInside⟩

example :
    (List.range 5).map (Source.ofContent "a\n\nb").position =
      [(1, 1), (1, 2), (2, 1), (3, 1), (3, 2)] :=
  rfl

end SourceOutline.Source
