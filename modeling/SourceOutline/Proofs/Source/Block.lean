import SourceOutline.Proofs.Outline.Line
import SourceOutline.Proofs.Pattern.Extent
import SourceOutline.Proofs.Source.Position

set_option autoImplicit false

/-! Blocks of a text, and spans that lie in one another.

In a block more braces are open than before it, so a block that is opened in another is closed in
it.  Spans of stretches of a text enclose one another as the stretches do. -/

namespace SourceOutline.Source

variable {source : Source}

/-! ### Depth -/

theorem shift_brace : braceShift '{' = 1 := rfl

theorem neg_one_le_shift (c : Char) : -1 ≤ braceShift c := by
  unfold braceShift
  split
  · decide
  · split <;> decide

private theorem eq_of_shift_neg {c : Char} (falls : braceShift c < 0) : c = '}' := by
  unfold braceShift at falls
  split at falls
  · exact absurd falls (by decide)
  · split at falls
    · rename_i brace
      exact beq_iff_eq.mp brace
    · exact absurd falls (by decide)

/-- The depth falls by one at a time, so it is met on the way down. -/
theorem exists_depthAt {start stop : Nat} {depth : Int} (inside : stop ≤ source.size)
    (above : depth < source.depthAt start) (below : source.depthAt stop ≤ depth)
    (forward : start ≤ stop) :
    ∃ place, start ≤ place ∧ place < stop ∧ source.depthAt (place + 1) = depth := by
  obtain ⟨length, same⟩ := Nat.exists_eq_add_of_le forward
  induction length generalizing start with
  | zero =>
      rw [same, Nat.add_zero] at below
      omega
  | succ length ih =>
      obtain ⟨c, read⟩ := exists_read (show start < source.size by omega)
      have next := depthAt_succ read
      have fall := neg_one_le_shift c
      by_cases met : source.depthAt (start + 1) = depth
      · exact ⟨start, Nat.le_refl _, by omega, met⟩
      · obtain ⟨place, behind, before, here⟩ := @ih (start + 1) (by omega) (by omega) (by omega)
        exact ⟨place, by omega, before, here⟩

/-- The first of the next `fuel` offsets behind which exactly `depth` braces are open. -/
def reaches? (source : Source) (depth : Int) : Nat → Nat → Option Nat
  | 0, _ => none
  | fuel + 1, offset =>
      if source.depthAt (offset + 1) = depth then some offset
      else reaches? source depth fuel (offset + 1)

theorem reaches?_eq_some {depth : Int} {fuel offset found : Nat}
    (reached : source.reaches? depth fuel offset = some found) :
    offset ≤ found ∧ found < offset + fuel ∧ source.depthAt (found + 1) = depth ∧
      ∀ place, offset ≤ place → place < found → source.depthAt (place + 1) ≠ depth := by
  induction fuel generalizing offset with
  | zero => cases reached
  | succ fuel ih =>
      rw [reaches?] at reached
      split at reached
      · rename_i here
        cases reached
        exact ⟨Nat.le_refl _, by omega, here, fun _ _ _ => by omega⟩
      · rename_i elsewhere
        obtain ⟨behind, before, here, first⟩ := ih reached
        refine ⟨by omega, by omega, here, fun place after within => ?_⟩
        by_cases start : place = offset
        · rw [start]
          exact elsewhere
        · exact first place (by omega) within

theorem reaches?_isSome {depth : Int} {fuel offset place : Nat} (behind : offset ≤ place)
    (before : place < offset + fuel) (here : source.depthAt (place + 1) = depth) :
    ∃ found, source.reaches? depth fuel offset = some found ∧ found ≤ place := by
  induction fuel generalizing offset with
  | zero => omega
  | succ fuel ih =>
      rw [reaches?]
      split
      · exact ⟨offset, rfl, behind⟩
      · rename_i elsewhere
        have further : offset ≠ place := fun same => elsewhere (same ▸ here)
        exact ih (by omega) (by omega)

/-! ### Blocks -/

/-- A brace opens a block that another one closes: between them more braces are open. -/
structure Block (source : Source) (opening close : Nat) : Prop where
  opens : source.text[opening]? = some '{'
  closes : source.text[close]? = some '}'
  forward : opening < close
  level : source.depthAt (close + 1) = source.depthAt opening
  inside : ∀ place, opening < place → place ≤ close →
    source.depthAt opening < source.depthAt place

/-- A search by offsets ends where the search by braces does. -/
theorem blockEnd?_eq {opening : Nat} (opens : source.text[opening]? = some '{') :
    source.blockEnd? opening =
      source.reaches? (source.depthAt opening) (source.size - (opening + 1)) (opening + 1) := by
  cases reached :
      source.reaches? (source.depthAt opening) (source.size - (opening + 1)) (opening + 1) with
  | none =>
      cases ended : source.blockEnd? opening with
      | none => rfl
      | some close =>
          obtain ⟨behind, inside⟩ := blockEnd?_bounds ended
          obtain ⟨found, other, _⟩ := @reaches?_isSome source _ (source.size - (opening + 1))
            (opening + 1) close behind (by omega) (blockEnd?_first opens ended).1
          cases reached.symm.trans other
  | some found =>
      obtain ⟨behind, _, level, first⟩ := reaches?_eq_some reached
      obtain ⟨close, ended⟩ := Option.isSome_iff_exists.mp (blockEnd?_isSome opens behind level)
      obtain ⟨after, inside⟩ := blockEnd?_bounds ended
      obtain ⟨same, earliest⟩ := blockEnd?_first opens ended
      rw [ended]
      rcases Nat.lt_trichotomy close found with early | equal | late
      · exact absurd same (first close after early)
      · rw [equal]
      · exact absurd level (earliest found behind late)

theorem block_of_blockEnd? {opening close : Nat} (opens : source.text[opening]? = some '{')
    (ended : source.blockEnd? opening = some close) : Block source opening close := by
  rw [blockEnd?_eq opens] at ended
  obtain ⟨behind, before, level, first⟩ := reaches?_eq_some ended
  have start : source.depthAt (opening + 1) = source.depthAt opening + 1 :=
    depthAt_succ opens
  -- the depth falls by one at most, so before the first fall to the old depth it stays above it
  have inside : ∀ place, opening < place → place ≤ close →
      source.depthAt opening < source.depthAt place := by
    intro place after within
    obtain ⟨length, same⟩ := Nat.exists_eq_add_of_lt after
    induction length generalizing place with
    | zero =>
        rw [same, start]
        omega
    | succ length ih =>
        have earlier := ih (opening + length + 1) (by omega) (by omega) rfl
        obtain ⟨c, read⟩ := exists_read (show opening + length + 1 < source.size by omega)
        have next := depthAt_succ read
        have fall := neg_one_le_shift c
        have other := first (opening + length + 1) (by omega) (by omega)
        rw [same, show opening + (length + 1) + 1 = opening + length + 1 + 1 by omega]
        omega
  have last := inside close (by omega) (Nat.le_refl _)
  obtain ⟨c, read⟩ := exists_read (show close < source.size by omega)
  have next := depthAt_succ read
  have brace : c = '}' := eq_of_shift_neg (by omega)
  exact ⟨opens, brace ▸ read, by omega, level, inside⟩

/-- Where a block ends that a brace opens: at the brace that closes it, or with the text. -/
inductive BlockEnds (source : Source) (opening : Nat) : Nat → Prop
  | closed {close : Nat} (block : Block source opening close) : BlockEnds source opening close
  | unclosed (never : ∀ close, ¬ Block source opening close) :
      BlockEnds source opening source.size

theorem blockEnds_blockEnd? {opening : Nat} (opens : source.text[opening]? = some '{') :
    BlockEnds source opening ((source.blockEnd? opening).getD source.size) := by
  cases ended : source.blockEnd? opening with
  | some close => exact .closed (block_of_blockEnd? opens ended)
  | none =>
      refine .unclosed fun close block => ?_
      rw [blockEnd?_eq opens] at ended
      have last := lt_size_of_read block.closes
      have forward := block.forward
      obtain ⟨found, reached, _⟩ := @reaches?_isSome source (source.depthAt opening)
        (source.size - (opening + 1)) (opening + 1) close (by omega) (by omega) block.level
      cases ended.symm.trans reached

theorem blockStop_bounds {opening otherwise : Nat} (behind : opening < otherwise)
    (inside : otherwise ≤ source.size) :
    opening < source.blockStop opening otherwise ∧
      source.blockStop opening otherwise ≤ source.size := by
  unfold blockStop
  cases ended : source.blockEnd? opening with
  | none => exact ⟨behind, inside⟩
  | some close =>
      obtain ⟨after, before⟩ := blockEnd?_bounds ended
      exact ⟨Nat.lt_succ_of_lt after, before⟩

/-- A block that is opened in another is closed in it. -/
theorem Block.blockEnd?_lt {opening close : Nat} (block : Block source opening close) {brace : Nat}
    (opens : source.text[brace]? = some '{') (behind : opening < brace) (before : brace < close) :
    ∃ last, source.blockEnd? brace = some last ∧ last < close := by
  have deeper := block.inside brace behind (Nat.le_of_lt before)
  have within := lt_size_of_read block.closes
  have start : source.depthAt (brace + 1) = source.depthAt brace + 1 := depthAt_succ opens
  have level := block.level
  have above : source.depthAt brace < source.depthAt (brace + 1) := by omega
  have below : source.depthAt (close + 1) ≤ source.depthAt brace := by omega
  obtain ⟨place, after, early, here⟩ := exists_depthAt within above below (by omega)
  have room : place < brace + 1 + (source.size - (brace + 1)) := by omega
  obtain ⟨last, reached, bound⟩ := reaches?_isSome after room here
  refine ⟨last, (blockEnd?_eq opens).trans reached, ?_⟩
  have ended := (reaches?_eq_some reached).2.2.1
  have other : last ≠ close := by
    intro same
    rw [same] at ended
    omega
  omega

/-! ### Spans -/

theorem position_le_iff {offset other : Nat} (inside : offset ≤ source.size)
    (otherInside : other ≤ source.size) :
    (source.lineOf offset < source.lineOf other ∨
        source.lineOf offset = source.lineOf other ∧
          offset - source.lineStart offset ≤ other - source.lineStart other) ↔ offset ≤ other := by
  have start : source.lineStart offset ≤ offset := lineStart_le inside
  have otherStart : source.lineStart other ≤ other := lineStart_le otherInside
  constructor
  · intro before
    apply Nat.le_of_not_lt
    intro behind
    obtain ⟨onward, kept⟩ := mark_mono (Nat.le_of_lt behind) inside
    rcases before with earlier | ⟨same, column⟩
    · omega
    · have := kept same.symm
      omega
  · intro before
    obtain ⟨onward, kept⟩ := mark_mono before otherInside
    rcases Nat.lt_or_eq_of_le onward with earlier | same
    · exact Or.inl earlier
    · have := kept same
      exact Or.inr ⟨same, by omega⟩

/-- Spans enclose one another as the stretches do that they tell of. -/
theorem spanOf_encloses_iff {start stop otherStart otherStop : Nat} (forward : start < stop)
    (inside : stop ≤ source.size) (otherForward : otherStart < otherStop)
    (otherInside : otherStop ≤ source.size) :
    (source.spanOf start stop).encloses (source.spanOf otherStart otherStop) = true ↔
      start ≤ otherStart ∧ otherStop ≤ stop := by
  have starts := @position_le_iff source start otherStart (by omega) (by omega)
  have stops := @position_le_iff source (otherStop - 1) (stop - 1) (by omega) (by omega)
  have last : max start (stop - 1) = stop - 1 := by omega
  have otherLast : max otherStart (otherStop - 1) = otherStop - 1 := by omega
  rw [Span.encloses_iff]
  simp only [spanOf, position, last, otherLast]
  refine and_congr ?_ ?_
  · clear stops
    omega
  · clear starts
    omega

theorem unit_encloses (id : String) (metadata : Fields) (declarations : List Node)
    {start stop : Nat} (forward : start < stop) (inside : stop ≤ source.size) :
    (source.compilationUnit id metadata declarations).span.encloses (source.spanOf start stop) =
      true := by
  have first : 1 ≤ source.lineOf start := by
    have onward := (@mark_mono source 0 start (Nat.zero_le start) (by omega)).1
    rwa [lineOf_zero] at onward
  have last : max start (stop - 1) = stop - 1 := by omega
  obtain ⟨onward, kept⟩ := @mark_mono source (stop - 1) source.size (by omega) (Nat.le_refl _)
  have begun : source.lineStart (stop - 1) ≤ stop - 1 := lineStart_le (by omega)
  rw [Span.encloses_iff]
  simp only [compilationUnit, Node.span, spanOf, position, last]
  omega

theorem skipBlanks_bounds {start visible : Nat} (before : start ≤ visible)
    (shown : Pattern.acceptedAt source.text (fun c => !Text.isBlank c) visible = true)
    (stop : Nat) :
    start ≤ source.skipBlanks start stop ∧ source.skipBlanks start stop ≤ visible := by
  obtain ⟨forward, blank⟩ :=
    @Pattern.takes_spanEnd source.text Text.isBlank (stop - start) start
  refine ⟨forward, Nat.le_of_not_lt fun beyond => ?_⟩
  obtain ⟨c, read, hidden⟩ := Pattern.acceptedAt_iff.mp (blank visible before beyond)
  obtain ⟨other, again, seen⟩ := Pattern.acceptedAt_iff.mp shown
  cases read.symm.trans again
  rw [hidden] at seen
  cases seen

end SourceOutline.Source
