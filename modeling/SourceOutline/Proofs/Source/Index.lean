import SourceOutline.Proofs.Source.Bisection
import SourceOutline.Source.Basic

set_option autoImplicit false

/-! What the tables of lines and braces tell of an offset.

One character on, the line and the depth are the same, or a line feed or a brace has changed them by
one.  What follows about positions and depths is by induction on the offset from these steps alone.
A block ends at the first brace behind which the depth is what it was before the block. -/

namespace SourceOutline

/-! ### Lines -/

namespace LineIndex

private theorem starts_eq (text : Array Char) :
    (ofText text).starts = #[0] ++ (occurrences text (· == '\n')).map (· + 1) := by
  rw [ofText, Array.foldl_push_eq_append rfl]

theorem getElem?_starts_zero (text : Array Char) : (ofText text).starts[0]? = some 0 := by
  rw [starts_eq, Array.getElem?_append_left (by exact Nat.one_pos)]
  rfl

private theorem getElem?_starts (text : Array Char) (index : Nat) :
    (ofText text).starts[index + 1]? = (occurrences text (· == '\n'))[index]?.map (· + 1) := by
  rw [starts_eq, Array.getElem?_append_right (Nat.le_add_left 1 index), Array.getElem?_map]
  rfl

private theorem starts_increasing (text : Array Char) : Increasing (ofText text).starts := by
  intro left right first second ordered hereLeft hereRight
  obtain ⟨before, rfl⟩ := Nat.exists_eq_add_of_lt (Nat.lt_of_le_of_lt (Nat.zero_le left) ordered)
  rw [Nat.zero_add, getElem?_starts, Option.map_eq_some_iff] at hereRight
  obtain ⟨feed, there, rfl⟩ := hereRight
  cases left with
  | zero =>
      cases (getElem?_starts_zero text).symm.trans hereLeft
      exact Nat.succ_pos feed
  | succ left =>
      rw [getElem?_starts, Option.map_eq_some_iff] at hereLeft
      obtain ⟨earlier, here, rfl⟩ := hereLeft
      have := (occurrences_found text (· == '\n')).increasing _ _ _ _ (by omega) here there
      omega

private theorem succ_mem_starts {text : Array Char} {offset : Nat} :
    offset + 1 ∈ (ofText text).starts ↔ text[offset]? = some '\n' := by
  rw [starts_eq, Array.mem_append, Array.mem_map]
  simp [mem_occurrences, Pattern.acceptedAt_iff]

end LineIndex

/-! ### Braces -/

namespace BraceMap

/-- The depth beside each brace is the one before it, shifted by the brace. -/
structure Tells (text : Array Char) (braces : BraceMap) : Prop where
  beside : braces.depths.size = braces.positions.size
  steps : ∀ index offset, braces.positions[index]? = some offset →
    braces.depthBehind (index + 1) =
      braces.depthBehind index + braceShift (text.getD offset ' ')

private theorem depthBehind_size (braces : BraceMap) :
    braces.depthBehind braces.depths.size = braces.depths.back?.getD 0 := by
  rw [Array.back?]
  cases size : braces.depths.size with
  | zero =>
      rw [Array.getElem?_eq_none (by omega)]
      rfl
  | succ last =>
      rw [depthBehind, Array.getD_eq_getD_getElem?]
      rfl

private theorem depthBehind_add {text : Array Char} {braces : BraceMap} {offset index : Nat}
    (inside : index ≤ braces.depths.size) :
    (braces.add text offset).depthBehind index = braces.depthBehind index := by
  cases index with
  | zero => rfl
  | succ index =>
      rw [depthBehind, depthBehind, add, Array.getD_eq_getD_getElem?, Array.getElem?_push,
        if_neg (by omega), ← Array.getD_eq_getD_getElem?]

private theorem Tells.add {text : Array Char} {braces : BraceMap} (tells : braces.Tells text)
    (offset : Nat) : (braces.add text offset).Tells text := by
  have beside := tells.beside
  refine ⟨by simp [BraceMap.add, beside], fun index place here => ?_⟩
  rw [BraceMap.add, Array.getElem?_push] at here
  split at here
  · rename_i last
    cases here
    rw [depthBehind_add (Nat.le_of_eq (last.trans beside.symm)), last, ← beside,
      depthBehind_size, depthBehind, BraceMap.add, Array.getD_eq_getD_getElem?,
      Array.getElem?_push, if_pos rfl]
    rfl
  · have inside := (Array.getElem?_eq_some_iff.mp here).1
    rw [depthBehind_add (by omega), depthBehind_add (by omega)]
    exact tells.steps index place here

private theorem ofText_tells (text : Array Char) :
    (ofText text).positions = occurrences text isBrace ∧ (ofText text).Tells text := by
  have scanned : ∀ (found : List Nat) (braces : BraceMap), braces.Tells text →
      (found.foldl (add text) braces).positions.toList = braces.positions.toList ++ found ∧
        (found.foldl (add text) braces).Tells text := by
    intro found
    induction found with
    | nil => exact fun braces tells => ⟨(List.append_nil _).symm, tells⟩
    | cons offset rest ih =>
        intro braces tells
        obtain ⟨all, told⟩ := ih (braces.add text offset) (tells.add offset)
        refine ⟨?_, told⟩
        rw [List.foldl_cons, all, add, Array.toList_push, List.append_assoc]
        rfl
  obtain ⟨all, told⟩ := scanned (occurrences text isBrace).toList empty
    ⟨rfl, fun index offset here => by cases here⟩
  unfold ofText
  rw [← Array.foldl_toList]
  exact ⟨Array.toList_inj.mp all, told⟩

theorem Tells.depths_iff {text : Array Char} {braces : BraceMap} (tells : braces.Tells text)
    {index offset : Nat} (here : braces.positions[index]? = some offset) {depth : Int} :
    braces.depths[index]? = some depth ↔ braces.depthBehind (index + 1) = depth := by
  have inside : index < braces.depths.size := by
    rw [tells.beside]
    exact (Array.getElem?_eq_some_iff.mp here).1
  rw [depthBehind, Array.getD_eq_getD_getElem?, Array.getElem?_eq_getElem inside]
  exact Option.some_inj

/-- The brace a search ends at is the first behind which the depth is the wanted one. -/
theorem fallFrom?_eq_some {text : Array Char} {braces : BraceMap} (tells : braces.Tells text)
    {outer : Int} {fuel index found : Nat} (inside : index + fuel ≤ braces.positions.size)
    (fell : braces.fallFrom? outer fuel index = some found) :
    ∃ place, index ≤ place ∧ braces.positions[place]? = some found ∧
      braces.depthBehind (place + 1) = outer ∧
      ∀ other, index ≤ other → other < place → braces.depthBehind (other + 1) ≠ outer := by
  induction fuel generalizing index with
  | zero => cases fell
  | succ fuel ih =>
      obtain ⟨offset, here⟩ := exists_entry (show index < braces.positions.size by omega)
      rw [fallFrom?] at fell
      split at fell
      · rename_i level
        exact ⟨index, Nat.le_refl _, fell, (tells.depths_iff here).mp level,
          fun other late early => by omega⟩
      · rename_i elsewhere
        obtain ⟨place, late, there, level, first⟩ := ih (by omega) fell
        refine ⟨place, by omega, there, level, fun other behind before => ?_⟩
        rcases Nat.lt_or_eq_of_le behind with after | same
        · exact first other after before
        · exact same ▸ mt (tells.depths_iff here).mpr elsewhere

private theorem fallFrom?_isSome {text : Array Char} {braces : BraceMap} (tells : braces.Tells text)
    {outer : Int} {fuel index place : Nat} (inside : index + fuel ≤ braces.positions.size)
    (late : index ≤ place) (early : place < index + fuel)
    (level : braces.depthBehind (place + 1) = outer) :
    (braces.fallFrom? outer fuel index).isSome = true := by
  induction fuel generalizing index with
  | zero => omega
  | succ fuel ih =>
      obtain ⟨offset, here⟩ := exists_entry (show index < braces.positions.size by omega)
      rw [fallFrom?]
      split
      · rw [here]
        rfl
      · rename_i elsewhere
        have other : index ≠ place := fun same =>
          elsewhere ((tells.depths_iff here).mpr (same ▸ level))
        exact ih (by omega) (by omega) (by omega)

end BraceMap

namespace Source

variable {source : Source}

/-! ### The line of an offset -/

private theorem starts_increasing (source : Source) : Increasing source.lines.starts := by
  rw [source.lines_eq]
  exact LineIndex.starts_increasing source.text

private theorem lineOf_counts (source : Source) (offset : Nat) :
    CountsBelow source.lines.starts (offset + 1) (source.lineOf offset) :=
  bisectRight_counts source.starts_increasing offset

theorem lineOf_zero (source : Source) : source.lineOf 0 = 1 := by
  have first : 0 ∈ source.lines.starts := by
    rw [source.lines_eq]
    exact Array.mem_of_getElem? (LineIndex.getElem?_starts_zero source.text)
  have start := countsBelow_zero source.lines.starts
  exact (source.lineOf_counts 0).unique (start.succ_of_mem source.starts_increasing first).2

theorem lineStart_zero (source : Source) : source.lineStart 0 = 0 := by
  have first : source.lines.lineOf 0 = 1 := source.lineOf_zero
  rw [lineStart, LineIndex.lineStart, first, source.lines_eq, Array.getD_eq_getD_getElem?,
    LineIndex.getElem?_starts_zero]
  rfl

/-- A line feed is behind the entries that count for it, and the next line starts behind it. -/
private theorem lineOf_feed {offset : Nat} (read : source.text[offset]? = some '\n') :
    source.lineOf (offset + 1) = source.lineOf offset + 1 ∧
      source.lineStart (offset + 1) = offset + 1 := by
  have listed : offset + 1 ∈ source.lines.starts := by
    rw [source.lines_eq]
    exact LineIndex.succ_mem_starts.mpr read
  obtain ⟨here, counts⟩ :=
    (source.lineOf_counts offset).succ_of_mem source.starts_increasing listed
  have next := (source.lineOf_counts (offset + 1)).unique counts
  refine ⟨next, ?_⟩
  change source.lines.starts.getD (source.lineOf (offset + 1) - 1) 0 = offset + 1
  rw [next, Nat.add_sub_cancel, Array.getD_eq_getD_getElem?, here]
  rfl

private theorem lineOf_still {offset : Nat} (read : source.text[offset]? ≠ some '\n') :
    source.lineOf (offset + 1) = source.lineOf offset ∧
      source.lineStart (offset + 1) = source.lineStart offset := by
  have unlisted : offset + 1 ∉ source.lines.starts := by
    rw [source.lines_eq]
    exact mt LineIndex.succ_mem_starts.mp read
  have same := (source.lineOf_counts (offset + 1)).unique
    ((source.lineOf_counts offset).succ_of_not_mem unlisted)
  refine ⟨same, ?_⟩
  change source.lines.starts.getD (source.lineOf (offset + 1) - 1) 0 = _
  rw [same]
  rfl

theorem lineOf_succ {offset : Nat} {c : Char} (read : source.text[offset]? = some c) :
    source.lineOf (offset + 1) =
      if c = '\n' then source.lineOf offset + 1 else source.lineOf offset := by
  by_cases feed : c = '\n'
  · rw [if_pos feed]
    exact (lineOf_feed (feed ▸ read)).1
  · rw [if_neg feed]
    refine (lineOf_still ?_).1
    rw [read]
    exact fun same => feed (Option.some.inj same)

theorem lineStart_succ {offset : Nat} {c : Char} (read : source.text[offset]? = some c) :
    source.lineStart (offset + 1) = if c = '\n' then offset + 1 else source.lineStart offset := by
  by_cases feed : c = '\n'
  · rw [if_pos feed]
    exact (lineOf_feed (feed ▸ read)).2
  · rw [if_neg feed]
    refine (lineOf_still ?_).2
    rw [read]
    exact fun same => feed (Option.some.inj same)

/-! ### The depth of an offset -/

private theorem positions_eq (source : Source) :
    source.braces.positions = occurrences source.text isBrace := by
  rw [source.braces_eq]
  exact (BraceMap.ofText_tells source.text).1

private theorem braces_tell (source : Source) : source.braces.Tells source.text := by
  rw [source.braces_eq]
  exact (BraceMap.ofText_tells source.text).2

private theorem positions_increasing (source : Source) : Increasing source.braces.positions := by
  rw [positions_eq]
  exact (occurrences_found source.text isBrace).increasing

private theorem mem_positions {offset : Nat} :
    offset ∈ source.braces.positions ↔ Pattern.acceptedAt source.text isBrace offset = true := by
  rw [positions_eq]
  exact mem_occurrences

private theorem depthAt_of_counts {offset count : Nat}
    (counts : CountsBelow source.braces.positions offset count) :
    source.depthAt offset = source.braces.depthBehind count := by
  rw [counts.unique (bisectLeft_counts source.positions_increasing offset)]
  rfl

theorem depthAt_zero (source : Source) : source.depthAt 0 = 0 :=
  depthAt_of_counts (countsBelow_zero source.braces.positions)

theorem depthAt_next (source : Source) (offset : Nat) :
    source.depthAt (offset + 1) =
      source.depthAt offset + source.text[offset]?.elim 0 braceShift := by
  have counts := bisectLeft_counts source.positions_increasing offset
  by_cases listed : offset ∈ source.braces.positions
  · obtain ⟨here, onward⟩ := counts.succ_of_mem source.positions_increasing listed
    obtain ⟨c, read, _⟩ := Pattern.acceptedAt_iff.mp (mem_positions.mp listed)
    rw [depthAt_of_counts onward, source.braces_tell.steps _ _ here, depthAt_of_counts counts,
      Array.getD_eq_getD_getElem?, read]
    rfl
  · rw [depthAt_of_counts (counts.succ_of_not_mem listed), depthAt_of_counts counts]
    have still : source.text[offset]?.elim 0 braceShift = 0 := by
      cases read : source.text[offset]? with
      | none => rfl
      | some c =>
          have other : isBrace c = false := by
            refine Bool.eq_false_iff.mpr fun brace => listed (mem_positions.mpr ?_)
            exact Pattern.acceptedAt_iff.mpr ⟨c, read, brace⟩
          rw [isBrace, Bool.or_eq_false_iff] at other
          simp [braceShift, other.1, other.2]
    rw [still, Int.add_zero]

theorem depthAt_succ {offset : Nat} {c : Char} (read : source.text[offset]? = some c) :
    source.depthAt (offset + 1) = source.depthAt offset + braceShift c := by
  rw [depthAt_next, read]
  rfl

/-! ### The end of a block -/

private theorem counts_behind {index offset : Nat}
    (here : source.braces.positions[index]? = some offset) :
    CountsBelow source.braces.positions (offset + 1) (index + 1) := by
  have increasing := source.positions_increasing
  refine ⟨(Array.getElem?_eq_some_iff.mp here).1, fun other entry early read => ?_,
    fun other entry late read => increasing _ _ _ _ late here read⟩
  rcases Nat.lt_or_eq_of_le (Nat.le_of_lt_succ early) with earlier | same
  · exact Nat.lt_succ_of_lt (increasing _ _ _ _ earlier read here)
  · cases here.symm.trans (same ▸ read)
    exact Nat.lt_succ_self _

/-- A brace stands in the table at the place where it is searched for. -/
private theorem position_of_brace {opening : Nat} {c : Char}
    (read : source.text[opening]? = some c) (brace : isBrace c = true) :
    source.braces.positions[bisectLeft source.braces.positions opening]? = some opening := by
  have counts := bisectLeft_counts source.positions_increasing opening
  exact (counts.succ_of_mem source.positions_increasing
    (mem_positions.mpr (Pattern.acceptedAt_iff.mpr ⟨c, read, brace⟩))).1

theorem blockEnd?_bounds {opening close : Nat} (ended : source.blockEnd? opening = some close) :
    opening < close ∧ close < source.size := by
  unfold blockEnd? BraceMap.blockEnd? at ended
  dsimp only at ended
  split at ended
  · rename_i here
    have within := (Array.getElem?_eq_some_iff.mp here).1
    obtain ⟨place, late, there, _, _⟩ :=
      BraceMap.fallFrom?_eq_some source.braces_tell (by omega) ended
    refine ⟨source.positions_increasing _ _ _ _ late here there, ?_⟩
    exact Pattern.acceptedAt_lt (mem_positions.mp (Array.mem_of_getElem? there))
  · cases ended

section Opening

variable {opening : Nat}

private theorem blockEnd?_opening (opens : source.text[opening]? = some '{') :
    source.blockEnd? opening =
      source.braces.fallFrom? (source.depthAt opening)
        (source.braces.positions.size - (bisectLeft source.braces.positions opening + 1))
        (bisectLeft source.braces.positions opening + 1) := by
  have here := position_of_brace opens rfl
  have level : source.braces.depths.getD (bisectLeft source.braces.positions opening) 0 - 1 =
      source.depthAt opening := by
    have behind := depthAt_of_counts (counts_behind here)
    rw [depthAt_succ opens] at behind
    exact (Int.sub_eq_iff_eq_add.mpr behind.symm)
  rw [blockEnd?, BraceMap.blockEnd?, if_pos here, level]

/-- The braces behind an opening one and up to a place, of which there are some if the depth is
again what it was. -/
private theorem exists_brace_of_level (opens : source.text[opening]? = some '{') {place : Nat}
    (behind : opening < place) (level : source.depthAt (place + 1) = source.depthAt opening) :
    ∃ index offset, bisectLeft source.braces.positions opening < index ∧
      source.braces.positions[index]? = some offset ∧ offset ≤ place ∧
      source.braces.depthBehind (index + 1) = source.depthAt opening := by
  have counts := bisectLeft_counts source.positions_increasing (place + 1)
  have here := position_of_brace opens rfl
  have deeper := depthAt_of_counts (counts_behind here)
  rw [depthAt_succ opens, show braceShift '{' = 1 from rfl] at deeper
  rw [depthAt_of_counts counts] at level
  generalize bisectLeft source.braces.positions (place + 1) = count at counts level
  generalize bisectLeft source.braces.positions opening = index at here deeper
  have many : index < count := by
    refine Nat.lt_of_not_le fun few => ?_
    have := counts.behind index opening few here
    omega
  have further : count ≠ index + 1 := fun same => by
    rw [same] at level
    omega
  obtain ⟨last, rfl⟩ := Nat.exists_eq_add_of_lt many
  obtain ⟨offset, there⟩ :=
    exists_entry (show index + last < source.braces.positions.size from counts.inside)
  have early := counts.before _ offset (Nat.lt_succ_self _) there
  exact ⟨index + last, offset, by omega, there, Nat.le_of_lt_succ early, level⟩

theorem blockEnd?_first (opens : source.text[opening]? = some '{') {close : Nat}
    (ended : source.blockEnd? opening = some close) :
    source.depthAt (close + 1) = source.depthAt opening ∧
      ∀ place, opening < place → place < close →
        source.depthAt (place + 1) ≠ source.depthAt opening := by
  have within := (Array.getElem?_eq_some_iff.mp (position_of_brace opens rfl)).1
  rw [blockEnd?_opening opens] at ended
  obtain ⟨last, late, there, level, first⟩ :=
    BraceMap.fallFrom?_eq_some source.braces_tell (by omega) ended
  refine ⟨(depthAt_of_counts (counts_behind there)).trans level, fun place behind before same => ?_⟩
  obtain ⟨index, offset, after, here, early, fell⟩ := exists_brace_of_level opens behind same
  refine first index after (Nat.lt_of_not_le fun beyond => ?_) fell
  rcases Nat.lt_or_eq_of_le beyond with later | equal
  · have := source.positions_increasing _ _ _ _ later there here
    omega
  · cases there.symm.trans (equal ▸ here)
    omega

theorem blockEnd?_isSome (opens : source.text[opening]? = some '{') {place : Nat}
    (behind : opening < place) (level : source.depthAt (place + 1) = source.depthAt opening) :
    (source.blockEnd? opening).isSome = true := by
  have within := (Array.getElem?_eq_some_iff.mp (position_of_brace opens rfl)).1
  obtain ⟨index, offset, after, here, _, fell⟩ := exists_brace_of_level opens behind level
  have inside := (Array.getElem?_eq_some_iff.mp here).1
  rw [blockEnd?_opening opens]
  exact BraceMap.fallFrom?_isSome source.braces_tell (by omega) after (by omega) fell

end Opening

end Source

end SourceOutline
