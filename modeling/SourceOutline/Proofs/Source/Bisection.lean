import SourceOutline.Proofs.Pattern.Extent
import SourceOutline.Source.Index

set_option autoImplicit false

/-! What bisection finds in a sorted table.

A bisection ends at the one place that has all entries below the bound before it.  With the bound
one further on, this place is the same, or the next one if the old bound is an entry.  The tables
that are searched here hold the offsets of the characters of a kind, each found behind the one
before it, and so are sorted. -/

namespace SourceOutline

/-! ### Bisection -/

def Increasing (table : Array Nat) : Prop :=
  ∀ (left right first second : Nat), left < right → table[left]? = some first →
    table[right]? = some second → first < second

/-- There are so many entries below a bound, and they stand before the others. -/
structure CountsBelow (table : Array Nat) (bound count : Nat) : Prop where
  inside : count ≤ table.size
  before : ∀ index entry, index < count → table[index]? = some entry → entry < bound
  behind : ∀ index entry, count ≤ index → table[index]? = some entry → bound ≤ entry

theorem exists_entry {table : Array Nat} {index : Nat} (inside : index < table.size) :
    ∃ entry, table[index]? = some entry :=
  ⟨_, Array.getElem?_eq_some_iff.mpr ⟨inside, rfl⟩⟩

theorem countsBelow_zero (table : Array Nat) : CountsBelow table 0 0 :=
  ⟨Nat.zero_le _, fun _ _ early => absurd early (Nat.not_lt_zero _), fun _ _ _ _ => Nat.zero_le _⟩

theorem CountsBelow.unique {table : Array Nat} {bound count other : Nat}
    (counts : CountsBelow table bound count) (others : CountsBelow table bound other) :
    count = other := by
  have apart : ∀ {few many}, CountsBelow table bound few → CountsBelow table bound many →
      many ≤ few := by
    intro few many countsFew countsMany
    refine Nat.le_of_not_lt fun fewer => ?_
    obtain ⟨entry, here⟩ := exists_entry (Nat.lt_of_lt_of_le fewer countsMany.inside)
    have small := countsMany.before few entry fewer here
    have large := countsFew.behind few entry (Nat.le_refl _) here
    omega
  exact Nat.le_antisymm (apart others counts) (apart counts others)

/-- The invariant of the search: what stands before `low` is below the bound, and what stands from
`high` on is not. -/
theorem bisectFrom_counts {table : Array Nat} (increasing : Increasing table) {bound : Nat}
    {passes : Nat → Bool} (below : ∀ entry, passes entry = true ↔ entry < bound)
    {fuel low high : Nat} (enough : high - low ≤ fuel) (ordered : low ≤ high)
    (inside : high ≤ table.size)
    (before : ∀ index entry, index < low → table[index]? = some entry → entry < bound)
    (behind : ∀ index entry, high ≤ index → table[index]? = some entry → bound ≤ entry) :
    CountsBelow table bound (bisectFrom passes table fuel low high) := by
  induction fuel generalizing low high with
  | zero =>
      rw [bisectFrom]
      exact ⟨Nat.le_trans ordered inside, before, fun index entry after => by
        exact behind index entry (by omega)⟩
  | succ fuel ih =>
      rw [bisectFrom]
      by_cases left : low < high
      · rw [if_pos left]
        obtain ⟨entry, middle⟩ := exists_entry (show (low + high) / 2 < table.size by omega)
        have read : table.getD ((low + high) / 2) 0 = entry := by
          rw [Array.getD_eq_getD_getElem?, middle]
          rfl
        dsimp only
        rw [read]
        by_cases small : entry < bound
        · rw [if_pos ((below entry).mpr small)]
          refine ih (by omega) (by omega) inside (fun index other early here => ?_) behind
          rcases Nat.lt_or_eq_of_le (Nat.le_of_lt_succ early) with earlier | same
          · exact Nat.lt_trans (increasing _ _ _ _ earlier here middle) small
          · rw [same, middle] at here
            exact Option.some.inj here ▸ small
        · rw [if_neg (mt (below entry).mp small)]
          refine ih (by omega) (by omega) (by omega) before fun index other late here => ?_
          rcases Nat.lt_or_eq_of_le late with later | same
          · have larger := increasing _ _ _ _ later middle here
            omega
          · rw [← same, middle] at here
            exact Option.some.inj here ▸ Nat.le_of_not_lt small
      · rw [if_neg left]
        exact ⟨Nat.le_trans ordered inside, before, fun index entry after => by
          exact behind index entry (by omega)⟩

private theorem bisect_counts {table : Array Nat} (increasing : Increasing table) {bound : Nat}
    {passes : Nat → Bool} (below : ∀ entry, passes entry = true ↔ entry < bound) :
    CountsBelow table bound (bisectFrom passes table table.size 0 table.size) := by
  refine bisectFrom_counts increasing below (Nat.le_refl _) (Nat.zero_le _) (Nat.le_refl _)
    (fun index entry early => absurd early (Nat.not_lt_zero _)) fun index entry late here => ?_
  have := (Array.getElem?_eq_some_iff.mp here).1
  omega

theorem bisectLeft_counts {table : Array Nat} (increasing : Increasing table) (bound : Nat) :
    CountsBelow table bound (bisectLeft table bound) :=
  bisect_counts increasing fun _ => decide_eq_true_iff

theorem bisectRight_counts {table : Array Nat} (increasing : Increasing table) (bound : Nat) :
    CountsBelow table (bound + 1) (bisectRight table bound) :=
  bisect_counts increasing fun _ => decide_eq_true_iff.trans Nat.lt_succ_iff.symm

theorem CountsBelow.succ_of_mem {table : Array Nat} (increasing : Increasing table)
    {bound count : Nat} (counts : CountsBelow table bound count) (listed : bound ∈ table) :
    table[count]? = some bound ∧ CountsBelow table (bound + 1) (count + 1) := by
  obtain ⟨place, here⟩ := Array.mem_iff_getElem?.mp listed
  have within := (Array.getElem?_eq_some_iff.mp here).1
  have late : count ≤ place := by
    refine Nat.le_of_not_lt fun early => ?_
    have := counts.before place bound early here
    omega
  have same : place = count := by
    refine Nat.le_antisymm (Nat.le_of_not_lt fun later => ?_) late
    obtain ⟨entry, first⟩ := exists_entry (Nat.lt_trans later within)
    have small := increasing _ _ _ _ later first here
    have large := counts.behind count entry (Nat.le_refl _) first
    omega
  subst same
  refine ⟨here, within, fun index entry early read => ?_, fun index entry after read => ?_⟩
  · rcases Nat.lt_or_eq_of_le (Nat.le_of_lt_succ early) with earlier | equal
    · exact Nat.lt_succ_of_lt (counts.before index entry earlier read)
    · rw [equal, here] at read
      exact Option.some.inj read ▸ Nat.lt_succ_self _
  · exact increasing _ _ _ _ after here read

theorem CountsBelow.succ_of_not_mem {table : Array Nat} {bound count : Nat}
    (counts : CountsBelow table bound count) (unlisted : bound ∉ table) :
    CountsBelow table (bound + 1) count := by
  refine ⟨counts.inside, fun index entry early read => ?_, fun index entry late read => ?_⟩
  · exact Nat.lt_succ_of_lt (counts.before index entry early read)
  · refine Nat.lt_of_le_of_ne (counts.behind index entry late read) fun same => unlisted ?_
    exact Array.mem_of_getElem? (same ▸ read)

/-! ### Occurrences -/

section Occurrences

variable {text : Array Char} {accepts : Char → Bool}

private theorem spanEnd_unaccepted {accepts : Char → Bool} {fuel place : Nat}
    (enough : text.size - place ≤ fuel) :
    Pattern.acceptedAt text accepts (Pattern.spanEnd text accepts fuel place) = false := by
  induction fuel generalizing place with
  | zero =>
      rw [Pattern.spanEnd, Pattern.acceptedAt, Array.getElem?_eq_none (by omega)]
      rfl
  | succ fuel ih =>
      rw [Pattern.spanEnd_succ]
      cases here : Pattern.acceptedAt text accepts place with
      | true =>
          rw [if_pos rfl]
          exact ih (by omega)
      | false =>
          rw [if_neg Bool.false_ne_true]
          exact here

private theorem nextOccurrence?_eq_some {offset next : Nat}
    (found : nextOccurrence? text accepts offset = some next) :
    offset ≤ next ∧ Pattern.acceptedAt text accepts next = true ∧
      ∀ place, offset ≤ place → place < next → Pattern.acceptedAt text accepts place = false := by
  have ended := @spanEnd_unaccepted text (fun c => !accepts c) (text.size - offset) offset
    (Nat.le_refl _)
  obtain ⟨behind, passed⟩ :=
    @Pattern.takes_spanEnd text (fun c => !accepts c) (text.size - offset) offset
  unfold nextOccurrence? at found
  dsimp only at found
  split at found
  · rename_i inside
    cases found
    refine ⟨behind, ?_, fun place after before => ?_⟩
    · rw [Pattern.acceptedAt, Array.getElem?_eq_getElem inside] at ended ⊢
      simpa using ended
    · obtain ⟨c, read, refused⟩ := Pattern.acceptedAt_iff.mp (passed place after before)
      rw [Pattern.acceptedAt, read]
      simpa using refused
  · cases found

private theorem nextOccurrence?_eq_none {offset : Nat}
    (missing : nextOccurrence? text accepts offset = none) {place : Nat} (behind : offset ≤ place) :
    Pattern.acceptedAt text accepts place = false := by
  obtain ⟨_, passed⟩ :=
    @Pattern.takes_spanEnd text (fun c => !accepts c) (text.size - offset) offset
  unfold nextOccurrence? at missing
  dsimp only at missing
  split at missing
  · cases missing
  · rename_i outside
    cases here : Pattern.acceptedAt text accepts place with
    | false => rfl
    | true =>
        have inside := Pattern.acceptedAt_lt here
        obtain ⟨c, read, accepted⟩ := Pattern.acceptedAt_iff.mp here
        obtain ⟨d, same, refused⟩ := Pattern.acceptedAt_iff.mp (passed place behind (by omega))
        cases read.symm.trans same
        rw [accepted] at refused
        cases refused

structure FoundBefore (text : Array Char) (accepts : Char → Bool) (offset : Nat)
    (found : Array Nat) : Prop where
  increasing : Increasing found
  mem_iff : ∀ place, place ∈ found ↔
    place < offset ∧ Pattern.acceptedAt text accepts place = true

private theorem FoundBefore.push {offset next : Nat} {found : Array Nat}
    (before : FoundBefore text accepts offset found)
    (hit : nextOccurrence? text accepts offset = some next) :
    FoundBefore text accepts (next + 1) (found.push next) := by
  obtain ⟨behind, accepted, passed⟩ := nextOccurrence?_eq_some hit
  constructor
  case increasing =>
    intro left right first second ordered hereLeft hereRight
    rw [Array.getElem?_push] at hereLeft hereRight
    split at hereLeft
    · rw [if_neg (by omega), Array.getElem?_eq_none (by omega)] at hereRight
      cases hereRight
    · have early := ((before.mem_iff first).mp (Array.mem_of_getElem? hereLeft)).1
      split at hereRight
      · cases hereRight
        omega
      · exact before.increasing _ _ _ _ ordered hereLeft hereRight
  case mem_iff =>
    intro place
    rw [Array.mem_push, before.mem_iff]
    constructor
    · rintro (⟨early, here⟩ | rfl)
      · exact ⟨by omega, here⟩
      · exact ⟨Nat.lt_succ_self _, accepted⟩
    · rintro ⟨early, here⟩
      rcases Nat.lt_or_eq_of_le (Nat.le_of_lt_succ early) with earlier | same
      · refine Or.inl ⟨Nat.lt_of_not_le fun late => ?_, here⟩
        cases (passed place late earlier).symm.trans here
      · exact Or.inr same

private theorem FoundBefore.finish {offset : Nat} {found : Array Nat}
    (before : FoundBefore text accepts offset found)
    (later : ∀ place, offset ≤ place → Pattern.acceptedAt text accepts place = false) :
    FoundBefore text accepts text.size found := by
  refine ⟨before.increasing, fun place => (before.mem_iff place).trans ?_⟩
  constructor
  · exact fun ⟨_, here⟩ => ⟨Pattern.acceptedAt_lt here, here⟩
  · refine fun ⟨_, here⟩ => ⟨Nat.lt_of_not_le fun late => ?_, here⟩
    cases (later place late).symm.trans here

private theorem occurrencesFrom_found {fuel offset : Nat} {found : Array Nat}
    (enough : text.size - offset ≤ fuel) (before : FoundBefore text accepts offset found) :
    FoundBefore text accepts text.size (occurrencesFrom text accepts fuel offset found) := by
  induction fuel generalizing offset found with
  | zero =>
      refine before.finish fun place late => ?_
      rw [Pattern.acceptedAt, Array.getElem?_eq_none (by omega)]
      rfl
  | succ fuel ih =>
      rw [occurrencesFrom]
      cases hit : nextOccurrence? text accepts offset with
      | none => exact before.finish fun place late => nextOccurrence?_eq_none hit late
      | some next =>
          have behind := (nextOccurrence?_eq_some hit).1
          exact ih (by omega) (before.push hit)

theorem occurrences_found (text : Array Char) (accepts : Char → Bool) :
    FoundBefore text accepts text.size (occurrences text accepts) := by
  refine occurrencesFrom_found (Nat.le_refl _) ⟨fun left right first second _ here => ?_,
    fun place => ?_⟩
  · cases here
  · exact iff_of_false (Array.not_mem_empty place) fun ⟨impossible, _⟩ => by omega

theorem mem_occurrences {place : Nat} :
    place ∈ occurrences text accepts ↔ Pattern.acceptedAt text accepts place = true := by
  rw [(occurrences_found text accepts).mem_iff]
  exact ⟨And.right, fun here => ⟨Pattern.acceptedAt_lt here, here⟩⟩

end Occurrences

end SourceOutline
