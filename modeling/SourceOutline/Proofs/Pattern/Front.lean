import SourceOutline.Proofs.Pattern.Part

set_option autoImplicit false

/-! Searches in texts that begin alike.

A match that goes up to the first of a character and ends with it does not depend on what follows
that character.  So such matches are found alike in two texts as long as these are the same. -/

namespace SourceOutline.Pattern

section

variable {text : Array Char} {c : Char}

theorem firstOf_le {place opening : Nat} (read : text[opening]? = some c)
    (behind : place ≤ opening) : firstOf text [c] place ≤ opening := by
  refine Nat.le_of_not_lt fun beyond => ?_
  have accepted := (takes_spanEnd _ _ place).2 opening behind beyond
  obtain ⟨other, here, spared⟩ := acceptedAt_iff.mp accepted
  cases read.symm.trans here
  simp at spared

/-- A place is the first of a character in every text that has it there and none before. -/
theorem firstOf_eq_of_takes {place opening : Nat} (read : text[opening]? = some c)
    (taken : Takes text (fun d => !([c].contains d)) place opening) :
    firstOf text [c] place = opening := by
  unfold firstOf
  rw [spanEnd_of_takes taken]
  exact firstOf_here read List.mem_cons_self

variable {pattern : Pattern}

/-- A match that starts before a character and ends with the first of its kind is found in a text
that is cut behind that one. -/
theorem matchAt?_front {cut : Nat} (inside : cut ≤ text.size) (ahead : pattern.forward = true)
    (bound : boundBy [(c, 1)] [] pattern = true) (closing : pattern.closesWith c = true)
    {place opening : Nat} (read : text[opening]? = some c) (behind : place ≤ opening)
    (within : opening < cut) :
    pattern.matchAt? text place = pattern.matchAt? (text.extract 0 cut) place := by
  cases short : pattern.matchAt? (text.extract 0 cut) place with
  | some found => exact matchAt?_of_extract inside ahead bound (by omega) short
  | none =>
      cases matched : pattern.matchAt? text place with
      | none => rfl
      | some found =>
          obtain ⟨first, _, _⟩ := (matchAt?_ends matched).2.firstOf_eq bound closing
          have early := firstOf_le read behind
          have same := matchAt?_extract inside ahead (show place ≤ cut by omega) matched (by omega)
          cases short.symm.trans same

/-- What is found up to a match is found in every text that is the same up to the end of it. -/
theorem findAllFrom_front {other : Array Char} {cut : Nat} (inside : cut ≤ text.size)
    (otherInside : cut ≤ other.size) (same : text.extract 0 cut = other.extract 0 cut)
    (ahead : pattern.forward = true) (bound : boundBy [(c, 1)] [] pattern = true)
    (closing : pattern.closesWith c = true) {place : Nat} {early late : List Match} {found : Match}
    (listed : pattern.findAllFrom text place = early ++ found :: late)
    (within : found.stop ≤ cut) :
    ∃ later, pattern.findAllFrom other place = early ++ found :: later := by
  have member : ∀ {place : Nat} {early : List Match},
      pattern.findAllFrom text place = early ++ found :: late →
        found ∈ pattern.findAllFrom text place := by
    intro place early listed
    rw [listed]
    exact List.mem_append_right _ List.mem_cons_self
  have matched := (mem_findAllFrom (member listed)).2
  obtain ⟨_, read, forward⟩ := (matchAt?_ends matched).2.firstOf_eq bound closing
  have readToo : other[found.stop - 1]? = some c := by
    have cutRead := getElem?_extract inside (found.stop - 1)
    rw [same, getElem?_extract otherInside, if_pos (by omega), if_pos (by omega)] at cutRead
    rw [cutRead, read]
  have alike : ∀ place ≤ found.start,
      pattern.matchAt? text place = pattern.matchAt? other place := by
    intro place before
    rw [matchAt?_front inside ahead bound closing read (by omega) (by omega), same,
      matchAt?_front otherInside ahead bound closing readToo (by omega) (by omega)]
  -- by induction on how far the search is from the match
  obtain ⟨left, distance⟩ : ∃ left, found.start + 1 - place = left := ⟨_, rfl⟩
  induction left using Nat.strongRecOn generalizing place early with
  | ind left ih =>
      have behind := (mem_findAllFrom (member listed)).1
      have here := alike place behind
      cases next : pattern.matchAt? text place with
      | none =>
          rw [next] at here
          rw [findAllFrom_none next] at listed
          rw [findAllFrom_none here.symm]
          exact ih _ (by omega) listed rfl
      | some first =>
          rw [next] at here
          have further := lt_resume next
          rw [findAllFrom_some (by omega) next] at listed
          rw [findAllFrom_some (by omega) here.symm]
          cases early with
          | nil =>
              obtain ⟨rfl, _⟩ := List.cons.inj listed
              exact ⟨_, rfl⟩
          | cons one more =>
              obtain ⟨rfl, rest⟩ := List.cons.inj listed
              obtain ⟨later, found⟩ := ih _ (by omega) rest rfl
              exact ⟨later, congrArg (first :: ·) found⟩

end

end SourceOutline.Pattern
