import SourceOutline.Proofs.Pattern.Spelling

set_option autoImplicit false

/-! What a pattern takes, told by the text alone.

A pattern takes a stretch of a text just if the stretch is made as the pattern says, and what stands
before and behind it is as the pattern asks.  This says nothing of places, endings and the order in
which they are tried. -/

namespace SourceOutline.Pattern

/-- Pieces one behind the other, none of them empty, that each stand as asked between the text
before and the text behind. -/
def StandInRow (stands : List Char → List Char → List Char → Prop) (before : List Char) :
    List (List Char) → List Char → Prop
  | [], _ => True
  | piece :: rest, after =>
      piece ≠ [] ∧ stands before piece (rest.flatten ++ after) ∧
        StandInRow stands (before ++ piece) rest after

/-- A pattern takes a text that stands between two others. -/
def Stands : Pattern → List Char → List Char → List Char → Prop
  | .nothing, _, taken, _ => taken = []
  | .literal chars, _, taken, _ => taken = chars
  | .one accepts, _, taken, _ => ∃ c, accepts c = true ∧ taken = [c]
  | .span _ accepts, _, taken, _ => ∀ c ∈ taken, accepts c = true
  | .seq first second, before, taken, after =>
      ∃ early late, taken = early ++ late ∧ Stands first before early (late ++ after) ∧
        Stands second (before ++ early) late after
  | .either first second, before, taken, after =>
      Stands first before taken after ∨ Stands second before taken after
  | .many _ body, before, taken, after =>
      ∃ pieces : List (List Char), taken = pieces.flatten ∧
        StandInRow (Stands body) before pieces after
  | .part _ body, before, taken, after => Stands body before taken after
  | .ahead wanted body, before, taken, after =>
      taken = [] ∧
        ((∃ early late, after = early ++ late ∧ Stands body before early late) ↔ wanted = true)
  | .behind wanted accepts, before, taken, _ => taken = [] ∧ before.getLast?.any accepts = wanted
  | .lineStart, before, taken, _ => taken = [] ∧ (before = [] ∨ before.getLast? = some '\n')
  | .lineEnd, _, taken, after => taken = [] ∧ (after = [] ∨ after.head? = some '\n')
  | .textEnd, _, taken, after => taken = [] ∧ (after = [] ∨ after = ['\n'])
  | .wordEdge, before, taken, after =>
      taken = [] ∧ before.getLast?.any Text.isWord ≠ after.head?.any Text.isWord

section

variable {text : Array Char}

/-! ### Characters around a place -/

section

variable {before after : List Char}

private theorem getElem?_of_parts (whole : text.toList = before ++ after) (offset : Nat) :
    text[before.length + offset]? = after[offset]? := by
  rw [← Array.getElem?_toList, whole, List.getElem?_append_right (Nat.le_add_right _ _),
    Nat.add_sub_cancel_left]

private theorem acceptedAt_of_parts (whole : text.toList = before ++ after)
    (accepts : Char → Bool) :
    acceptedAt text accepts before.length = after.head?.any accepts := by
  have read := getElem?_of_parts whole 0
  rw [Nat.add_zero] at read
  rw [acceptedAt, read, List.head?_eq_getElem?]

private theorem acceptedBefore_of_parts (whole : text.toList = before ++ after)
    (accepts : Char → Bool) :
    acceptedBefore text accepts before.length = before.getLast?.any accepts := by
  rcases List.eq_nil_or_concat before with rfl | ⟨front, last, rfl⟩
  · rfl
  · rw [List.concat_eq_append, List.append_assoc] at whole
    have read := getElem?_of_parts whole 0
    rw [List.concat_eq_append, List.length_append, List.getLast?_append]
    change (text[front.length]?).any accepts = _
    rw [show text[front.length]? = some last from read]
    rfl

private theorem hasAt_of_parts (whole : text.toList = before ++ after) {chars : List Char} :
    hasAt text chars before.length = true ↔ chars <+: after := by
  have behind : text.toList.drop before.length = after := by
    rw [whole, List.drop_left]
  rw [← behind]
  exact ⟨listed_of_hasAt, hasAt_of_listed⟩

theorem size_of_parts (whole : text.toList = before ++ after) :
    text.size = before.length + after.length := by
  rw [← Array.length_toList, whole, List.length_append]

end

/-! ### Runs and repetitions -/

theorem ends_span_iff {eager : Bool} {accepts : Char → Bool} {place stop : Nat} :
    Ends text (.span eager accepts) place stop ↔ Takes text accepts place stop := by
  refine ⟨Ends.takes, fun taken => ends_span.mpr ⟨taken.1, ?_⟩⟩
  rw [spanEnd_of_takes taken]
  exact spanEnd_ge _ _ _ _

/-- Repetitions stop at once, or go on behind a text of their body. -/
theorem ends_many {eager : Bool} {body : Pattern} {place stop : Nat} :
    Ends text (.many eager body) place stop ↔
      stop = place ∨ ∃ later, place < later ∧ Ends text body place later ∧
        Ends text (.many eager body) later stop := by
  have bounded : ∀ early ≤ text.size, ∀ ending ∈ endings text body early,
      ending.1 ≤ text.size := by
    intro early inside ending member
    have reached := Ends.le_size ⟨ending.2, member⟩
    omega
  have fuel : ∀ {later}, place < later → later ≤ text.size →
      repeatedEndings (endings text body) eager (text.size - place - 1) later =
        repeatedEndings (endings text body) eager (text.size - later) later :=
    fun forward inside => repeatedEndings_fuel bounded eager inside (by omega) (by omega)
  have inside : ∀ {later}, place < later → Ends text body place later → later ≤ text.size := by
    intro later forward step
    have := acceptedAt_lt (step.takes.2 place (Nat.le_refl _) forward)
    have reached := step.le_size
    omega
  constructor
  · rintro ⟨parts, member⟩
    rw [endings] at member
    cases left : text.size - place with
    | zero =>
        rw [left] at member
        cases List.mem_singleton.mp member
        exact Or.inl rfl
    | succ more =>
        rw [left] at member
        rcases mem_repeatedEndings_succ member with here | ⟨first, step, forward, last, rest, same⟩
        · cases here
          exact Or.inl rfl
        · have reached := inside forward ⟨first.2, step⟩
          rw [show more = text.size - place - 1 by omega, fuel forward reached] at rest
          cases same
          exact Or.inr ⟨first.1, forward, ⟨first.2, step⟩, last.2, rest⟩
  · rintro (rfl | ⟨later, forward, ⟨early, step⟩, late, rest⟩)
    · refine ⟨[], ?_⟩
      rw [endings]
      cases text.size - stop with
      | zero => exact List.mem_singleton.mpr rfl
      | succ more => cases eager <;> simp [repeatedEndings]
    · have reached := inside forward ⟨early, step⟩
      refine ⟨late ++ early, ?_⟩
      rw [endings] at rest
      rw [endings, show text.size - place = (text.size - place - 1) + 1 by omega, repeatedEndings]
      rw [← fuel forward reached] at rest
      have more : (stop, late ++ early) ∈ (endings text body place).flatMap fun first =>
          if place < first.1 then
            (repeatedEndings (endings text body) eager (text.size - place - 1) first.1).map
              fun last => (last.1, last.2 ++ first.2)
          else [] := by
        refine List.mem_flatMap.mpr ⟨(later, early), step, ?_⟩
        rw [if_pos forward]
        exact List.mem_map.mpr ⟨(stop, late), rest, rfl⟩
      cases eager with
      | true => exact List.mem_append_left _ more
      | false => exact List.mem_cons_of_mem _ more

/-! ### Matches -/

private theorem takes_of_parts {before taken after : List Char}
    (whole : text.toList = before ++ (taken ++ after)) {accepts : Char → Bool} :
    Takes text accepts before.length (before.length + taken.length) ↔
      ∀ c ∈ taken, accepts c = true := by
  constructor
  · intro all c member
    obtain ⟨offset, inside, rfl⟩ := List.getElem_of_mem member
    obtain ⟨other, read, accepted⟩ :=
      acceptedAt_iff.mp (all.2 (before.length + offset) (by omega) (by omega))
    rw [getElem?_of_parts whole, List.getElem?_append_left inside,
      List.getElem?_eq_getElem inside] at read
    cases read
    exact accepted
  · intro all
    refine ⟨Nat.le_add_right _ _, fun place behind within => ?_⟩
    obtain ⟨offset, rfl⟩ := Nat.exists_eq_add_of_le behind
    have inside : offset < taken.length := by omega
    refine acceptedAt_iff.mpr ⟨taken[offset], ?_, all _ (List.getElem_mem inside)⟩
    rw [getElem?_of_parts whole, List.getElem?_append_left inside,
      List.getElem?_eq_getElem inside]

/-- A place in a stretch splits it in two. -/
theorem exists_split {taken : List Char} {start middle : Nat} (behind : start ≤ middle)
    (within : middle ≤ start + taken.length) :
    ∃ early late, taken = early ++ late ∧ middle = start + early.length := by
  refine ⟨taken.take (middle - start), taken.drop (middle - start),
    (List.take_append_drop _ _).symm, ?_⟩
  rw [List.length_take]
  omega

theorem ends_many_iff {eager : Bool} {body : Pattern}
    (told : ∀ {before taken after : List Char}, text.toList = before ++ (taken ++ after) →
      (Ends text body before.length (before.length + taken.length) ↔
        body.Stands before taken after))
    {before taken after : List Char} (whole : text.toList = before ++ (taken ++ after)) :
    Ends text (.many eager body) before.length (before.length + taken.length) ↔
      ∃ pieces : List (List Char), taken = pieces.flatten ∧
        StandInRow body.Stands before pieces after := by
  constructor
  · -- by induction on how much text is taken
    intro found
    obtain ⟨left, distance⟩ : ∃ left, taken.length = left := ⟨_, rfl⟩
    induction left using Nat.strongRecOn generalizing before taken with
    | ind left ih =>
        rcases ends_many.mp found with same | ⟨later, further, step, rest⟩
        · have empty : taken = [] := List.length_eq_zero_iff.mp (by omega)
          exact ⟨[], empty, trivial⟩
        · obtain ⟨early, late, rfl, rfl⟩ := exists_split (Nat.le_of_lt further) rest.le
          rw [List.append_assoc] at whole
          rw [List.length_append] at rest distance
          have begun : early ≠ [] := by
            rintro rfl
            exact Nat.lt_irrefl _ further
          have length := List.length_pos_iff.mpr begun
          have first := (told whole).mp step
          rw [← Nat.add_assoc, ← List.length_append] at rest
          rw [← List.append_assoc] at whole
          obtain ⟨pieces, rfl, others⟩ := ih late.length (by omega) whole rest rfl
          exact ⟨early :: pieces, rfl, begun, first, others⟩
  · rintro ⟨pieces, rfl, row⟩
    induction pieces generalizing before with
    | nil => exact ends_many.mpr (Or.inl rfl)
    | cons piece others ih =>
        obtain ⟨begun, first, rest⟩ := row
        have length := List.length_pos_iff.mpr begun
        rw [List.flatten_cons, List.append_assoc] at whole
        have step := (told whole).mpr first
        rw [← List.append_assoc] at whole
        have further := ih rest whole
        rw [List.length_append, Nat.add_assoc] at further
        rw [List.flatten_cons, List.length_append]
        exact ends_many.mpr (Or.inr ⟨_, by omega, step, further⟩)

/-- What takes no text is asked at the place between the texts before and behind. -/
theorem ends_still_iff {before taken : List Char} {allowed : Bool} {asked : Prop}
    (same : taken = [] → (allowed = true ↔ asked)) :
    (∃ parts, (before.length + taken.length, parts) ∈ stayIf allowed before.length) ↔
      taken = [] ∧ asked := by
  rw [ends_stayIf]
  constructor
  · rintro ⟨here, stays⟩
    have empty : taken = [] := List.length_eq_zero_iff.mp (by omega)
    exact ⟨empty, (same empty).mp here⟩
  · rintro ⟨rfl, here⟩
    exact ⟨(same rfl).mpr here, rfl⟩

theorem endings_ne_nil_iff {pattern : Pattern} {place : Nat} :
    (!(endings text pattern place).isEmpty) = true ↔ ∃ stop, Ends text pattern place stop := by
  cases all : endings text pattern place with
  | nil => simp [Ends, all]
  | cons first others =>
      refine iff_of_true rfl ⟨first.1, first.2, ?_⟩
      rw [all]
      exact List.mem_cons_self

theorem any_beq_iff {found : Option Char} {c : Char} :
    found.any (· == c) = true ↔ found = some c := by
  cases found with
  | none => simp
  | some d => simp

/-- A pattern takes a stretch of a text just if the stretch stands there as the pattern says. -/
theorem ends_iff_stands {pattern : Pattern} {before taken after : List Char}
    (whole : text.toList = before ++ (taken ++ after)) :
    Ends text pattern before.length (before.length + taken.length) ↔
      pattern.Stands before taken after := by
  induction pattern generalizing before taken after with
  | nothing =>
      rw [Stands, ← List.length_eq_zero_iff]
      simp [Ends, endings]
  | literal chars =>
      rw [ends_literal, hasAt_of_parts whole, Stands]
      constructor
      · rintro ⟨begins, same⟩
        have length : taken.length = chars.length := by omega
        exact (List.prefix_of_prefix_length_le (List.prefix_append taken after) begins
          (Nat.le_of_eq length)).eq_of_length length
      · rintro rfl
        exact ⟨List.prefix_append _ _, rfl⟩
  | one accepts =>
      rw [ends_one, acceptedAt_of_parts whole, Stands]
      constructor
      · rintro ⟨here, same⟩
        obtain ⟨c, rfl⟩ := List.length_eq_one_iff.mp (show taken.length = 1 by omega)
        exact ⟨c, here, rfl⟩
      · rintro ⟨c, accepted, rfl⟩
        exact ⟨accepted, rfl⟩
  | span eager accepts =>
      rw [ends_span_iff, takes_of_parts whole]
      rfl
  | seq first second inFirst inSecond =>
      rw [ends_seq, Stands]
      constructor
      · rintro ⟨middle, left, right⟩
        obtain ⟨early, late, rfl, rfl⟩ := exists_split left.le right.le
        rw [List.append_assoc] at whole
        refine ⟨early, late, rfl, (inFirst whole).mp left, ?_⟩
        rw [← List.append_assoc] at whole
        rw [List.length_append, ← Nat.add_assoc, ← List.length_append] at right
        exact (inSecond whole).mp right
      · rintro ⟨early, late, rfl, left, right⟩
        rw [List.append_assoc] at whole
        refine ⟨before.length + early.length, (inFirst whole).mpr left, ?_⟩
        rw [← List.append_assoc] at whole
        rw [List.length_append, ← Nat.add_assoc, ← List.length_append]
        exact (inSecond whole).mpr right
  | either first second inFirst inSecond =>
      rw [ends_either, inFirst whole, inSecond whole, Stands]
  | many eager body inBody => exact ends_many_iff inBody whole
  | part which body inBody => exact ends_part.trans (inBody whole)
  | ahead wanted body inBody =>
      refine ends_still_iff fun empty => ?_
      rw [empty, List.nil_append] at whole
      have seen : (∃ stop, Ends text body before.length stop) ↔
          ∃ early late, after = early ++ late ∧ body.Stands before early late := by
        constructor
        · rintro ⟨stop, found⟩
          have size := size_of_parts whole
          have last := found.le_size
          obtain ⟨early, late, rfl, rfl⟩ :=
            @exists_split after before.length stop found.le (by omega)
          exact ⟨early, late, rfl, (inBody whole).mp found⟩
        · rintro ⟨early, late, rfl, stands⟩
          exact ⟨_, (inBody whole).mpr stands⟩
      rw [beq_iff_eq, Bool.eq_iff_iff, endings_ne_nil_iff, seen]
  | behind wanted accepts =>
      refine ends_still_iff fun _ => ?_
      rw [beq_iff_eq, acceptedBefore_of_parts whole]
  | lineStart =>
      refine ends_still_iff fun _ => ?_
      rw [atLineStart, Bool.or_eq_true, beq_iff_eq, acceptedBefore_of_parts whole, any_beq_iff,
        List.length_eq_zero_iff]
  | lineEnd =>
      refine ends_still_iff fun empty => ?_
      subst empty
      have size := size_of_parts whole
      rw [atLineEnd, Bool.or_eq_true, beq_iff_eq, acceptedAt_of_parts whole, any_beq_iff, size,
        List.nil_append, ← List.length_eq_zero_iff, Nat.left_eq_add]
  | textEnd =>
      refine ends_still_iff fun empty => ?_
      subst empty
      have size := size_of_parts whole
      have last : before.length + 1 = text.size ∧ after.head? = some '\n' ↔ after = ['\n'] := by
        rw [size, List.nil_append]
        constructor
        · rintro ⟨length, first⟩
          obtain ⟨c, rfl⟩ := List.length_eq_one_iff.mp (show after.length = 1 by omega)
          cases first
          rfl
        · rintro rfl
          exact ⟨rfl, rfl⟩
      rw [atTextEnd, Bool.or_eq_true, Bool.and_eq_true, beq_iff_eq, beq_iff_eq,
        acceptedAt_of_parts whole, any_beq_iff, List.nil_append, last, size, List.nil_append,
        ← List.length_eq_zero_iff, Nat.left_eq_add]
  | wordEdge =>
      refine ends_still_iff fun empty => ?_
      subst empty
      rw [atWordEdge, acceptedBefore_of_parts whole, acceptedAt_of_parts whole, bne_iff_ne]
      rfl

/-! ### Occurrences -/

theorem findFrom?_isSome_iff {pattern : Pattern} {place : Nat} :
    (pattern.findFrom? text place).isSome = true ↔
      ∃ start, place ≤ start ∧ start ≤ text.size ∧ ∃ stop, Ends text pattern start stop := by
  -- by induction on how many places are left
  obtain ⟨left, same⟩ : ∃ left, text.size + 1 - place = left := ⟨_, rfl⟩
  induction left generalizing place with
  | zero =>
      rw [findFrom?_behind (by omega)]
      exact iff_of_false Bool.false_ne_true fun ⟨start, later, inside, _⟩ => by omega
  | succ left ih =>
      rw [findFrom?_step (by omega), Option.isSome_or, Bool.or_eq_true, ih (by omega)]
      constructor
      · rintro (here | ⟨start, behind, inside, found⟩)
        · obtain ⟨found, matched⟩ := Option.isSome_iff_exists.mp here
          exact ⟨place, Nat.le_refl _, by omega, _, (matchAt?_ends matched).2⟩
        · exact ⟨start, by omega, inside, found⟩
      · rintro ⟨start, behind, inside, stop, ends⟩
        rcases Nat.lt_or_eq_of_le behind with later | rfl
        · exact Or.inr ⟨start, later, inside, stop, ends⟩
        · obtain ⟨found, matched⟩ := exists_match_of_ends ends
          exact Or.inl (Option.isSome_iff_exists.mpr ⟨found, matched⟩)

/-- A pattern occurs in a text just if it takes a part of it. -/
theorem occursIn_iff_stands {pattern : Pattern} :
    pattern.occursIn text = true ↔
      ∃ before taken after, text.toList = before ++ (taken ++ after) ∧
        pattern.Stands before taken after := by
  rw [occursIn, findFrom?_isSome_iff]
  constructor
  · rintro ⟨start, _, inside, stop, found⟩
    have forward := found.le
    have last := found.le_size
    obtain ⟨before, rest, whole, first⟩ :=
      @exists_split text.toList 0 start (Nat.zero_le _) (by rw [Array.length_toList]; omega)
    rw [Nat.zero_add] at first
    have size := size_of_parts whole
    obtain ⟨taken, after, rfl, second⟩ := @exists_split rest start stop forward (by omega)
    rw [first] at found second
    rw [second] at found
    exact ⟨before, taken, after, whole, (ends_iff_stands whole).mp found⟩
  · rintro ⟨before, taken, after, whole, stands⟩
    refine ⟨before.length, Nat.zero_le _, ?_, _, (ends_iff_stands whole).mpr stands⟩
    rw [size_of_parts whole]
    exact Nat.le_add_right _ _

end

/-! ### Patterns that ask nothing of their surroundings -/

theorem standInRow_iff {stands : List Char → List Char → List Char → Prop}
    {allowed : List Char → Prop}
    (free : ∀ before taken after, stands before taken after ↔ allowed taken)
    {before : List Char} {pieces : List (List Char)} {after : List Char} :
    StandInRow stands before pieces after ↔ ∀ piece ∈ pieces, piece ≠ [] ∧ allowed piece := by
  induction pieces generalizing before with
  | nil => simp [StandInRow]
  | cons piece others ih => rw [StandInRow, free, ih, List.forall_mem_cons, and_assoc]

theorem stands_plus {accepts : Char → Bool} {before taken after : List Char} :
    (plus accepts).Stands before taken after ↔ taken ≠ [] ∧ ∀ c ∈ taken, accepts c = true := by
  constructor
  · rintro ⟨_, rest, rfl, ⟨c, first, rfl⟩, others⟩
    exact ⟨List.cons_ne_nil _ _, List.forall_mem_cons.mpr ⟨first, others⟩⟩
  · rintro ⟨begun, all⟩
    cases taken with
    | nil => exact absurd rfl begun
    | cons c rest =>
        obtain ⟨first, others⟩ := List.forall_mem_cons.mp all
        exact ⟨[c], rest, rfl, ⟨c, first, rfl⟩, others⟩

theorem stands_choiceOf {texts : List String} {before taken after : List Char} :
    (choiceOf texts).Stands before taken after ↔ ∃ text ∈ texts, taken = text.toList := by
  unfold choiceOf
  induction texts with
  | nil => simp [choice, Stands]
  | cons first others ih =>
      cases others with
      | nil => simp [choice, Stands, lit]
      | cons second more =>
          have split : (∃ text ∈ first :: second :: more, taken = text.toList) ↔
              taken = first.toList ∨ ∃ text ∈ second :: more, taken = text.toList := by
            simp only [List.mem_cons, exists_eq_or_imp]
          rw [split, ← ih]
          rfl

end SourceOutline.Pattern
