import SourceOutline.Proofs.Pattern.Part

set_option autoImplicit false

/-! Matches that can be told from the text alone.

Some patterns take a run of characters and some spell a few texts.  Where they match is said by the
characters of the text, without going through their endings.  And a search finds all matches of a
pattern if none of them reaches into another. -/

namespace SourceOutline.Pattern

section

variable {text : Array Char}

/-! ### Characters at a place -/

theorem getElem?_of_hasAt {chars : List Char} {place : Nat} (here : hasAt text chars place = true)
    {offset : Nat} (within : offset < chars.length) : text[place + offset]? = chars[offset]? := by
  induction chars generalizing place offset with
  | nil => exact absurd within (Nat.not_lt_zero _)
  | cons c rest ih =>
      rw [hasAt, Bool.and_eq_true, beq_iff_eq] at here
      cases offset with
      | zero => exact here.1
      | succ offset =>
          rw [show place + (offset + 1) = place + 1 + offset by omega]
          exact ih here.2 (Nat.lt_of_succ_lt_succ within)

theorem hasAt_append (left right : List Char) (place : Nat) :
    hasAt text (left ++ right) place =
      (hasAt text left place && hasAt text right (place + left.length)) := by
  induction left generalizing place with
  | nil => rfl
  | cons c rest ih =>
      rw [List.cons_append, hasAt, hasAt, ih, Bool.and_assoc, List.length_cons,
        show place + (rest.length + 1) = place + 1 + rest.length by omega]

theorem hasAt_of_listed {chars : List Char} {place : Nat}
    (listed : chars <+: text.toList.drop place) : hasAt text chars place = true := by
  induction chars generalizing place with
  | nil => rfl
  | cons c rest ih =>
      obtain ⟨more, same⟩ := listed
      have inside : place < text.toList.length := by
        refine Nat.lt_of_not_le fun short => ?_
        rw [List.drop_of_length_le short] at same
        cases same
      rw [List.drop_eq_getElem_cons inside] at same
      obtain ⟨first, others⟩ := List.cons.inj same
      rw [hasAt, Bool.and_eq_true, beq_iff_eq]
      refine ⟨?_, ih ⟨more, others⟩⟩
      rw [first, Array.getElem_toList]
      exact Array.getElem?_eq_getElem inside

/-- A stretch of a text stands in the text. -/
theorem hasAt_slice (start stop : Nat) :
    hasAt text (text.extract start stop).toList start = true := by
  apply hasAt_of_listed
  rw [Array.toList_extract, List.extract_eq_take_drop]
  exact List.take_prefix _ _

/-! ### Runs of characters -/

/-- At least one accepted character, whether as many or as few as possible are wanted. -/
theorem ends_run {eager : Bool} {accepts : Char → Bool} {place stop : Nat} :
    Ends text (.seq (.one accepts) (.span eager accepts)) place stop ↔
      place < stop ∧ Takes text accepts place stop := by
  constructor
  · intro ends
    obtain ⟨middle, first, rest⟩ := ends_seq.mp ends
    obtain ⟨here, same⟩ := ends_one.mp first
    have forward := rest.le
    rw [same] at rest
    exact ⟨by omega, (Takes.one here).trans rest.takes⟩
  · rintro ⟨forward, taken⟩
    have here := taken.2 place (Nat.le_refl _) forward
    have others : Takes text accepts (place + 1) stop :=
      ⟨forward, fun other behind before => taken.2 other (by omega) before⟩
    refine ends_seq.mpr ⟨place + 1, ends_one.mpr ⟨here, rfl⟩, ends_span.mpr ⟨forward, ?_⟩⟩
    rw [spanEnd_of_takes others]
    exact spanEnd_ge _ _ _ _

/-- Two runs from one place that cannot go on end at the same place. -/
theorem Takes.stop_eq {accepts : Char → Bool} {start stop other : Nat}
    (taken : Takes text accepts start stop) (takenToo : Takes text accepts start other)
    (ended : acceptedAt text accepts stop = false)
    (endedToo : acceptedAt text accepts other = false) : stop = other := by
  rcases Nat.lt_trichotomy stop other with before | same | behind
  · cases ended.symm.trans (takenToo.2 stop taken.1 before)
  · exact same
  · cases endedToo.symm.trans (taken.2 other takenToo.1 behind)

theorem acceptedAt_apart {accepts other : Char → Bool} {place : Nat}
    (here : acceptedAt text accepts place = true)
    (apart : ∀ c, accepts c = true → other c = false) : acceptedAt text other place = false := by
  obtain ⟨c, read, accepted⟩ := acceptedAt_iff.mp here
  rw [acceptedAt, read]
  exact apart c accepted

/-! ### Spelled texts -/

/-- The texts that a pattern spells, each with whether a word has to begin or to end behind it;
nothing is told of a pattern that does not spell its texts. -/
def spellings? : Pattern → Option (List (List Char × Bool))
  | .nothing => some [([], false)]
  | .literal chars => some [(chars, false)]
  | .wordEdge => some [([], true)]
  | .seq first second =>
      (spellings? first).bind fun early =>
        (spellings? second).bind fun late =>
          if early.any Prod.snd then none
          else some (early.flatMap fun left => late.map fun right => (left.1 ++ right.1, right.2))
  | .either first second =>
      (spellings? first).bind fun left => (spellings? second).map fun right => left ++ right
  | _ => none

def Spelled (text : Array Char) (spelling : List Char × Bool) (place stop : Nat) : Prop :=
  hasAt text spelling.1 place = true ∧ stop = place + spelling.1.length ∧
    (spelling.2 = true → atWordEdge text stop = true)

theorem spelled_append {left right : List Char} {edge : Bool} {place stop : Nat} :
    Spelled text (left ++ right, edge) place stop ↔
      Spelled text (left, false) place (place + left.length) ∧
        Spelled text (right, edge) (place + left.length) stop := by
  unfold Spelled
  dsimp only
  rw [hasAt_append, Bool.and_eq_true, List.length_append, Nat.add_assoc]
  simp [and_assoc]

/-- A pattern that spells its texts matches where one of them stands. -/
theorem ends_iff_spelled {pattern : Pattern} {spelled : List (List Char × Bool)}
    (told : pattern.spellings? = some spelled) {place stop : Nat} :
    Ends text pattern place stop ↔ ∃ spelling ∈ spelled, Spelled text spelling place stop := by
  induction pattern generalizing spelled place stop with
  | nothing =>
      cases told
      simp [Ends, endings, Spelled, hasAt]
  | literal chars =>
      cases told
      rw [ends_literal]
      simp [Spelled]
  | wordEdge =>
      cases told
      rw [show Ends text .wordEdge place stop ↔ atWordEdge text place = true ∧ stop = place from
        ends_stayIf]
      simp only [List.mem_singleton, exists_eq_left, Spelled, hasAt, List.length_nil, Nat.add_zero,
        true_and, forall_const]
      constructor
      · rintro ⟨edge, rfl⟩
        exact ⟨rfl, edge⟩
      · rintro ⟨rfl, edge⟩
        exact ⟨edge, rfl⟩
  | seq first second inFirst inSecond =>
      obtain ⟨early, firstTold, rest⟩ := Option.bind_eq_some_iff.mp told
      obtain ⟨late, secondTold, same⟩ := Option.bind_eq_some_iff.mp rest
      split at same
      · cases same
      · rename_i unclosed
        cases same
        -- nothing is asked behind the first text, so that the two can be put together
        have free : ∀ left ∈ early, left = (left.1, false) := by
          intro left member
          have closed : left.2 = false := by
            cases edge : left.2 with
            | false => rfl
            | true => exact absurd (List.any_eq_true.mpr ⟨left, member, edge⟩) unclosed
          rw [← closed]
        rw [ends_seq]
        constructor
        · rintro ⟨middle, before, behind⟩
          obtain ⟨left, leftMember, leftHere⟩ := (inFirst firstTold).mp before
          obtain ⟨right, rightMember, rightHere⟩ := (inSecond secondTold).mp behind
          refine ⟨(left.1 ++ right.1, right.2), ?_, spelled_append.mpr ?_⟩
          · exact List.mem_flatMap.mpr ⟨left, leftMember, List.mem_map_of_mem rightMember⟩
          · have reached := leftHere.2.1
            rw [reached] at leftHere rightHere
            rw [free left leftMember] at leftHere
            exact ⟨leftHere, rightHere⟩
        · rintro ⟨spelling, member, here⟩
          obtain ⟨left, leftMember, inside⟩ := List.mem_flatMap.mp member
          obtain ⟨right, rightMember, rfl⟩ := List.mem_map.mp inside
          obtain ⟨leftHere, rightHere⟩ := spelled_append.mp here
          rw [← free left leftMember] at leftHere
          exact ⟨_, (inFirst firstTold).mpr ⟨left, leftMember, leftHere⟩,
            (inSecond secondTold).mpr ⟨right, rightMember, rightHere⟩⟩
  | either first second inFirst inSecond =>
      obtain ⟨left, firstTold, rest⟩ := Option.bind_eq_some_iff.mp told
      obtain ⟨right, secondTold, rfl⟩ := Option.map_eq_some_iff.mp rest
      rw [ends_either, inFirst firstTold, inSecond secondTold]
      simp only [List.mem_append, or_and_right, exists_or]
  | one | span | many | part | ahead | behind | lineStart | lineEnd | textEnd => cases told

theorem names_of_spelled {pattern : Pattern} {spelled : List (List Char × Bool)}
    (told : pattern.spellings? = some spelled) (which : Part) : pattern.names which = false := by
  induction pattern generalizing spelled with
  | nothing | literal | wordEdge => rfl
  | seq first second inFirst inSecond =>
      obtain ⟨early, firstTold, rest⟩ := Option.bind_eq_some_iff.mp told
      obtain ⟨late, secondTold, _⟩ := Option.bind_eq_some_iff.mp rest
      rw [names, inFirst firstTold, inSecond secondTold, Bool.or_self]
  | either first second inFirst inSecond =>
      obtain ⟨left, firstTold, rest⟩ := Option.bind_eq_some_iff.mp told
      obtain ⟨right, secondTold, _⟩ := Option.map_eq_some_iff.mp rest
      rw [names, inFirst firstTold, inSecond secondTold, Bool.or_self]
  | one | span | many | part | ahead | behind | lineStart | lineEnd | textEnd => cases told

/-! ### Parts of chains -/

private theorem lookup_of_unnamed {pattern : Pattern} {place stop : Nat} {parts : Parts}
    (member : (stop, parts) ∈ endings text pattern place) {which : Part}
    (unnamed : pattern.names which = false) : parts.lookup which = none := by
  rw [List.lookup_eq_none_iff]
  intro entry inside
  rw [bne_iff_ne]
  rintro rfl
  cases unnamed.symm.trans (names_of_mem member entry inside)

/-- What a match has of a part is found by the one of two patterns that names it. -/
theorem lookup_of_mem_seq {first second : Pattern} {place stop : Nat} {parts : Parts}
    (member : (stop, parts) ∈ endings text (.seq first second) place) :
    ∃ middle early late, (middle, early) ∈ endings text first place ∧
      (stop, late) ∈ endings text second middle ∧
      (∀ which, first.names which = false → parts.lookup which = late.lookup which) ∧
      ∀ which, second.names which = false → parts.lookup which = early.lookup which := by
  obtain ⟨middle, early, late, before, behind, rfl⟩ := mem_endings_seq.mp member
  refine ⟨middle, early, late, before, behind, ?_, ?_⟩
  · intro which unnamed
    rw [List.lookup_append, lookup_of_unnamed before unnamed, Option.or_none]
  · intro which unnamed
    rw [List.lookup_append, lookup_of_unnamed behind unnamed, Option.none_or]

/-- The first patterns of a chain have no say in parts that they do not name. -/
theorem mem_endings_chain {firsts : List Pattern} {next : Pattern} {rest : List Pattern}
    {place stop : Nat} {parts : Parts}
    (member : (stop, parts) ∈ endings text (chain (firsts ++ next :: rest)) place) :
    ∃ middle late, (stop, late) ∈ endings text (chain (next :: rest)) middle ∧
      ∀ which, (∀ first ∈ firsts, first.names which = false) →
        parts.lookup which = late.lookup which := by
  induction firsts generalizing place parts with
  | nil => exact ⟨place, parts, member, fun _ _ => rfl⟩
  | cons first others ih =>
      have split : chain (first :: others ++ next :: rest) =
          .seq first (chain (others ++ next :: rest)) := by
        cases others <;> rfl
      rw [split] at member
      obtain ⟨middle, _, late, _, behind, same, _⟩ := lookup_of_mem_seq member
      obtain ⟨further, last, inside, sameToo⟩ := ih behind
      refine ⟨further, last, inside, fun which unnamed => ?_⟩
      obtain ⟨here, later⟩ := List.forall_mem_cons.mp unnamed
      rw [same which here, sameToo which later]

/-! ### Searches that miss nothing -/

theorem exists_match_of_ends {pattern : Pattern} {place stop : Nat}
    (ends : Ends text pattern place stop) : ∃ found, pattern.matchAt? text place = some found := by
  obtain ⟨parts, member⟩ := ends
  rw [matchAt?_eq]
  cases all : endings text pattern place with
  | nil =>
      rw [all] at member
      cases member
  | cons first others => exact ⟨_, rfl⟩

/-- A match is found if no match before it reaches into it. -/
theorem mem_findAllFrom_of_apart {pattern : Pattern} {found : Match}
    (matched : pattern.matchAt? text found.start = some found) (inside : found.start ≤ text.size)
    {place : Nat} (behind : place ≤ found.start)
    (apart : ∀ other, pattern.matchAt? text other.start = some other →
      other.start < found.start → resume other ≤ found.start) :
    found ∈ pattern.findAllFrom text place := by
  -- by induction on how far the search is from the match
  obtain ⟨left, same⟩ : ∃ left, found.start - place = left := ⟨_, rfl⟩
  induction left using Nat.strongRecOn generalizing place with
  | ind left ih =>
      by_cases here : place = found.start
      · rw [here, findAllFrom_some inside matched]
        exact List.mem_cons_self
      · cases early : pattern.matchAt? text place with
        | none =>
            rw [findAllFrom_none early]
            exact ih _ (by omega) (by omega) rfl
        | some other =>
            have start := (matchAt?_ends early).1
            have further := lt_resume early
            rw [findAllFrom_some (by omega) early]
            apply List.mem_cons_of_mem
            have before := apart other (start ▸ early) (by omega)
            exact ih _ (by omega) before rfl

end

end SourceOutline.Pattern
