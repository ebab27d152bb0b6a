import SourceOutline.Proofs.Pattern.Language
import SourceOutline.Proofs.Pattern.Onward
import SourceOutline.Proofs.Pattern.Preferred
import SourceOutline.Swift.Access

set_option autoImplicit false

/-! The access level that a list of modifiers gives.

The words of the list are read off its text, and the widest access level among them is taken.  So
order, repetition and modifiers of other kinds do not matter.  But the words do not tell a modifier
of the declaration from one of its setter. -/

namespace SourceOutline.Swift

open Pattern

/-! ### Texts that are found -/

/-- Text in front of a place has no effect on the texts that are found from there on. -/
theorem textsFound_behind {pattern : Pattern} (ahead : pattern.onward = true)
    (front rest : List Char) :
    (pattern.findAllFrom (front ++ rest).toArray front.length).map
        (fun found => String.ofList
          ((front ++ rest).toArray.extract found.start found.stop).toList) =
      textsFound pattern rest := by
  have moved := @findAllFrom_behind_front front.toArray rest.toArray pattern ahead 0
  rw [Nat.add_zero, List.size_toArray, List.append_toArray] at moved
  rw [moved, List.map_map]
  refine List.map_congr_left fun found _ => ?_
  change String.ofList ((front ++ rest).toArray.extract (front.length + found.start)
    (front.length + found.stop)).toList = _
  rw [← List.append_toArray, Array.extract_append]
  simp

private theorem textsFound_skip {pattern : Pattern} (ahead : pattern.onward = true) {c : Char}
    {rest : List Char} (missed : pattern.matchAt? (c :: rest).toArray 0 = none) :
    textsFound pattern (c :: rest) = textsFound pattern rest := by
  rw [← textsFound_behind ahead [c] rest, textsFound, findAll, findAllFrom_none missed]
  rfl

private theorem textsFound_take {pattern : Pattern} (ahead : pattern.onward = true)
    {front rest : List Char} (begun : front ≠ []) {parts : Parts}
    (matched : pattern.matchAt? (front ++ rest).toArray 0 = some ⟨0, front.length, parts⟩) :
    textsFound pattern (front ++ rest) = String.ofList front :: textsFound pattern rest := by
  have length := List.length_pos_iff.mpr begun
  have behind : resume ⟨0, front.length, parts⟩ = front.length := if_pos length
  rw [← textsFound_behind ahead front rest, textsFound, findAll,
    findAllFrom_some (Nat.zero_le _) matched, behind, List.map_cons]
  simp

/-! ### Words -/

private theorem textsFound_word_skip {c : Char} (other : Text.isWord c = false) (rest : List Char) :
    textsFound word (c :: rest) = textsFound word rest := by
  apply textsFound_skip rfl
  have missed : endings (c :: rest).toArray word 0 = [] := by
    rw [word, plus, endings, endings, if_neg]
    · rfl
    · simp [acceptedAt, other]
  rw [matchAt?_eq, missed]
  rfl

private theorem textsFound_word_skips {gap : List Char} (others : ∀ c ∈ gap, Text.isWord c = false)
    (rest : List Char) : textsFound word (gap ++ rest) = textsFound word rest := by
  induction gap with
  | nil => rfl
  | cons c gap ih =>
      obtain ⟨here, later⟩ := List.forall_mem_cons.mp others
      rw [List.cons_append, textsFound_word_skip here, ih later]

/-- A word ends where a character follows that is no word character. -/
theorem textsFound_word_take {run : List Char} (begun : run ≠ [])
    (accepted : ∀ c ∈ run, Text.isWord c = true) {c : Char} (other : Text.isWord c = false)
    (rest : List Char) :
    textsFound word (run ++ c :: rest) = String.ofList run :: textsFound word (c :: rest) := by
  have taken := takes_of_list accepted [] (c :: rest)
  rw [List.nil_append, List.length_nil, Nat.zero_add] at taken
  have ended : acceptedAt (run ++ c :: rest).toArray Text.isWord run.length = false := by
    simp [acceptedAt, other]
  exact textsFound_take rfl begun (matchAt?_plus (List.length_pos_iff.mpr begun) taken ended)

/-! ### Lists of modifiers -/

/-- A modifier as it is written: a word, the mark of a modifier of the setter if it has one, and the
gap behind it. -/
structure Modifier where
  word : String
  forSetter : Bool
  gap : List Char
  known : word ∈ modifierWords
  apart : gap ≠ []
  blank : ∀ c ∈ gap, Text.isGap c = true

namespace Modifier

def mark (modifier : Modifier) : List Char :=
  if modifier.forSetter then "(set)".toList else []

def text (modifier : Modifier) : List Char :=
  modifier.word.toList ++ (modifier.mark ++ modifier.gap)

def words (modifier : Modifier) : List String :=
  modifier.word :: if modifier.forSetter then ["set"] else []

def isAccess (modifier : Modifier) : Bool :=
  accessLevels.contains modifier.word

end Modifier

def modifierText (modifiers : List Modifier) : List Char :=
  modifiers.flatMap Modifier.text

private theorem isWord_of_mem {word : String} (known : word ∈ modifierWords) :
    word.toList ≠ [] ∧ ∀ c ∈ word.toList, Text.isWord c = true := by
  have all : modifierWords.all (fun word =>
      !word.toList.isEmpty && word.toList.all Text.isWord) = true := by decide +kernel
  have here := List.all_eq_true.mp all word known
  rw [Bool.and_eq_true, Bool.not_eq_true', List.isEmpty_eq_false_iff, List.all_eq_true] at here
  exact here

private theorem isWord_of_isGap {c : Char} (gap : Text.isGap c = true) : Text.isWord c = false := by
  unfold Text.isGap at gap
  rw [Bool.or_eq_true, beq_iff_eq, beq_iff_eq] at gap
  rcases gap with rfl | rfl <;> decide +kernel

private theorem Modifier.textsFound_text (modifier : Modifier) (rest : List Char) :
    textsFound Pattern.word (modifier.text ++ rest) =
      modifier.words ++ textsFound Pattern.word rest := by
  obtain ⟨begun, accepted⟩ := isWord_of_mem modifier.known
  have gaps : ∀ c ∈ modifier.gap, Text.isWord c = false :=
    fun c member => isWord_of_isGap (modifier.blank c member)
  have skipped := textsFound_word_skips gaps rest
  unfold text words mark
  rw [List.append_assoc, List.append_assoc]
  cases modifier.forSetter with
  | false =>
      cases gap : modifier.gap with
      | nil => exact absurd gap modifier.apart
      | cons c others =>
          rw [gap] at gaps skipped
          have taken := textsFound_word_take begun accepted
            (gaps c List.mem_cons_self) (others ++ rest)
          rw [String.ofList_toList] at taken
          rw [← List.cons_append, skipped] at taken
          exact taken
  | true =>
      -- the mark of a setter is a word of its own, between two characters that are none
      have opening : Text.isWord '(' = false := by decide +kernel
      have closing : Text.isWord ')' = false := by decide +kernel
      have inner : ∀ c ∈ ['s', 'e', 't'], Text.isWord c = true :=
        List.all_eq_true.mp (by decide +kernel)
      have taken := textsFound_word_take begun accepted opening
        (['s', 'e', 't'] ++ ')' :: (modifier.gap ++ rest))
      rw [textsFound_word_skip opening, textsFound_word_take (by simp) inner closing,
        textsFound_word_skip closing, skipped, String.ofList_toList] at taken
      exact taken

private theorem textsFound_modifierText (modifiers : List Modifier) :
    textsFound Pattern.word (modifierText modifiers) = modifiers.flatMap Modifier.words := by
  induction modifiers with
  | nil => rfl
  | cons modifier others ih =>
      rw [modifierText, List.flatMap_cons, modifier.textsFound_text, List.flatMap_cons]
      exact congrArg (modifier.words ++ ·) ih

/-! ### What the pattern of modifiers takes -/

private theorem exists_modifiers_of_texts {pieces : List (List Char)}
    (each : ∀ piece ∈ pieces, ∃ modifier : Modifier, piece = modifier.text) :
    ∃ modifiers : List Modifier, pieces.flatten = modifierText modifiers := by
  induction pieces with
  | nil => exact ⟨[], rfl⟩
  | cons piece others ih =>
      obtain ⟨⟨modifier, rfl⟩, later⟩ := List.forall_mem_cons.mp each
      obtain ⟨modifiers, same⟩ := ih later
      exact ⟨modifier :: modifiers, by rw [List.flatten_cons, same]; rfl⟩

private theorem stands_modifier_iff {before piece after : List Char} :
    (chain [choiceOf modifierWords, optional (lit "(set)"), gap]).Stands before piece after ↔
      ∃ modifier : Modifier, piece = modifier.text := by
  constructor
  · rintro ⟨early, _, rfl, spelled, mark, gap, rfl, marked, spaced⟩
    obtain ⟨word, known, rfl⟩ := stands_choiceOf.mp spelled
    obtain ⟨apart, blank⟩ := stands_plus.mp spaced
    rcases marked with rfl | rfl
    · exact ⟨⟨word, true, gap, known, apart, blank⟩, rfl⟩
    · exact ⟨⟨word, false, gap, known, apart, blank⟩, rfl⟩
  · rintro ⟨⟨word, forSetter, gap, known, apart, blank⟩, rfl⟩
    refine ⟨word.toList, _, rfl, stands_choiceOf.mpr ⟨word, known, rfl⟩, _, gap, rfl, ?_,
      stands_plus.mpr ⟨apart, blank⟩⟩
    cases forSetter with
    | true => exact Or.inl rfl
    | false => exact Or.inr rfl

/-- Where modifiers are looked for, just the texts of lists of modifiers are taken. -/
theorem ends_modifiers_iff {before taken after : List Char} :
    Ends (before ++ (taken ++ after)).toArray modifiers before.length
        (before.length + taken.length) ↔
      ∃ listed : List Modifier, taken = modifierText listed := by
  have inRow := @standInRow_iff
    (chain [choiceOf modifierWords, optional (lit "(set)"), gap]).Stands
    (fun piece => ∃ modifier : Modifier, piece = modifier.text) (fun _ _ _ => stands_modifier_iff)
  rw [ends_iff_stands rfl]
  constructor
  · rintro ⟨pieces, rfl, row⟩
    exact exists_modifiers_of_texts fun piece member => (inRow.mp row piece member).2
  · rintro ⟨listed, rfl⟩
    refine ⟨listed.map Modifier.text, List.flatMap_def, ?_⟩
    refine inRow.mpr fun piece member => ?_
    obtain ⟨modifier, _, rfl⟩ := List.mem_map.mp member
    refine ⟨fun empty => ?_, modifier, rfl⟩
    exact modifier.apart (List.append_eq_nil_iff.mp (List.append_eq_nil_iff.mp empty).2).2

/-! ### The widest level -/

/-- The widest access level among some words, or the one that is given without any. -/
def widest (words : List String) : String :=
  (accessLevels.find? words.contains).getD "internal"

def accessRank (level : String) : Nat :=
  accessLevels.idxOf level

/-- The first item that is accepted is the accepted one with the least index. -/
theorem find?_eq_some_iff_idxOf {items : List String} {accepts : String → Bool} {item : String} :
    items.find? accepts = some item ↔
      item ∈ items ∧ accepts item = true ∧
        ∀ other ∈ items, accepts other = true → items.idxOf item ≤ items.idxOf other := by
  induction items with
  | nil => simp
  | cons first rest ih =>
      have index : ∀ {other}, first ≠ other →
          (first :: rest).idxOf other = rest.idxOf other + 1 := by
        intro other apart
        rw [List.idxOf_cons, beq_eq_false_iff_ne.mpr apart]
        rfl
      by_cases accepted : accepts first = true
      · rw [List.find?_cons_of_pos accepted]
        constructor
        · intro same
          cases same
          exact ⟨List.mem_cons_self, accepted, fun other _ _ => by simp⟩
        · rintro ⟨_, _, least⟩
          have zero := least first List.mem_cons_self accepted
          rw [List.idxOf_cons_self] at zero
          by_cases same : first = item
          · rw [same]
          · rw [index same] at zero
            omega
      · have further : ∀ {other}, accepts other = true →
            first ≠ other ∧ (first :: rest).idxOf other = rest.idxOf other + 1 := by
          intro other allowed
          have apart : first ≠ other := fun same => accepted (same ▸ allowed)
          exact ⟨apart, index apart⟩
        rw [List.find?_cons_of_neg accepted, ih]
        constructor
        · rintro ⟨member, allowed, least⟩
          refine ⟨List.mem_cons_of_mem _ member, allowed, fun other listed otherAllowed => ?_⟩
          obtain ⟨apart, later⟩ := further otherAllowed
          have inRest := (List.mem_cons.mp listed).resolve_left (Ne.symm apart)
          rw [(further allowed).2, later]
          exact Nat.succ_le_succ (least other inRest otherAllowed)
        · rintro ⟨listed, allowed, least⟩
          refine ⟨(List.mem_cons.mp listed).resolve_left (Ne.symm (further allowed).1), allowed,
            fun other member otherAllowed => ?_⟩
          have before := least other (List.mem_cons_of_mem _ member) otherAllowed
          rw [(further allowed).2, (further otherAllowed).2] at before
          exact Nat.le_of_succ_le_succ before

private theorem widest_eq {words : List String} {level : String} (known : level ∈ accessLevels)
    (named : level ∈ words)
    (least : ∀ other ∈ accessLevels, other ∈ words → accessRank level ≤ accessRank other) :
    widest words = level := by
  have found : accessLevels.find? words.contains = some level :=
    find?_eq_some_iff_idxOf.mpr ⟨known, List.contains_iff_mem.mpr named,
      fun other listed here => least other listed (List.contains_iff_mem.mp here)⟩
  rw [widest, found, Option.getD_some]

private theorem widest_of_none {words : List String}
    (none : ∀ level ∈ accessLevels, level ∉ words) :
    widest words = "internal" := by
  have missed : accessLevels.find? words.contains = .none :=
    List.find?_eq_none.mpr fun level listed here =>
      none level listed (List.contains_iff_mem.mp here)
  rw [widest, missed, Option.getD_none]

/-- The widest level is the least narrow one that is named, if one is named. -/
theorem widest_cases (words : List String) :
    (widest words ∈ accessLevels ∧ widest words ∈ words ∧
      ∀ other ∈ accessLevels, other ∈ words → accessRank (widest words) ≤ accessRank other) ∨
    ((∀ level ∈ accessLevels, level ∉ words) ∧ widest words = "internal") := by
  cases found : accessLevels.find? words.contains with
  | none =>
      have none : ∀ level ∈ accessLevels, level ∉ words := fun level listed named =>
        List.find?_eq_none.mp found level listed (List.contains_iff_mem.mpr named)
      exact Or.inr ⟨none, widest_of_none none⟩
  | some level =>
      obtain ⟨known, named, least⟩ := find?_eq_some_iff_idxOf.mp found
      have same : widest words = level := by rw [widest, found, Option.getD_some]
      rw [same]
      exact Or.inl ⟨known, List.contains_iff_mem.mp named,
        fun other listed here => least other listed (List.contains_iff_mem.mpr here)⟩

private theorem widest_congr {words others : List String}
    (same : ∀ level ∈ accessLevels, level ∈ words ↔ level ∈ others) :
    widest words = widest others := by
  rcases widest_cases others with ⟨known, named, least⟩ | ⟨none, internal⟩
  · exact widest_eq known ((same _ known).mpr named) fun other listed here =>
      least other listed ((same other listed).mp here)
  · rw [internal]
    exact widest_of_none fun level listed named => none level listed ((same level listed).mp named)

/-- A list of modifiers gives the widest of the levels that it names, for the setter or not. -/
theorem accessLevel_modifierText (modifiers : List Modifier) :
    accessLevel (modifierText modifiers) = widest (modifiers.map Modifier.word) := by
  change widest (textsFound Pattern.word (modifierText modifiers)) = _
  rw [textsFound_modifierText]
  refine widest_congr fun level listed => ?_
  rw [List.mem_flatMap, List.mem_map]
  constructor
  · rintro ⟨modifier, member, named⟩
    rcases List.mem_cons.mp named with same | marked
    · exact ⟨modifier, member, same.symm⟩
    · split at marked
      · rw [List.mem_singleton.mp marked] at listed
        exact absurd listed (by decide)
      · cases marked
  · rintro ⟨modifier, member, rfl⟩
    exact ⟨modifier, member, List.mem_cons_self⟩

/-! ### Modifiers of the setter -/

def plainLevel (modifiers : List Modifier) : String :=
  widest ((modifiers.filter fun modifier => !modifier.forSetter).map Modifier.word)

private theorem mem_plain {modifiers : List Modifier} {level : String} :
    level ∈ (modifiers.filter fun modifier => !modifier.forSetter).map Modifier.word ↔
      ∃ modifier ∈ modifiers, modifier.forSetter = false ∧ modifier.word = level := by
  simp only [List.mem_map, List.mem_filter, Bool.not_eq_true', and_assoc]

private theorem Modifier.isAccess_iff {modifier : Modifier} :
    modifier.isAccess = true ↔ modifier.word ∈ accessLevels :=
  List.contains_iff_mem

/-- What is named for the setter adds nothing to the other modifiers: each such level is matched by
a plain one that is as wide, or there is no plain one and what is named is the default. -/
def SettersAddNothing (modifiers : List Modifier) : Prop :=
  (∀ setter ∈ modifiers, setter.isAccess = true → setter.forSetter = true →
    ∃ plain ∈ modifiers, plain.isAccess = true ∧ plain.forSetter = false ∧
      accessRank plain.word ≤ accessRank setter.word) ∨
  ((∀ modifier ∈ modifiers, modifier.isAccess = true → modifier.forSetter = true) ∧
    (∃ setter ∈ modifiers, setter.word = "internal") ∧
    ∀ setter ∈ modifiers, setter.isAccess = true → accessRank "internal" ≤ accessRank setter.word)

private theorem settersAddNothing_of_eq {modifiers : List Modifier}
    (same : widest (modifiers.map Modifier.word) = plainLevel modifiers) :
    SettersAddNothing modifiers := by
  rcases widest_cases (modifiers.map Modifier.word) with ⟨known, named, least⟩ | ⟨none, _⟩
  · have least : ∀ modifier ∈ modifiers, modifier.isAccess = true →
        accessRank (plainLevel modifiers) ≤ accessRank modifier.word := by
      intro modifier member access
      rw [← same]
      exact least _ (Modifier.isAccess_iff.mp access) (List.mem_map_of_mem member)
    rcases widest_cases ((modifiers.filter fun modifier => !modifier.forSetter).map Modifier.word)
      with ⟨plainKnown, plainNamed, _⟩ | ⟨plainNone, internal⟩
    · obtain ⟨plain, member, unmarked, level⟩ := mem_plain.mp plainNamed
      refine Or.inl fun setter listed access _ => ⟨plain, member, ?_, unmarked, ?_⟩
      · rw [Modifier.isAccess_iff, level]
        exact plainKnown
      · rw [level]
        exact least setter listed access
    · have internal : plainLevel modifiers = "internal" := internal
      rw [internal] at same least
      rw [same] at named
      refine Or.inr ⟨fun modifier member access => ?_, List.mem_map.mp named, least⟩
      by_cases marked : modifier.forSetter = true
      · exact marked
      · refine absurd (mem_plain.mpr ⟨modifier, member, ?_, rfl⟩)
          (plainNone _ (Modifier.isAccess_iff.mp access))
        exact Bool.eq_false_iff.mpr marked
  · refine Or.inl fun setter member access _ => ?_
    exact absurd (List.mem_map_of_mem member) (none _ (Modifier.isAccess_iff.mp access))

private theorem eq_of_settersAddNothing {modifiers : List Modifier}
    (nothing : SettersAddNothing modifiers) :
    widest (modifiers.map Modifier.word) = plainLevel modifiers := by
  rcases nothing with matched | ⟨marked, ⟨setter, member, internal⟩, least⟩
  · rcases widest_cases ((modifiers.filter fun modifier => !modifier.forSetter).map Modifier.word)
      with ⟨known, named, least⟩ | ⟨none, internal⟩
    · obtain ⟨plain, plainMember, unmarked, level⟩ := mem_plain.mp named
      refine widest_eq known (List.mem_map.mpr ⟨plain, plainMember, level⟩) ?_
      intro other listed here
      obtain ⟨modifier, member, rfl⟩ := List.mem_map.mp here
      cases forSetter : modifier.forSetter with
      | false => exact least _ listed (mem_plain.mpr ⟨modifier, member, forSetter, rfl⟩)
      | true =>
          obtain ⟨wide, wideMember, access, wideUnmarked, wider⟩ :=
            matched modifier member (Modifier.isAccess_iff.mpr listed) forSetter
          exact Nat.le_trans (least _ (Modifier.isAccess_iff.mp access)
            (mem_plain.mpr ⟨wide, wideMember, wideUnmarked, rfl⟩)) wider
    · refine Eq.trans (widest_of_none fun level listed here => ?_) internal.symm
      obtain ⟨modifier, member, rfl⟩ := List.mem_map.mp here
      cases forSetter : modifier.forSetter with
      | false => exact none _ listed (mem_plain.mpr ⟨modifier, member, forSetter, rfl⟩)
      | true =>
          obtain ⟨wide, wideMember, access, wideUnmarked, _⟩ :=
            matched modifier member (Modifier.isAccess_iff.mpr listed) forSetter
          exact none _ (Modifier.isAccess_iff.mp access)
            (mem_plain.mpr ⟨wide, wideMember, wideUnmarked, rfl⟩)
  · have plain : plainLevel modifiers = "internal" := widest_of_none fun level listed here => by
      obtain ⟨modifier, member, unmarked, rfl⟩ := mem_plain.mp here
      cases unmarked.symm.trans (marked modifier member (Modifier.isAccess_iff.mpr listed))
    rw [plain]
    refine widest_eq (by decide) (List.mem_map.mpr ⟨setter, member, internal⟩) ?_
    intro other listed here
    obtain ⟨modifier, inside, rfl⟩ := List.mem_map.mp here
    exact least modifier inside (Modifier.isAccess_iff.mpr listed)

/-- One more level changes the widest one unless a level that is as wide is named, or none is named
and it is the default. -/
theorem widest_cons_eq_iff {words : List String} {level : String} (known : level ∈ accessLevels) :
    widest (level :: words) = widest words ↔
      (∃ other ∈ words, other ∈ accessLevels ∧ accessRank other ≤ accessRank level) ∨
        (level = "internal" ∧ ∀ other ∈ words, other ∉ accessLevels) := by
  rcases widest_cases words with ⟨widestKnown, named, least⟩ | ⟨none, internal⟩
  · constructor
    · intro same
      rcases widest_cases (level :: words) with ⟨_, _, leastOfAll⟩ | ⟨none, _⟩
      · rw [same] at leastOfAll
        exact Or.inl ⟨_, named, widestKnown, leastOfAll level known List.mem_cons_self⟩
      · exact absurd List.mem_cons_self (none level known)
    · rintro (⟨other, member, listed, wider⟩ | ⟨_, unnamed⟩)
      · refine widest_eq widestKnown (List.mem_cons_of_mem _ named) fun third here inside => ?_
        rcases List.mem_cons.mp inside with rfl | later
        · exact Nat.le_trans (least other listed member) wider
        · exact least third here later
      · exact absurd widestKnown (unnamed _ named)
  · have alone : widest (level :: words) = level := by
      refine widest_eq known List.mem_cons_self fun other listed here => ?_
      rcases List.mem_cons.mp here with rfl | later
      · exact Nat.le_refl _
      · exact absurd later (none other listed)
    rw [alone, internal]
    constructor
    · exact fun same => Or.inr ⟨same, fun other member listed => none other listed member⟩
    · rintro (⟨other, member, listed, _⟩ | ⟨same, _⟩)
      · exact absurd member (none other listed)
      · exact same

private theorem widest_insert (before after : List Modifier) (modifier : Modifier) :
    widest ((before ++ modifier :: after).map Modifier.word) =
      widest (modifier.word :: (before ++ after).map Modifier.word) := by
  refine widest_congr fun level _ => ?_
  simp only [List.map_append, List.map_cons, List.mem_append, List.mem_cons]
  exact or_left_comm

/-- The access of a declaration, from its modifiers.  What is taken for modifiers is the text of a
list of them.  Level and visibility depend only on which access levels are named.  They are those of
the modifiers which are not for the setter just if the others add nothing; and one more modifier for
the setter changes nothing just if an access level that is as wide is named already, or none is and
it names the default. -/
theorem access_told_by_plain_iff (listed : List Modifier) :
    (∀ before taken after : List Char,
      Ends (before ++ (taken ++ after)).toArray modifiers before.length
          (before.length + taken.length) ↔
        ∃ given : List Modifier, taken = modifierText given) ∧
    (∀ others : List Modifier,
      (∀ level ∈ accessLevels, (∃ modifier ∈ listed, modifier.word = level) ↔
        ∃ modifier ∈ others, modifier.word = level) →
      accessLevel (modifierText listed) = accessLevel (modifierText others) ∧
        visibility? (modifierText listed) = visibility? (modifierText others)) ∧
    ((accessLevel (modifierText listed) = plainLevel listed ∧
        visibility? (modifierText listed) = visibilityFor? (plainLevel listed)) ↔
      SettersAddNothing listed) ∧
    ∀ (place : Nat) (setter : Modifier), setter.isAccess = true → setter.forSetter = true →
      ((accessLevel (modifierText (listed.take place ++ setter :: listed.drop place)) =
          accessLevel (modifierText listed) ∧
        visibility? (modifierText (listed.take place ++ setter :: listed.drop place)) =
          visibility? (modifierText listed)) ↔
        (∃ modifier ∈ listed, modifier.isAccess = true ∧
          accessRank modifier.word ≤ accessRank setter.word) ∨
        (setter.word = "internal" ∧ ∀ modifier ∈ listed, modifier.isAccess = false)) := by
  have level : ∀ {left right : String},
      left = right ∧ visibilityFor? left = visibilityFor? right ↔ left = right :=
    and_iff_left_of_imp (congrArg visibilityFor?)
  unfold visibility?
  refine ⟨fun _ _ _ => ends_modifiers_iff, fun others same => ?_, ?_, ?_⟩
  · refine level.mpr ?_
    rw [accessLevel_modifierText, accessLevel_modifierText]
    refine widest_congr fun level known => ?_
    rw [List.mem_map, List.mem_map]
    exact same level known
  · rw [level, accessLevel_modifierText]
    exact ⟨settersAddNothing_of_eq, eq_of_settersAddNothing⟩
  · intro place setter access _
    rw [level, accessLevel_modifierText, accessLevel_modifierText, widest_insert,
      List.take_append_drop, widest_cons_eq_iff (Modifier.isAccess_iff.mp access),
      List.forall_mem_map]
    simp only [← Bool.not_eq_true, Modifier.isAccess_iff]
    refine or_congr_left ⟨?_, ?_⟩
    · rintro ⟨_, named, known, wider⟩
      obtain ⟨modifier, member, rfl⟩ := List.mem_map.mp named
      exact ⟨modifier, member, known, wider⟩
    · rintro ⟨modifier, member, known, wider⟩
      exact ⟨_, List.mem_map_of_mem member, known, wider⟩

def Modifier.spaced (word : String) (forSetter : Bool) (known : word ∈ modifierWords) : Modifier :=
  ⟨word, forSetter, [' '], known, List.cons_ne_nil _ _, by simp [Text.isGap]⟩

/-- A private setter takes nothing from a public property. -/
theorem privateSetter_of_public :
    accessLevel "public private(set) static ".toList = accessLevel "public static ".toList ∧
      visibility? "public private(set) static ".toList = visibility? "public static ".toList := by
  have kept := ((access_told_by_plain_iff
    [.spaced "public" false (by decide), .spaced "static" false (by decide)]).2.2.2
    1 (.spaced "private" true (by decide)) rfl rfl).mpr
    (Or.inl ⟨_, List.mem_cons_self, rfl, by decide⟩)
  have marked : modifierText ([.spaced "public" false (by decide)] ++
      .spaced "private" true (by decide) :: [.spaced "static" false (by decide)]) =
      "public private(set) static ".toList := by decide +kernel
  have plain : modifierText [.spaced "public" false (by decide),
      .spaced "static" false (by decide)] = "public static ".toList := by decide +kernel
  rw [plain] at kept
  rwa [← marked]

/-- A property that names a level only for its setter is given that level. -/
theorem setter_taken_for_declaration :
    modifierText [.spaced "private" true (by decide)] = "private(set) ".toList ∧
      accessLevel (modifierText []) = "internal" ∧ visibility? (modifierText []) = none ∧
      accessLevel "private(set) ".toList = "private" ∧
      visibility? "private(set) ".toList = some "private" := by
  decide +kernel

end SourceOutline.Swift
