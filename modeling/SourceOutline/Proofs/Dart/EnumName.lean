import SourceOutline.Proofs.Dart.EnumValue
import SourceOutline.Proofs.Dart.Gap

set_option autoImplicit false

/-! The names of the values of an enumeration.

The name of a value is read off its item with comments made blank.  So it is the same with and
without blanks and comments before it, and it is told by the item alone, wherever that stands. -/

namespace SourceOutline

/-! ### Patterns that begin with blanks -/

namespace Pattern

section

variable {text : Array Char} {front : Array Char} {tail : Pattern}

private theorem takes_front {accepts : Char → Bool} (accepted : ∀ c ∈ front, accepts c = true) :
    Takes (front ++ text) accepts 0 front.size := by
  refine ⟨Nat.zero_le _, fun place _ inside => acceptedAt_iff.mpr ⟨front[place], ?_, ?_⟩⟩
  · rw [Array.getElem?_append_left inside, Array.getElem?_eq_getElem inside]
  · exact accepted _ (Array.getElem_mem inside)

private theorem spanEndings_front {accepts : Char → Bool}
    (accepted : ∀ c ∈ front, accepts c = true) :
    spanEndings (front ++ text) true accepts 0 =
      (spanEndings text true accepts 0).map (front.size + ·) ++
        (List.range' 0 front.size).reverse := by
  have reach : spanEnd (front ++ text) accepts ((front ++ text).size - 0) 0 =
      front.size + spanEnd text accepts (text.size - 0) 0 := by
    have behind := @spanEnd_behind front text accepts (text.size - 0) 0
    have same := @size_behind front text 0
    rw [Nat.add_zero] at behind same
    rw [spanEnd_of_takes (takes_front accepted), same]
    exact behind
  have all : List.range' 0 (front.size + spanEnd text accepts (text.size - 0) 0 - 0 + 1) =
      List.range' 0 front.size ++
        (List.range' 0 (spanEnd text accepts (text.size - 0) 0 - 0 + 1)).map (front.size + ·) := by
    rw [List.map_add_range', Nat.sub_zero, Nat.sub_zero, Nat.add_zero, Nat.add_assoc,
      ← List.range'_append_1, Nat.zero_add]
    rfl
  unfold spanEndings
  rw [reach, all, if_pos rfl, if_pos rfl, List.reverse_append, List.map_reverse]

/-- Blanks before a pattern that begins with blanks move its endings and change nothing else. -/
theorem endings_blanks (ahead : tail.onward = true)
    (begins : ∀ {text : Array Char} {place stop : Nat}, Ends text tail place stop →
      acceptedAt text (fun c => !Text.isBlank c) place = true)
    (blank : ∀ c ∈ front, Text.isBlank c = true) :
    endings (front ++ text) (.seq blanks tail) 0 =
      (endings text (.seq blanks tail) 0).map (moveEnding front.size) := by
  -- nothing is found at one of the blanks themselves
  have none : (((List.range' 0 front.size).reverse.map fun stop => ((stop, []) : Ending)).flatMap
      fun early => (endings (front ++ text) tail early.1).map fun last =>
        (last.1, last.2 ++ early.2)) = [] := by
    rw [List.flatMap_eq_nil_iff]
    intro early member
    obtain ⟨place, listed, rfl⟩ := List.mem_map.mp member
    have inside := (List.mem_range'_1.mp (List.mem_reverse.mp listed)).2
    rw [Nat.zero_add] at inside
    rw [List.map_eq_nil_iff, List.eq_nil_iff_forall_not_mem]
    intro ending found
    obtain ⟨c, read, shown⟩ := acceptedAt_iff.mp (begins ⟨ending.2, found⟩)
    rw [Array.getElem?_append_left inside] at read
    rw [blank c (Array.mem_of_getElem? read)] at shown
    cases shown
  rw [endings, endings, blanks, star, endings, endings, spanEndings_front blank, List.map_append,
    List.flatMap_append, none, List.append_nil, List.map_map, List.flatMap_map, List.flatMap_map,
    List.map_flatMap]
  refine congrArg (List.flatMap · _) (funext fun place => ?_)
  change (endings (front ++ text) tail (front.size + place)).map _ = _
  rw [endings_behind front ahead, List.map_map, List.map_map]
  exact List.map_congr_left fun last _ => (moveEnding_append front.size last.1 last.2 []).symm

end

end Pattern

namespace Dart

open Pattern

/-- What an item has behind the blanks before a value. -/
private def valueTail : Pattern :=
  chain [
    starOf [
      lit "@", word, optional (chain [lit "(", star (except ")"), lit ")"]), blank],
    .part .name word, blanks, optional (chain [lit "<", star (except ">"), lit ">"]), blanks,
    .either (lit "(") .textEnd]

private theorem enumValuePattern_eq : enumValuePattern = .seq blanks valueTail := rfl

private theorem valueTail_onward : valueTail.onward = true := by decide +kernel

private theorem valueTail_begins {text : Array Char} {place stop : Nat}
    (ends : Ends text valueTail place stop) :
    acceptedAt text (fun c => !Text.isBlank c) place = true := by
  obtain ⟨middle, ⟨parts, member⟩, value⟩ := ends_seq.mp ends
  have staying : middle = place → acceptedAt text (fun c => !Text.isBlank c) place = true := by
    rintro rfl
    exact shown_of_marked (value.opens (@opens_seq (.part .name word) word_opens _)).2
  change (middle, parts) ∈ repeatedEndings (endings text _) true (text.size - place) place at member
  cases fuel : text.size - place with
  | zero =>
      rw [fuel] at member
      cases List.mem_singleton.mp member
      exact staying rfl
  | succ more =>
      rw [fuel] at member
      rcases mem_repeatedEndings_succ member with here | ⟨first, inside, _⟩
      · cases here
        exact staying rfl
      · have marked : Ends text _ place first.1 := ⟨first.2, inside⟩
        exact shown_of_marked (marked.opens (by decide +kernel)).2

/-! ### Names -/

def valueName? (item : List Char) : Option (List Char) :=
  let blanked := commentPattern.blankOut item.toArray
  (enumValuePattern.matchAt? blanked 0).map fun found =>
    (blanked.extract (found.partStart .name) (found.partStop .name)).toList

/-- Blanks before an item move the parts of the match in it. -/
theorem matchAt?_blanks {blanks text : Array Char} (blank : ∀ c ∈ blanks, Text.isBlank c = true) :
    enumValuePattern.matchAt? (blanks ++ text) 0 =
      (enumValuePattern.matchAt? text 0).map fun found =>
        ⟨0, blanks.size + found.stop, moveParts blanks.size found.parts⟩ := by
  rw [matchAt?_eq, matchAt?_eq, enumValuePattern_eq,
    endings_blanks valueTail_onward valueTail_begins blank, List.head?_map, Option.map_map,
    Option.map_map]
  rfl

/-- Blanks and comments before a value have no effect on its name. -/
theorem IsGap.valueName? {gap : List Char} (isGap : IsGap gap) (rest : List Char) :
    valueName? (gap ++ rest) = valueName? rest := by
  obtain ⟨blanks, ⟨_, blank⟩, same⟩ := isGap.blankOut rest
  unfold Dart.valueName?
  dsimp only
  rw [same, matchAt?_blanks fun c member => blank c (List.mem_toArray.mp member)]
  cases matched : enumValuePattern.matchAt? (commentPattern.blankOut rest.toArray) 0 with
  | none => rfl
  | some found =>
      obtain ⟨first, last, here, _⟩ := name_of_matchAt? matched
      have moved : (moveParts blanks.toArray.size found.parts).lookup .name =
          some (blanks.toArray.size + first, blanks.toArray.size + last) := by
        rw [lookup_moveParts, show found.parts.lookup .name = some (first, last) from here]
        rfl
      simp only [Option.map_some, Match.partStart, Match.partStop, Match.part?, moved,
        show found.parts.lookup .name = some (first, last) from here, Option.elim_some]
      rw [Array.extract_append]
      simp

/-- The name of a value is told by its item, wherever the item stands. -/
theorem enumValueNode?_name (source : Source) (start : Nat) (item : Text.ListItem) :
    (enumValueNode? source start item).map (fun node => node.metadata.get? "enum_value") =
      (valueName? item.text).map fun name => some (.ofChars name) := by
  unfold enumValueNode? valueName?
  dsimp only
  rw [Option.map_map, Option.map_map]
  rfl

end Dart

end SourceOutline
