import SourceOutline.Dart.Declaration
import SourceOutline.Proofs.Pattern.Spelling
import SourceOutline.Proofs.Source.Body
import SourceOutline.Proofs.Source.Location
import SourceOutline.Proofs.Text.CommaJoin

set_option autoImplicit false

/-! Where the values of an enumeration stand.

The list of values is cut at its commas, and comments in an item are made blank before its name is
looked for.  Neither moves a character, so the name of a value stands in the file where it was found
in its item. -/

namespace SourceOutline

/-! ### Items of a list -/

namespace Text

def ListItem.StandsIn (item : ListItem) (list : List Char) : Prop :=
  ∃ before after, list = before ++ (item.text ++ after) ∧ item.offset = before.length

namespace ListItem.StandsIn

variable {item : ListItem} {list : List Char}

private theorem stop_le (stands : item.StandsIn list) :
    item.offset + item.text.length ≤ list.length := by
  obtain ⟨before, after, same, place⟩ := stands
  simp only [same, place, List.length_append]
  omega

private theorem read (stands : item.StandsIn list) {place : Nat} {c : Char}
    (here : item.text[place]? = some c) : list[item.offset + place]? = some c := by
  obtain ⟨before, after, same, offset⟩ := stands
  obtain ⟨inside, _⟩ := List.getElem?_eq_some_iff.mp here
  rw [same, offset, List.getElem?_append_right (Nat.le_add_right _ _), Nat.add_sub_cancel_left,
    List.getElem?_append_left inside]
  exact here

private theorem extend {whole : List Char} (stands : item.StandsIn list) (starts : list <+: whole) :
    item.StandsIn whole := by
  obtain ⟨before, after, same, place⟩ := stands
  obtain ⟨rest, rfl⟩ := starts
  exact ⟨before, after ++ rest, by simp [same], place⟩

end ListItem.StandsIn

end Text

/-! ### Texts made blank -/

private theorem Pattern.size_blankOut (pattern : Pattern) (text : Array Char) :
    (pattern.blankOut text).size = text.size := by
  simp [blankOut]

/-- What is visible in a text with comments made blank is in the text itself. -/
theorem Pattern.read_of_blankOut {pattern : Pattern} {text : Array Char} {place : Nat} {c : Char}
    (read : (pattern.blankOut text)[place]? = some c) (visible : c ≠ ' ') :
    text[place]? = some c := by
  unfold blankOut at read
  rw [Array.getElem?_mapIdx] at read
  obtain ⟨original, here, same⟩ := Option.map_eq_some_iff.mp read
  split at same
  · exact absurd same.symm visible
  · rw [← same]
    exact here

/-! ### Slices -/

theorem Source.length_slice (source : Source) {start stop : Nat} (inside : stop ≤ source.size) :
    (source.slice start stop).length = stop - start := by
  unfold slice
  rw [Array.length_toList, Array.size_extract]
  exact congrArg (· - start) (Nat.min_eq_left inside)

private theorem Source.read_of_slice {source : Source} {start stop place : Nat} {c : Char}
    (read : (source.slice start stop)[place]? = some c) : source.text[start + place]? = some c := by
  unfold slice at read
  rw [Array.getElem?_toList, Array.getElem?_extract] at read
  split at read
  · exact read
  · cases read

/-- A word that is visible in an item with comments made blank stands in the file where the item
does. -/
theorem Source.slice_of_word {source : Source} {start stop : Nat} {item : Text.ListItem}
    (stands : item.StandsIn (source.slice start stop)) {pattern : Pattern} {first last : Nat}
    (word : Pattern.Takes (pattern.blankOut item.text.toArray) Text.isWord first last) :
    source.slice (start + item.offset + first) (start + item.offset + last) =
      ((pattern.blankOut item.text.toArray).extract first last).toList := by
  apply List.ext_getElem?
  intro offset
  rw [slice_eq, Array.toList_extract, List.extract_eq_take_drop, List.getElem?_take,
    List.getElem?_take, List.getElem?_drop, List.getElem?_drop]
  by_cases inside : offset < last - first
  · obtain ⟨c, blanked, wordly⟩ :=
      Pattern.acceptedAt_iff.mp (word.2 (first + offset) (by omega) (by omega))
    have other : c ≠ ' ' := by
      rintro rfl
      cases wordly
    have read := read_of_slice
      (stands.read (by simpa using Pattern.read_of_blankOut blanked other))
    rw [if_pos (by omega), if_pos inside, Array.getElem?_toList, Array.getElem?_toList, blanked,
      ← read, Nat.add_assoc, Nat.add_assoc]
  · rw [if_neg (by omega), if_neg inside]

/-! ### Values -/

namespace Dart

/-- A value has a name, which is a word. -/
theorem name_of_matchAt? {text : Array Char} {found : Match}
    (matched : enumValuePattern.matchAt? text 0 = some found) :
    ∃ first last, found.part? .name = some (first, last) ∧ first < last ∧ last ≤ text.size ∧
      Pattern.Takes text Text.isWord first last ∧
      Pattern.acceptedAt text (fun c => !Text.isBlank c) first = true := by
  obtain ⟨first, last, here, word, _⟩ :=
    @Pattern.part?_of_around? _ .name enumValuePattern _ rfl _ found matched
  obtain ⟨forward, taken⟩ := Pattern.ends_run.mp word
  have bound := word.le_size
  obtain ⟨_, marked⟩ := word.opens Pattern.word_opens
  have early := Pattern.acceptedAt_lt marked
  exact ⟨first, last, here, forward, by omega, taken, Pattern.shown_of_marked marked⟩

/-- The node of a value covers its name, which lies in its item, and tells the name. -/
theorem enumValueNode?_covers {source : Source} {start stop : Nat} {item : Text.ListItem}
    (member : item ∈ Text.commaItems (Text.before ';' (source.slice start stop))) {node : Node}
    (made : enumValueNode? source start item = some node) (inside : stop ≤ source.size) :
    ∃ label first last, node = .node label [] ∧ label.tag = "enum_value" ∧
      label.metadata = [("enum_value", .text label.value)] ∧ node.Covers source first last ∧
      start + item.offset ≤ first ∧ last ≤ start + item.offset + item.text.length ∧
      start + item.offset + item.text.length ≤ stop := by
  unfold enumValueNode? at made
  dsimp only at made
  obtain ⟨found, matched, rfl⟩ := Option.map_eq_some_iff.mp made
  obtain ⟨first, last, here, forward, bound, word, visible⟩ := name_of_matchAt? matched
  have firstEq : found.partStart .name = first := by rw [Match.partStart, here]; rfl
  have lastEq : found.partStop .name = last := by rw [Match.partStop, here]; rfl
  have listed : item.StandsIn _ := (Text.commaItems_stand member).2
  have stands := listed.extend (List.takeWhile_prefix _)
  have within := stands.stop_le
  rw [Source.length_slice source inside] at within
  have name := Source.slice_of_word stands word
  have length := congrArg List.length name
  rw [Pattern.size_blankOut, List.size_toArray] at bound
  rw [Source.length_slice source (by omega)] at length
  have stopEq : start + item.offset + first +
      ((commentPattern.blankOut item.text.toArray).extract first last).toList.length =
        start + item.offset + last := by omega
  rw [firstEq, lastEq, stopEq, ← name]
  -- the first character of a name is visible, so there are no blanks to leave out
  obtain ⟨c, blanked, shown⟩ := Pattern.acceptedAt_iff.mp visible
  have other : c ≠ ' ' := by
    rintro rfl
    cases shown
  have read := Source.read_of_slice
    (stands.read (by simpa using Pattern.read_of_blankOut blanked other))
  rw [← Nat.add_assoc] at read
  have begins : source.skipBlanks (start + item.offset + first) (start + item.offset + last) =
      start + item.offset + first := by
    obtain ⟨after, before⟩ := Source.skipBlanks_bounds (Nat.le_refl _)
      (Pattern.acceptedAt_iff.mpr ⟨c, read, shown⟩) (start + item.offset + last)
    exact Nat.le_antisymm before after
  have covers : Node.Covers source (start + item.offset + first) (start + item.offset + last)
      (source.declaration "enum_value" (start + item.offset + first) (start + item.offset + last)
        [("enum_value", .ofChars (source.slice (start + item.offset + first)
          (start + item.offset + last)))]) := by
    refine ⟨by omega, by omega, ?_, ?_⟩
    · simp only [Source.declaration, Node.span, begins]
    · simp only [Source.declaration, Node.value, begins]
  refine ⟨_, _, _, rfl, rfl, ?_, covers, by omega, by omega, by omega⟩
  simp only [begins]
  rfl

end Dart

end SourceOutline
