import SourceOutline.Text.Blank
import SourceOutline.Text.Piece

set_option autoImplicit false

/-! Parts of a text: blanks around it, and what stands before and behind marks in it. -/

namespace SourceOutline.Text

/-! ### Blanks around a text -/

private theorem exists_trimEnd (chars : List Char) :
    ∃ trail, chars = trimEnd chars ++ trail ∧ ∀ c ∈ trail, isBlank c = true := by
  refine ⟨(chars.reverse.takeWhile isBlank).reverse, ?_, ?_⟩
  · unfold trimEnd dropEnd
    rw [← List.reverse_append, List.takeWhile_append_dropWhile, List.reverse_reverse]
  · intro c member
    exact List.all_eq_true.mp List.all_takeWhile c (List.mem_reverse.mp member)

/-- A text is what is left when it is trimmed, with blanks around it. -/
theorem exists_trim (chars : List Char) :
    ∃ lead trail, chars = lead ++ trim chars ++ trail ∧ (∀ c ∈ lead, isBlank c = true) ∧
      (∀ c ∈ trail, isBlank c = true) ∧ ∀ c rest, trim chars = c :: rest → isBlank c = false := by
  obtain ⟨trail, whole, behind⟩ := exists_trimEnd (trimStart chars)
  refine ⟨chars.takeWhile isBlank, trail, ?_, List.all_eq_true.mp List.all_takeWhile, behind, ?_⟩
  · rw [trim, List.append_assoc, ← whole, trimStart, List.takeWhile_append_dropWhile]
  · intro c rest first
    have head := List.head?_dropWhile_not isBlank chars
    rw [show chars.dropWhile isBlank = c :: (rest ++ trail) from
      whole.trans (congrArg (· ++ trail) first)] at head
    exact head

theorem length_trim_le (text : List Char) : (trim text).length ≤ text.length := by
  obtain ⟨lead, trail, whole, -⟩ := exists_trim text
  have lengths := congrArg List.length whole
  simp only [List.length_append] at lengths
  omega

/-- A character at the end of a text that is not blank stays at the end. -/
theorem getLast?_trim {text : List Char} {c : Char} (last : text.getLast? = some c)
    (shown : isBlank c = false) : (trim text).getLast? = some c := by
  obtain ⟨lead, trail, whole, before, behind, -⟩ := exists_trim text
  rw [whole] at last
  have noTrail : trail.getLast? = none := by
    cases ending : trail.getLast? with
    | none => rfl
    | some d =>
        rw [List.getLast?_append, ending] at last
        obtain rfl : d = c := Option.some.inj last
        rw [behind d (List.mem_of_getLast? ending)] at shown
        exact Bool.noConfusion shown
  rw [List.getLast?_append, noTrail, Option.none_or, List.getLast?_append] at last
  cases ending : (trim text).getLast? with
  | some d => rw [ending] at last; exact last
  | none =>
      rw [ending, Option.none_or] at last
      rw [before c (List.mem_of_getLast? last)] at shown
      exact Bool.noConfusion shown

/-! ### Before and behind marks -/

theorem exists_before (mark : Char) (chars : List Char) :
    ∃ tail, chars = before mark chars ++ tail ∧ ∀ c rest, tail = c :: rest → c = mark := by
  refine ⟨chars.dropWhile (· != mark), List.takeWhile_append_dropWhile.symm, ?_⟩
  intro c rest first
  have head := List.head?_dropWhile_not (· != mark) chars
  rw [first] at head
  simpa using head

section

variable {c : Char} {tail : List Char}

/-- Either there is no mark and what was kept stays, or the text is parted at its last mark. -/
theorem afterLastFrom_parts (kept text : List Char) :
    (occurs (c :: tail) text = false ∧ afterLastFrom (c :: tail) kept text = kept) ∨
      (occurs (c :: tail) text = true ∧
        occurs (c :: tail) (tail ++ afterLastFrom (c :: tail) kept text) = false ∧
        ∃ front, text = front ++ (c :: tail ++ afterLastFrom (c :: tail) kept text)) := by
  induction text generalizing kept with
  | nil => exact Or.inl ⟨rfl, rfl⟩
  | cons first rest ih =>
      rw [occurs, afterLastFrom]
      split
      · rename_i marked
        have whole : first :: rest = c :: tail ++ (first :: rest).drop (c :: tail).length :=
          (List.prefix_iff_eq_append.mp (List.isPrefixOf_iff_prefix.mp marked)).symm
        refine Or.inr ⟨by rw [marked, Bool.true_or], ?_⟩
        rcases ih ((first :: rest).drop (c :: tail).length) with
          ⟨unmarked, same⟩ | ⟨_, last, front, parted⟩
        · rw [same]
          refine ⟨?_, [], whole⟩
          rw [show tail ++ (first :: rest).drop (c :: tail).length = rest from
            (List.cons.inj whole).2.symm]
          exact unmarked
        · exact ⟨last, first :: front, congrArg (first :: ·) parted⟩
      · rename_i unmarked
        rw [Bool.eq_false_iff.mpr unmarked, Bool.false_or]
        rcases ih kept with none | ⟨found, last, front, parted⟩
        · exact Or.inl none
        · exact Or.inr ⟨found, last, first :: front, congrArg (first :: ·) parted⟩

private theorem afterLastFrom_mark (kept text : List Char) :
    afterLastFrom (c :: tail) kept (c :: tail ++ text) =
      afterLastFrom (c :: tail) text (tail ++ text) := by
  rw [List.cons_append, afterLastFrom, ← List.cons_append,
    if_pos (List.isPrefixOf_iff_prefix.mpr (List.prefix_append _ _)), List.drop_left]

/-- What stands before a mark has no effect on what stands behind the last one. -/
theorem afterLast_append (front text : List Char) :
    afterLast (c :: tail) (front ++ (c :: tail ++ text)) =
      afterLast (c :: tail) (c :: tail ++ text) := by
  have walked : ∀ kept, afterLastFrom (c :: tail) kept (front ++ (c :: tail ++ text)) =
      afterLastFrom (c :: tail) text (tail ++ text) := by
    induction front with
    | nil => exact fun kept => afterLastFrom_mark kept text
    | cons first rest ih =>
        intro kept
        rw [List.cons_append, afterLastFrom]
        split
        · exact ih _
        · exact ih _
  exact (walked _).trans (afterLastFrom_mark _ text).symm

/-- Behind a mark stands the text, or what is behind a mark that begins later. -/
theorem afterLast_mark_parts (text : List Char) :
    (occurs (c :: tail) (tail ++ text) = false ∧
        afterLast (c :: tail) (c :: tail ++ text) = text) ∨
      (occurs (c :: tail) (tail ++ text) = true ∧
        occurs (c :: tail) (tail ++ afterLast (c :: tail) (c :: tail ++ text)) = false ∧
        ∃ front, tail ++ text =
          front ++ (c :: tail ++ afterLast (c :: tail) (c :: tail ++ text))) := by
  rw [afterLast, afterLastFrom_mark]
  exact afterLastFrom_parts text (tail ++ text)

/-- What stands behind a mark is behind the last one exactly if no mark begins later. -/
theorem afterLast_mark_eq_iff (text segment : List Char) :
    afterLast (c :: tail) (c :: tail ++ text) = segment ↔
      occurs (c :: tail) (tail ++ segment) = false ∧
        ∃ front, c :: tail ++ text = front ++ (c :: tail ++ segment) := by
  constructor
  · rintro rfl
    rcases @afterLast_mark_parts c tail text with ⟨unmarked, same⟩ | ⟨_, last, front, parted⟩
    · rw [same]
      exact ⟨unmarked, [], rfl⟩
    · exact ⟨last, c :: front, congrArg (c :: ·) parted⟩
  · rintro ⟨last, front, parted⟩
    rw [parted, afterLast_append]
    rcases @afterLast_mark_parts c tail segment with ⟨_, same⟩ | ⟨marked, _⟩
    · exact same
    · rw [last] at marked
      exact Bool.noConfusion marked

theorem length_afterLast_mark_lt {text : List Char}
    (marked : occurs (c :: tail) (tail ++ text) = true) :
    (afterLast (c :: tail) (c :: tail ++ text)).length < text.length := by
  rcases @afterLast_mark_parts c tail text with ⟨unmarked, -⟩ | ⟨-, -, front, parted⟩
  · rw [marked] at unmarked
    exact Bool.noConfusion unmarked
  · have lengths := congrArg List.length parted
    simp only [List.length_append, List.length_cons] at lengths
    omega

/-- A last character that is in no mark stays the last one. -/
theorem getLast?_afterLast_mark {text : List Char} {d : Char} (last : text.getLast? = some d)
    (outside : d ∉ c :: tail) :
    (afterLast (c :: tail) (c :: tail ++ text)).getLast? = some d := by
  rcases @afterLast_mark_parts c tail text with ⟨-, same⟩ | ⟨-, -, front, parted⟩
  · rw [same, last]
  · have ends := congrArg List.getLast? parted
    rw [List.getLast?_append, last, Option.some_or, List.getLast?_append,
      List.getLast?_append] at ends
    cases behind : (afterLast (c :: tail) (c :: tail ++ text)).getLast? with
    | some e => rw [behind] at ends; exact ends.symm
    | none =>
        rw [behind, Option.none_or, List.getLast?_cons, Option.some_or] at ends
        refine absurd ?_ outside
        rw [Option.some.inj ends]
        exact List.mem_of_getLast? List.getLast?_cons

end

end SourceOutline.Text
