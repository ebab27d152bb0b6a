import SourceOutline.Proofs.Pattern.Language

set_option autoImplicit false

/-! What a pattern sees of the text around its match.

Most patterns look no further than at one character on each side.  So they take a text between any
two others of which these characters are alike. -/

namespace SourceOutline.Pattern

/-- Whether a pattern looks no further than at the characters next to what it takes; ahead it looks
only for one of some marks. -/
def nearby (marks : List Char) : Pattern → Bool
  | .seq first second => nearby marks first && nearby marks second
  | .either first second => nearby marks first && nearby marks second
  | .many _ body => nearby marks body
  | .part _ body => nearby marks body
  | .ahead _ (.literal [c]) => marks.contains c
  | .ahead _ _ | .behind _ _ | .lineEnd | .textEnd => false
  | _ => true

/-- What stands behind sees no difference between two texts. -/
structure EndAlike (left right : List Char) : Prop where
  word : left.getLast?.any Text.isWord = right.getLast?.any Text.isWord
  line : left = [] ∨ left.getLast? = some '\n' ↔ right = [] ∨ right.getLast? = some '\n'

/-- What stands before sees no difference between two texts, unless it looks for other characters
than some marks. -/
structure BeginAlike (marks left right : List Char) : Prop where
  word : left.head?.any Text.isWord = right.head?.any Text.isWord
  mark : ∀ c ∈ marks, left.head? = some c ↔ right.head? = some c

private theorem EndAlike.append {left right : List Char} (alike : EndAlike left right)
    (more : List Char) : EndAlike (left ++ more) (right ++ more) := by
  rcases List.eq_nil_or_concat more with rfl | ⟨front, last, rfl⟩
  · rwa [List.append_nil, List.append_nil]
  · constructor <;> simp

theorem endAlike_append {front other more : List Char} (begun : more ≠ []) :
    EndAlike (front ++ more) (other ++ more) := by
  rcases List.eq_nil_or_concat more with rfl | ⟨before, last, rfl⟩
  · exact absurd rfl begun
  · constructor <;> simp

private theorem BeginAlike.append {marks left right : List Char}
    (alike : BeginAlike marks left right)
    (front : List Char) : BeginAlike marks (front ++ left) (front ++ right) := by
  cases front with
  | nil => exact alike
  | cons c rest => exact ⟨rfl, fun _ _ => Iff.rfl⟩

theorem beginAlike_append {marks front rest other : List Char} (begun : front ≠ []) :
    BeginAlike marks (front ++ rest) (front ++ other) := by
  cases front with
  | nil => exact absurd rfl begun
  | cons c more => exact ⟨rfl, fun _ _ => Iff.rfl⟩

theorem exists_literal_iff {c : Char} {after : List Char} :
    (∃ early late, after = early ++ late ∧ early = [c]) ↔ after.head? = some c := by
  cases after with
  | nil => simp
  | cons d rest => simp [eq_comm]

private theorem StandInRow.congr {marks : List Char}
    {stands : List Char → List Char → List Char → Prop}
    (same : ∀ {before other taken after otherAfter : List Char}, EndAlike before other →
      BeginAlike marks after otherAfter → stands before taken after →
        stands other taken otherAfter)
    {before other after otherAfter : List Char} {pieces : List (List Char)}
    (ends : EndAlike before other) (begins : BeginAlike marks after otherAfter)
    (row : StandInRow stands before pieces after) : StandInRow stands other pieces otherAfter := by
  induction pieces generalizing before other with
  | nil => trivial
  | cons piece rest ih =>
      obtain ⟨begun, here, others⟩ := row
      exact ⟨begun, same ends (begins.append _) here, ih (ends.append piece) others⟩

/-- A text that a pattern takes is taken as well between two other texts which look the same. -/
theorem Stands.congr {marks : List Char} {pattern : Pattern}
    (near : pattern.nearby marks = true) {before other taken after otherAfter : List Char}
    (ends : EndAlike before other) (begins : BeginAlike marks after otherAfter)
    (stands : pattern.Stands before taken after) : pattern.Stands other taken otherAfter := by
  induction pattern generalizing before other taken after otherAfter with
  | nothing | literal | one | span => exact stands
  | seq first second inFirst inSecond =>
      rw [nearby, Bool.and_eq_true] at near
      obtain ⟨early, late, same, left, right⟩ := stands
      exact ⟨early, late, same, inFirst near.1 ends (begins.append late) left,
        inSecond near.2 (ends.append early) begins right⟩
  | either first second inFirst inSecond =>
      rw [nearby, Bool.and_eq_true] at near
      rcases stands with left | right
      · exact Or.inl (inFirst near.1 ends begins left)
      · exact Or.inr (inSecond near.2 ends begins right)
  | many eager body inBody =>
      obtain ⟨pieces, same, row⟩ := stands
      exact ⟨pieces, same,
        @StandInRow.congr marks body.Stands (inBody near) _ _ _ _ _ ends begins row⟩
  | part which body inBody => exact inBody near ends begins stands
  | ahead wanted body _ =>
      cases body with
      | literal chars =>
          cases chars with
          | nil => cases near
          | cons c rest =>
              cases rest with
              | cons second more => cases near
              | nil =>
                  obtain ⟨empty, seen⟩ := stands
                  refine ⟨empty, ?_⟩
                  have mark := begins.mark c (List.contains_iff_mem.mp near)
                  exact exists_literal_iff.trans
                    (mark.symm.trans (exists_literal_iff.symm.trans seen))
      | _ => cases near
  | lineStart => exact ⟨stands.1, ends.line.mp stands.2⟩
  | wordEdge =>
      refine ⟨stands.1, ?_⟩
      rw [← ends.word, ← begins.word]
      exact stands.2
  | behind | lineEnd | textEnd => cases near

/-! ### Texts that end with a character that is not blank -/

/-- Whether every match ends with a character that is not blank. -/
def endsShown : Pattern → Bool
  | .literal chars => chars.getLast?.any fun c => !Text.isBlank c
  | .seq first second => endsShown second || (second.isStill && endsShown first)
  | _ => false

private theorem Stands.eq_nil_of_isStill {pattern : Pattern} (still : pattern.isStill = true)
    {before taken after : List Char} (stands : pattern.Stands before taken after) : taken = [] := by
  cases pattern with
  | nothing => exact stands
  | ahead | behind | lineStart | lineEnd | textEnd | wordEdge => exact stands.1
  | literal | one | span | seq | either | many | part => cases still

theorem Stands.shown {pattern : Pattern} (shown : pattern.endsShown = true)
    {before taken after : List Char} (stands : pattern.Stands before taken after) :
    ∃ c, taken.getLast? = some c ∧ Text.isBlank c = false := by
  induction pattern generalizing before taken after with
  | literal chars =>
      rw [show taken = chars from stands]
      rw [endsShown] at shown
      cases last : chars.getLast? with
      | none => rw [last] at shown; cases shown
      | some c =>
          rw [last, Option.any_some, Bool.not_eq_true'] at shown
          exact ⟨c, rfl, shown⟩
  | seq first second inFirst inSecond =>
      rw [endsShown, Bool.or_eq_true, Bool.and_eq_true] at shown
      obtain ⟨early, late, rfl, left, right⟩ := stands
      rcases shown with second | ⟨still, first⟩
      · obtain ⟨c, last, seen⟩ := inSecond second right
        exact ⟨c, by rw [List.getLast?_append, last]; rfl, seen⟩
      · rw [right.eq_nil_of_isStill still, List.append_nil]
        exact inFirst first left
  | _ => cases shown

/-! ### A stretch in the middle of a text -/

def EndsIn (accepts : Char → Bool) (chars : List Char) : Prop :=
  ∀ c ∈ chars.getLast?, accepts c = true

theorem endsIn_append {accepts : Char → Bool} {more : List Char} (begun : more ≠ [])
    (each : ∀ c ∈ more, accepts c = true) (front : List Char) : EndsIn accepts (front ++ more) := by
  rcases List.eq_nil_or_concat more with rfl | ⟨early, last, rfl⟩
  · exact absurd rfl begun
  · intro c final
    rw [List.concat_eq_append, ← List.append_assoc, List.getLast?_concat] at final
    cases final
    exact each last (by simp)

theorem EndsIn.append {accepts : Char → Bool} {front more : List Char} (ends : EndsIn accepts front)
    (each : ∀ c ∈ more, accepts c = true) : EndsIn accepts (front ++ more) := by
  by_cases begun : more = []
  · rwa [begun, List.append_nil]
  · exact endsIn_append begun each front

section

variable {marks : List Char} {pattern : Pattern} {front middle other back : List Char}

/-- A pattern takes something that ends before the middle of a text, or begins behind it with
something in between. -/
def TakesClear (pattern : Pattern) (front middle back : List Char) : Prop :=
  ∃ before taken after, front ++ (middle ++ back) = before ++ (taken ++ after) ∧
    pattern.Stands before taken after ∧
      (before.length + taken.length ≤ front.length ∨ front.length + middle.length < before.length)

/-- A pattern takes something that begins before the end of the middle of a text, and ends behind
the start of it. -/
def TakesAcross (pattern : Pattern) (front middle back : List Char) : Prop :=
  ∃ before taken after, front ++ (middle ++ back) = before ++ (taken ++ after) ∧
    pattern.Stands before taken after ∧
      before.length < front.length + middle.length ∧ front.length < before.length + taken.length

def TakesNext (pattern : Pattern) (front middle back : List Char) : Prop :=
  ∃ taken after, back = taken ++ after ∧ pattern.Stands (front ++ middle) taken after

theorem occursIn_iff_takes {text : Array Char} (whole : text.toList = front ++ (middle ++ back)) :
    pattern.occursIn text = true ↔
      pattern.TakesClear front middle back ∨ pattern.TakesAcross front middle back ∨
        pattern.TakesNext front middle back := by
  rw [occursIn_iff_stands, whole]
  constructor
  · rintro ⟨before, taken, after, parts, stands⟩
    by_cases clear : before.length + taken.length ≤ front.length ∨
        front.length + middle.length < before.length
    · exact Or.inl ⟨before, taken, after, parts, stands, clear⟩
    · by_cases starts : before.length = front.length + middle.length
      · have split := parts
        rw [← List.append_assoc] at split
        obtain ⟨rfl, rest⟩ := List.append_inj split (by rw [List.length_append, starts])
        exact Or.inr (Or.inr ⟨taken, after, rest, stands⟩)
      · exact Or.inr (Or.inl ⟨before, taken, after, parts, stands, by omega, by omega⟩)
  · rintro (⟨before, taken, after, parts, stands, _⟩ | ⟨before, taken, after, parts, stands, _⟩ |
      ⟨taken, after, rfl, stands⟩)
    · exact ⟨before, taken, after, parts, stands⟩
    · exact ⟨before, taken, after, parts, stands⟩
    · exact ⟨front ++ middle, taken, after, by rw [List.append_assoc], stands⟩

private theorem exists_rest_of_le {left right start rest : List Char}
    (same : start ++ rest = left ++ right)
    (le : left.length ≤ start.length) : ∃ more, start = left ++ more ∧ right = more ++ rest := by
  obtain ⟨more, rfl⟩ := List.prefix_of_prefix_length_le (List.prefix_append left right)
    (same ▸ List.prefix_append start rest) le
  rw [List.append_assoc] at same
  exact ⟨more, rfl, (List.append_cancel_left same).symm⟩

/-- What is clear of the middle does not see what the middle is, if it cannot end next to it, or if
the middle begins alike. -/
theorem TakesClear.replace (near : pattern.nearby marks = true) (shown : pattern.endsShown = true)
    (meets : EndsIn Text.isBlank front ∨ BeginAlike marks (middle ++ back) (other ++ back))
    (clear : pattern.TakesClear front middle back) : pattern.TakesClear front other back := by
  obtain ⟨before, taken, after, parts, stands, ends | begins⟩ := clear
  · rw [← List.append_assoc before] at parts
    obtain ⟨rest, rfl, rfl⟩ := exists_rest_of_le parts (by rwa [List.length_append])
    have alike : BeginAlike marks (rest ++ (middle ++ back)) (rest ++ (other ++ back)) := by
      by_cases begun : rest = []
      · rcases meets with blank | alike
        · -- The last character of the match would be the last one before the middle.
          obtain ⟨c, last, unblank⟩ := stands.shown shown
          rw [EndsIn, begun, List.append_nil, List.getLast?_append, last] at blank
          cases unblank.symm.trans (blank c rfl)
        · exact alike.append rest
      · exact beginAlike_append begun
    exact ⟨before, taken, rest ++ (other ++ back), by simp only [List.append_assoc],
      stands.congr near ⟨rfl, Iff.rfl⟩ alike, Or.inl ends⟩
  · rw [← List.append_assoc front] at parts
    obtain ⟨more, rfl, rfl⟩ := exists_rest_of_le parts.symm
      (by rw [List.length_append]; exact Nat.le_of_lt begins)
    have begun : more ≠ [] := by
      rintro rfl
      simp at begins
    refine ⟨(front ++ other) ++ more, taken, after, by simp only [List.append_assoc],
      stands.congr near (endAlike_append begun) ⟨rfl, fun _ _ => Iff.rfl⟩, Or.inr ?_⟩
    have some := List.length_pos_iff.mpr begun
    simp only [List.length_append]
    omega

theorem TakesNext.replace (near : pattern.nearby marks = true)
    (alike : EndAlike (front ++ middle) (front ++ other))
    (next : pattern.TakesNext front middle back) : pattern.TakesNext front other back := by
  obtain ⟨taken, after, same, stands⟩ := next
  exact ⟨taken, after, same, stands.congr near alike ⟨rfl, fun _ _ => Iff.rfl⟩⟩

end

end SourceOutline.Pattern
