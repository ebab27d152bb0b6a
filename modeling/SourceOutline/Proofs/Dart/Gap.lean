import SourceOutline.Dart.Pattern
import SourceOutline.Proofs.Pattern.Onward
import SourceOutline.Proofs.Pattern.Preferred

set_option autoImplicit false

/-! Blanks and comments between the values of an enumeration.

Once comments are made blank, a stretch of blanks and whole comments is nothing but blanks, and it
has no effect on what is made blank behind it. -/

namespace SourceOutline

namespace Dart

open Pattern

/-! ### Comments -/

private theorem commentPattern_onward : commentPattern.onward = true := by decide +kernel

def HasEndMark (text : List Char) : Prop :=
  ∃ place, text[place]? = some '*' ∧ text[place + 1]? = some '/'

private theorem matchAt?_lineComment {text : List Char} (within : '\n' ∉ text) (rest : List Char) :
    commentPattern.matchAt? (['/', '/'] ++ (text ++ '\n' :: rest)).toArray 0 =
      some ⟨0, 2 + text.length, []⟩ := by
  have begins : hasAt (['/', '/'] ++ (text ++ '\n' :: rest)).toArray ['/', '/'] 0 = true := by
    simp [hasAt]
  have taken := @takes_of_list (· != '\n') text (fun c member => by
    rw [bne_iff_ne]
    rintro rfl
    exact within member) ['/', '/'] ('\n' :: rest)
  have ended : acceptedAt (['/', '/'] ++ (text ++ '\n' :: rest)).toArray (· != '\n')
      (2 + text.length) = false := by
    have read := getElem?_behind_list ['/', '/'] (text ++ '\n' :: rest) text.length
    rw [acceptedAt]
    change Option.any _ (_[['/', '/'].length + text.length]?) = false
    rw [read, List.getElem?_append_right (Nat.le_refl _), Nat.sub_self]
    rfl
  have line : (endings (['/', '/'] ++ (text ++ '\n' :: rest)).toArray
      (.seq (.literal ['/', '/']) (star (· != '\n'))) 0).head? = some (2 + text.length, []) := by
    rw [endings_literal_seq begins]
    exact head?_endings_star taken ended
  rw [matchAt?_eq, commentPattern, endings, List.head?_append]
  change Option.map _ (Option.or (endings _ (.seq (.literal ['/', '/']) (star (· != '\n'))) 0).head?
    _) = _
  rw [line]
  rfl

private theorem matchAt?_markedComment {text : List Char} (within : ¬ HasEndMark (text ++ ['*']))
    (rest : List Char) :
    commentPattern.matchAt? (['/', '*'] ++ (text ++ '*' :: '/' :: rest)).toArray 0 =
      some ⟨0, 2 + text.length + 2, []⟩ := by
  have other : hasAt (['/', '*'] ++ (text ++ '*' :: '/' :: rest)).toArray ['/', '/'] 0 = false := by
    simp [hasAt]
  have begins : hasAt (['/', '*'] ++ (text ++ '*' :: '/' :: rest)).toArray ['/', '*'] 0 = true := by
    simp [hasAt]
  have taken := @takes_of_list (fun _ => true) text (fun _ _ => rfl) ['/', '*'] ('*' :: '/' :: rest)
  have closes : hasAt (['/', '*'] ++ (text ++ '*' :: '/' :: rest)).toArray ['*', '/']
      (2 + text.length) = true := by
    apply hasAt_of_listed
    rw [← List.append_assoc, List.toList_toArray, List.drop_left' (by simp; omega)]
    exact ⟨rest, rfl⟩
  have first : ∀ place, 2 ≤ place → place < 2 + text.length →
      hasAt (['/', '*'] ++ (text ++ '*' :: '/' :: rest)).toArray ['*', '/'] place = false := by
    intro place behind before
    obtain ⟨offset, rfl⟩ := Nat.exists_eq_add_of_le behind
    rw [Bool.eq_false_iff]
    intro here
    have read := getElem?_behind_list ['/', '*'] (text ++ '*' :: '/' :: rest)
    have star := (read offset).symm.trans (getElem?_of_hasAt here (Nat.zero_lt_succ 1))
    have slash := (read (offset + 1)).symm.trans (getElem?_of_hasAt here (Nat.lt_succ_self 1))
    -- both characters stand before the last slash, so they are an end mark of their own
    have same : text ++ '*' :: '/' :: rest = (text ++ ['*']) ++ '/' :: rest := by simp
    have length : (text ++ ['*']).length = text.length + 1 := by simp
    rw [same, List.getElem?_append_left (by omega)] at star slash
    exact within ⟨offset, star, slash⟩
  have marked : (endings (['/', '*'] ++ (text ++ '*' :: '/' :: rest)).toArray
      (.seq (.literal ['/', '*']) (.seq (starLazy fun _ => true) (.literal ['*', '/']))) 0).head? =
        some (2 + text.length + 2, []) := by
    rw [endings_literal_seq begins]
    exact head?_endings_starLazy taken closes first
  rw [matchAt?_eq, commentPattern, endings, List.head?_append]
  change Option.map _ (Option.or (endings _ (.seq (.literal ['/', '/']) (star (· != '\n'))) 0).head?
    (endings _ (.seq (.literal ['/', '*'])
      (.seq (starLazy fun _ => true) (.literal ['*', '/']))) 0).head?) = _
  rw [endings_literal_seq_none other, marked]
  rfl

/-! ### Gaps -/

/-- Blanks and comments, each comment with its end. -/
inductive IsGap : List Char → Prop
  | nil : IsGap []
  | blank {c : Char} {rest : List Char} (blank : Text.isBlank c = true) (more : IsGap rest) :
      IsGap (c :: rest)
  | line {text rest : List Char} (within : '\n' ∉ text) (more : IsGap rest) :
      IsGap (['/', '/'] ++ (text ++ '\n' :: rest))
  | marked {text rest : List Char} (within : ¬ HasEndMark (text ++ ['*'])) (more : IsGap rest) :
      IsGap (['/', '*'] ++ (text ++ '*' :: '/' :: rest))

theorem IsGap.append {left right : List Char} (first : IsGap left) (second : IsGap right) :
    IsGap (left ++ right) := by
  induction first with
  | nil => exact second
  | blank blank _ ih => exact .blank blank ih
  | line within _ ih =>
      rw [List.append_assoc, List.append_assoc]
      exact .line within ih
  | marked within _ ih =>
      rw [List.append_assoc, List.append_assoc]
      exact .marked within ih

def IsBlanked (text blanks : List Char) : Prop :=
  blanks.length = text.length ∧ ∀ c ∈ blanks, Text.isBlank c = true

private theorem IsBlanked.append {left right leftBlanks rightBlanks : List Char}
    (first : IsBlanked left leftBlanks) (second : IsBlanked right rightBlanks) :
    IsBlanked (left ++ right) (leftBlanks ++ rightBlanks) := by
  refine ⟨?_, List.forall_mem_append.mpr ⟨first.2, second.2⟩⟩
  rw [List.length_append, List.length_append, first.1, second.1]

private theorem isBlanked_replicate (text : List Char) :
    IsBlanked text (List.replicate text.length ' ') := by
  refine ⟨List.length_replicate, fun c member => ?_⟩
  rw [List.eq_of_mem_replicate member]
  rfl

private theorem blankOut_blank {c : Char} (blank : Text.isBlank c = true) (rest : List Char) :
    commentPattern.blankOut ([c] ++ rest).toArray =
      [c].toArray ++ commentPattern.blankOut rest.toArray := by
  have other : c ≠ '/' := by
    rintro rfl
    cases blank
  have absent : ∀ chars, hasAt (#[c] ++ rest.toArray) ('/' :: chars) 0 = false := by
    intro chars
    rw [hasAt, show (#[c] ++ rest.toArray)[0]? = some c by simp]
    simp [other]
  have missed : commentPattern.matchAt? (#[c] ++ rest.toArray) 0 = none := by
    rw [matchAt?_eq, commentPattern, endings]
    change Option.map _ (endings _ (.seq (.literal ['/', '/']) _) 0 ++
      endings _ (.seq (.literal ['/', '*']) _) 0).head? = none
    rw [endings_literal_seq_none (absent _), endings_literal_seq_none (absent _)]
    rfl
  rw [← List.append_toArray, blankOut_skip commentPattern_onward missed]

private theorem blankOut_comment {comment rest : List Char} {length : Nat}
    (matched : commentPattern.matchAt? (comment ++ rest).toArray 0 = some ⟨0, length, []⟩)
    (whole : length = comment.length) (forward : 0 < length) :
    commentPattern.blankOut (comment ++ rest).toArray =
      (List.replicate comment.length ' ').toArray ++ commentPattern.blankOut rest.toArray := by
  rw [← List.append_toArray] at matched ⊢
  rw [blankOut_take commentPattern_onward matched (by simpa using whole) (by simp; omega)]
  simp

/-- A gap is made blank, whatever stands behind it. -/
theorem IsGap.blankOut {gap : List Char} (isGap : IsGap gap) (rest : List Char) :
    ∃ blanks, IsBlanked gap blanks ∧
      commentPattern.blankOut (gap ++ rest).toArray =
        blanks.toArray ++ commentPattern.blankOut rest.toArray := by
  -- what is made blank first is followed by the rest of the gap
  have next : ∀ {first later blanks : List Char}, IsBlanked first blanks →
      commentPattern.blankOut (first ++ (later ++ rest)).toArray =
        blanks.toArray ++ commentPattern.blankOut (later ++ rest).toArray →
      (∃ others, IsBlanked later others ∧ commentPattern.blankOut (later ++ rest).toArray =
        others.toArray ++ commentPattern.blankOut rest.toArray) →
      ∃ all, IsBlanked (first ++ later) all ∧
        commentPattern.blankOut (first ++ (later ++ rest)).toArray =
          all.toArray ++ commentPattern.blankOut rest.toArray := by
    intro first later blanks blanked made ⟨others, othersBlanked, same⟩
    refine ⟨blanks ++ others, blanked.append othersBlanked, ?_⟩
    rw [made, same, ← Array.append_assoc, ← List.append_toArray blanks others]
  induction isGap with
  | nil => exact ⟨[], ⟨rfl, fun _ none => absurd none List.not_mem_nil⟩, by simp⟩
  | @blank c others blank _ ih =>
      have single : IsBlanked [c] [c] := ⟨rfl, fun _ member => List.mem_singleton.mp member ▸ blank⟩
      exact next single (blankOut_blank blank _) ih
  | @line text others within _ ih =>
      have feed : IsBlanked ['\n'] ['\n'] :=
        ⟨rfl, fun _ member => List.mem_singleton.mp member ▸ rfl⟩
      have matched := matchAt?_lineComment within (others ++ rest)
      have split : ['/', '/'] ++ (text ++ '\n' :: others) =
          (['/', '/'] ++ text) ++ (['\n'] ++ others) := by simp
      have whole : ['/', '/'] ++ (text ++ '\n' :: (others ++ rest)) =
          (['/', '/'] ++ text) ++ (['\n'] ++ others ++ rest) := by simp
      rw [whole] at matched
      rw [split, List.append_assoc _ (['\n'] ++ others)]
      exact next (isBlanked_replicate _) (blankOut_comment matched (by simp; omega) (by omega))
        (next feed (blankOut_blank rfl _) ih)
  | @marked text others within _ ih =>
      have matched := matchAt?_markedComment within (others ++ rest)
      have split : ['/', '*'] ++ (text ++ '*' :: '/' :: others) =
          (['/', '*'] ++ (text ++ ['*', '/'])) ++ others := by simp
      have whole : ['/', '*'] ++ (text ++ '*' :: '/' :: (others ++ rest)) =
          (['/', '*'] ++ (text ++ ['*', '/'])) ++ (others ++ rest) := by simp
      rw [whole] at matched
      rw [split, List.append_assoc _ others]
      exact next (isBlanked_replicate _) (blankOut_comment matched (by simp; omega) (by omega)) ih

end Dart

end SourceOutline
