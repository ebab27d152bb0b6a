import SourceOutline.Proofs.Source.OpenBrace

set_option autoImplicit false

/-! The body of a block as a text of its own.

A body goes up to the brace that closes its block.  What it begins with can be told apart from the
rest: text that leaves the block open stands in the body whatever follows. -/

namespace SourceOutline

/-- What a text has before the brace that closes the last of some open blocks. -/
def bodyFrom (level : Int) : List Char → List Char
  | [] => []
  | c :: rest =>
      if level + braceShift c = 0 then [] else c :: bodyFrom (level + braceShift c) rest

theorem bodyFrom_begins (level : Int) (text : List Char) : bodyFrom level text <+: text := by
  induction text generalizing level with
  | nil => exact List.nil_prefix
  | cons c rest ih =>
      rw [bodyFrom]
      split
      · exact List.nil_prefix
      · exact List.cons_prefix_cons.mpr ⟨rfl, ih _⟩

/-- Text that leaves a block open is in its body. -/
theorem bodyFrom_append {level : Int} {text : List Char}
    (opened : ∀ front, front <+: text → 0 < level + braceLevel front) (rest : List Char) :
    bodyFrom level (text ++ rest) = text ++ bodyFrom (level + braceLevel text) rest := by
  induction text generalizing level with
  | nil => simp [braceLevel]
  | cons c others ih =>
      have first := opened [c] (List.cons_prefix_cons.mpr ⟨rfl, List.nil_prefix⟩)
      rw [braceLevel_cons, braceLevel_nil, Int.add_zero] at first
      have further : ∀ front, front <+: others → 0 < level + braceShift c + braceLevel front := by
        intro front begins
        have longer := opened (c :: front) (List.cons_prefix_cons.mpr ⟨rfl, begins⟩)
        rwa [braceLevel_cons, ← Int.add_assoc] at longer
      rw [List.cons_append, bodyFrom, if_neg (Int.ne_of_gt first), ih further, braceLevel_cons,
        Int.add_assoc]
      rfl

/-- What a body begins with leaves the block open. -/
theorem level_of_prefix_bodyFrom {level : Int} (inside : 0 < level) {text rest : List Char}
    (begins : text <+: bodyFrom level (text ++ rest)) :
    ∀ front, front <+: text → 0 < level + braceLevel front := by
  induction text generalizing level with
  | nil =>
      intro front empty
      rwa [List.prefix_nil.mp empty, braceLevel_nil, Int.add_zero]
  | cons c others ih =>
      rw [List.cons_append, bodyFrom] at begins
      split at begins
      · exact absurd (List.prefix_nil.mp begins) (List.cons_ne_nil _ _)
      · rename_i unclosed
        have fall := Source.neg_one_le_shift c
        have within := (List.cons_prefix_cons.mp begins).2
        intro front shorter
        cases front with
        | nil => rwa [braceLevel_nil, Int.add_zero]
        | cons first more =>
            obtain ⟨rfl, remaining⟩ := List.cons_prefix_cons.mp shorter
            have deeper := ih (by omega) within more remaining
            rwa [braceLevel_cons, ← Int.add_assoc]

namespace Source

variable {source : Source}

theorem slice_eq (source : Source) (start stop : Nat) :
    source.slice start stop = (source.text.toList.drop start).take (stop - start) := by
  rw [slice, Array.toList_extract, List.extract_eq_take_drop]

private theorem slice_reaches? {depth : Int} {start : Nat} (inside : start ≤ source.size) :
    source.slice start
        ((source.reaches? depth (source.size - start) start).getD source.size) =
      bodyFrom (source.depthAt start - depth) (source.text.toList.drop start) := by
  obtain ⟨length, same⟩ := Nat.exists_eq_add_of_le inside
  induction length generalizing start with
  | zero =>
      have all : source.text.toList.drop start = [] :=
        List.drop_of_length_le (Nat.le_of_eq same)
      rw [slice_eq, all, List.take_nil]
      rfl
  | succ length ih =>
      obtain ⟨c, read⟩ := exists_read (show start < source.size by omega)
      have split : source.text.toList.drop start = c :: source.text.toList.drop (start + 1) := by
        obtain ⟨before, here⟩ := Array.getElem?_eq_some_iff.mp read
        rw [← here]
        exact List.drop_eq_getElem_cons before
      have depths : source.depthAt start - depth + braceShift c =
          source.depthAt (start + 1) - depth := by
        rw [depthAt_succ read]
        omega
      rw [show source.size - start = (source.size - (start + 1)) + 1 by omega, reaches?, slice_eq,
        split, bodyFrom, depths]
      by_cases closed : source.depthAt (start + 1) = depth
      · rw [if_pos closed, if_pos (by omega), Option.getD_some, Nat.sub_self, List.take_zero]
      · rw [if_neg closed, if_neg (by omega), ← ih (by omega) (by omega), slice_eq]
        -- the block is closed behind this character, if at all
        have behind : start + 1 ≤ (source.reaches? depth (source.size - (start + 1))
            (start + 1)).getD source.size := by
          cases reached : source.reaches? depth (source.size - (start + 1)) (start + 1) with
          | none => exact show start + 1 ≤ source.size by omega
          | some close => exact (reaches?_eq_some reached).1
        generalize (source.reaches? depth (source.size - (start + 1)) (start + 1)).getD
          source.size = stop at behind
        rw [show stop - start = (stop - (start + 1)) + 1 by omega, List.take_succ_cons]

/-- The body of a block is what follows the brace that opens it. -/
theorem slice_block {opening : Nat} (opens : source.text[opening]? = some '{') :
    source.slice (opening + 1) ((source.blockEnd? opening).getD source.size) =
      bodyFrom 1 (source.text.toList.drop (opening + 1)) := by
  have level : source.depthAt (opening + 1) - source.depthAt opening = 1 := by
    rw [depthAt_succ opens, shift_brace]
    omega
  rw [blockEnd?_eq opens, slice_reaches? (lt_size_of_read opens), level]

end Source

end SourceOutline
