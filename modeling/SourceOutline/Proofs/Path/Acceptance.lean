import SourceOutline.Proofs.Path.Containment

set_option autoImplicit false

/-! Which paths are accepted.

A path is judged by walking over its segments and taking back one name for each double dot.  The
walk can be told from counts alone: it leaves the place it starts from just if some front of the
segments has more double dots than names. -/

namespace SourceOutline

namespace Path

/-- A segment that goes down: neither empty nor a single or a double dot. -/
def isOrdinary (segment : String) : Bool :=
  segment != "" && segment != "." && segment != ".."

/-- No front of some segments climbs by more than it goes down, from a place at some height. -/
def StaysAbove (height : Nat) (given : List String) : Prop :=
  ∀ front, front <+: given → front.count ".." ≤ height + front.countP isOrdinary

/-- A path that leads nowhere outside: it starts at the top, or no front of its segments has more
double dots than names.  Backslashes count as slashes. -/
def StaysInside (path : String) : Prop :=
  (withSlashes path).toList.head? = some '/' ∨ StaysAbove 0 (segments (withSlashes path))

/-! ### Fronts of segments -/

theorem staysAbove_cons {height : Nat} {segment : String} {rest : List String} :
    StaysAbove height (segment :: rest) ↔
      ∀ front, front <+: rest →
        (segment :: front).count ".." ≤ height + (segment :: front).countP isOrdinary := by
  constructor
  · intro stays front begins
    exact stays _ (List.cons_prefix_cons.mpr ⟨rfl, begins⟩)
  · rintro stays front begins
    rcases List.prefix_cons_iff.mp begins with rfl | ⟨others, rfl, further⟩
    · exact Nat.zero_le _
    · exact stays others further

private theorem staysAbove_ordinary {height : Nat} {segment : String} {rest : List String}
    (ordinary : isOrdinary segment = true) :
    StaysAbove height (segment :: rest) ↔ StaysAbove (height + 1) rest := by
  have other : segment ≠ ".." := by
    rintro rfl
    exact absurd ordinary (by decide)
  rw [staysAbove_cons]
  refine forall₂_congr fun front _ => ?_
  rw [List.count_cons_of_ne other, List.countP_cons_of_pos ordinary]
  omega

private theorem staysAbove_ignored {height : Nat} {segment : String} {rest : List String}
    (ignored : segment = "" ∨ segment = ".") :
    StaysAbove height (segment :: rest) ↔ StaysAbove height rest := by
  rw [staysAbove_cons]
  refine forall₂_congr fun front _ => ?_
  rcases ignored with rfl | rfl
  · rw [List.count_cons_of_ne (by decide), List.countP_cons_of_neg (by decide)]
  · rw [List.count_cons_of_ne (by decide), List.countP_cons_of_neg (by decide)]

private theorem not_staysAbove_climb (rest : List String) : ¬ StaysAbove 0 (".." :: rest) := by
  intro stays
  have first := stays [".."] ⟨rest, rfl⟩
  exact absurd first (by decide)

private theorem staysAbove_climb {height : Nat} {rest : List String} :
    StaysAbove (height + 1) (".." :: rest) ↔ StaysAbove height rest := by
  rw [staysAbove_cons]
  refine forall₂_congr fun front _ => ?_
  rw [List.count_cons_self, List.countP_cons_of_neg (by decide)]
  omega

/-! ### The walk -/

/-- A double dot that is kept is never taken back. -/
theorem climb_mem_pushSegment {earlier : List String} (kept : ".." ∈ earlier) (segment : String) :
    ".." ∈ pushSegment false earlier segment := by
  unfold pushSegment
  split
  · exact kept
  · split
    · cases earlier with
      | nil => cases kept
      | cons last rest =>
          dsimp only
          split
          · exact List.mem_cons_self
          · rename_i other
            exact (List.mem_cons.mp kept).resolve_left fun same => other (beq_iff_eq.mpr same.symm)
    · exact List.mem_cons_of_mem _ kept

private theorem climb_mem_foldl {earlier : List String} (kept : ".." ∈ earlier)
    (given : List String) :
    ".." ∈ given.foldl (pushSegment false) earlier := by
  induction given generalizing earlier with
  | nil => exact kept
  | cons segment rest ih => exact ih (climb_mem_pushSegment kept segment)

/-- A walk that has gone down by some names keeps no double dot just if it stays above the place
where it began. -/
theorem not_mem_foldl_iff {earlier : List String} (plain : ".." ∉ earlier) (given : List String) :
    ".." ∉ given.foldl (pushSegment false) earlier ↔ StaysAbove earlier.length given := by
  induction given generalizing earlier with
  | nil =>
      refine iff_of_true plain fun front begins => ?_
      rw [List.prefix_nil.mp begins]
      exact Nat.zero_le _
  | cons segment rest ih =>
      rw [List.foldl_cons]
      by_cases ignored : segment = "" ∨ segment = "."
      · have dropped : pushSegment false earlier segment = earlier := by
          unfold pushSegment
          rw [if_pos (by simpa using ignored)]
        rw [dropped, staysAbove_ignored ignored]
        exact ih plain
      · by_cases climbs : segment = ".."
        · subst climbs
          cases earlier with
          | nil =>
              refine iff_of_false (fun absent => absent ?_) (not_staysAbove_climb rest)
              exact climb_mem_foldl List.mem_cons_self rest
          | cons last others =>
              obtain ⟨name, below⟩ := not_or.mp (mt List.mem_cons.mpr plain)
              have taken : pushSegment false (last :: others) ".." = others := by
                simp [pushSegment, Ne.symm name]
              rw [taken, List.length_cons, staysAbove_climb]
              exact ih below
        · have named : pushSegment false earlier segment = segment :: earlier := by
            unfold pushSegment
            rw [if_neg (by simpa using ignored), if_neg (mt beq_iff_eq.mp climbs)]
          have ordinary : isOrdinary segment = true := by
            obtain ⟨filled, moving⟩ := not_or.mp ignored
            simp [isOrdinary, filled, moving, climbs]
          have further : ".." ∉ segment :: earlier :=
            mt List.mem_cons.mp (not_or.mpr ⟨Ne.symm climbs, plain⟩)
          rw [named, staysAbove_ordinary ordinary]
          exact ih further

/-! ### Accepted and refused paths -/

theorem head_eq_slash_iff {path : String} :
    path.toList.head? = some '/' ↔ Text.beginsWith "/" path = true := by
  rw [beginsWith_slash_iff, List.head?_eq_some_iff]

theorem not_mem_normalSegments_iff (path : String) :
    ".." ∉ normalSegments path ↔
      path.toList.head? = some '/' ∨ StaysAbove 0 (segments path) := by
  rw [head_eq_slash_iff]
  cases rooted : Text.beginsWith "/" path with
  | true => exact iff_of_true (not_mem_normalSegments_of_rooted rooted) (Or.inl rfl)
  | false =>
      rw [or_iff_right Bool.false_ne_true, normalSegments, rooted, List.mem_reverse]
      exact not_mem_foldl_iff List.not_mem_nil (segments path)

/-- The empty path stays where it is. -/
theorem staysInside_empty : StaysInside "" :=
  (not_mem_normalSegments_iff _).mp (by decide)

/-- What is found wrong first decides: a null character, the length, the way. -/
theorem validate_cases (path : String) :
    ('\x00' ∈ path.toList ∧ validate path = .error .nullBytes) ∨
    ('\x00' ∉ path.toList ∧ 4096 < path.toList.length ∧ validate path = .error .tooLong) ∨
    ('\x00' ∉ path.toList ∧ path.toList.length ≤ 4096 ∧ ¬ StaysInside path ∧
      validate path = .error (.traversal path)) ∨
    ('\x00' ∉ path.toList ∧ path.toList.length ≤ 4096 ∧ StaysInside path ∧
      validate path = .ok ()) := by
  by_cases empty : path = ""
  · subst empty
    exact Or.inr (Or.inr (Or.inr ⟨by decide, by decide, staysInside_empty, rfl⟩))
  · unfold validate
    rw [if_neg (mt String.isEmpty_iff.mp empty)]
    split
    · rename_i null
      exact Or.inl ⟨List.contains_iff_mem.mp null, rfl⟩
    · rename_i clean
      have absent : '\x00' ∉ path.toList := mt List.contains_iff_mem.mpr clean
      right
      split
      · rename_i long
        exact Or.inl ⟨absent, long, rfl⟩
      · rename_i short
        right
        split
        · rename_i climbs
          refine Or.inl ⟨absent, Nat.le_of_not_lt short, fun stays => ?_, rfl⟩
          exact (not_mem_normalSegments_iff _).mpr stays (List.contains_iff_mem.mp climbs)
        · rename_i inside
          refine Or.inr ⟨absent, Nat.le_of_not_lt short, ?_, rfl⟩
          exact (not_mem_normalSegments_iff _).mp (mt List.contains_iff_mem.mpr inside)

end Path

namespace Session

private theorem traversalReason_ne (path : String) :
    "path traversal detected in: " ++ path ≠ "null bytes" ∧
      "path traversal detected in: " ++ path ≠ "too long" := by
  constructor <;>
  · intro same
    have chars := congrArg String.toList same
    rw [String.toList_append] at chars
    cases chars

/-- Just those paths are accepted, and given back as they are, that are empty or have no null
character, at most 4096 characters and no way out; of the three reasons to refuse a path the first
one that applies is told. -/
theorem checkPath_decides (path : String) :
    (checkPath path = .ok () ↔
      path = "" ∨ '\x00' ∉ path.toList ∧ path.toList.length ≤ 4096 ∧ Path.StaysInside path) ∧
    (checkPath path = .error (.filePath "null bytes" "") ↔ '\x00' ∈ path.toList) ∧
    (checkPath path = .error (.filePath "too long" "") ↔
      '\x00' ∉ path.toList ∧ 4096 < path.toList.length) ∧
    (checkPath path = .error (.filePath ("path traversal detected in: " ++ path) path) ↔
      '\x00' ∉ path.toList ∧ path.toList.length ≤ 4096 ∧ ¬ Path.StaysInside path) ∧
    ∀ config, (ofConfig config).resolve path = (checkPath path).map fun _ => path := by
  have accepted : path = "" →
      '\x00' ∉ path.toList ∧ path.toList.length ≤ 4096 ∧ Path.StaysInside path := by
    rintro rfl
    exact ⟨by decide, by decide, Path.staysInside_empty⟩
  obtain ⟨notNull, notLong⟩ := traversalReason_ne path
  rw [or_iff_right_of_imp accepted]
  refine and_assoc.mp (and_assoc.mp (and_assoc.mp ⟨?_, fun _ => rfl⟩))
  rcases Path.validate_cases path with ⟨null, judged⟩ | ⟨clean, long, judged⟩ |
    ⟨clean, short, leaves, judged⟩ | ⟨clean, short, stays, judged⟩
  · have refused : checkPath path = .error (.filePath "null bytes" "") := by
      rw [checkPath, judged]
      rfl
    simp [refused, null, notNull.symm]
  · have refused : checkPath path = .error (.filePath "too long" "") := by
      rw [checkPath, judged]
      rfl
    simp [refused, clean, long, Nat.not_le.mpr long, notLong.symm]
  · have refused :
        checkPath path = .error (.filePath ("path traversal detected in: " ++ path) path) := by
      rw [checkPath, judged]
      rfl
    simp [refused, clean, short, Nat.not_lt.mpr short, leaves, notNull, notLong]
  · have passed : checkPath path = .ok () := by
      rw [checkPath, judged]
      rfl
    simp [passed, clean, short, Nat.not_lt.mpr short, stays]

end Session

end SourceOutline
