import SourceOutline.Proofs.Pattern.Scan

set_option autoImplicit false

/-! Patterns that do not look back.

What such a pattern does at a place is settled by the text from there on.  So text put in front of
another moves the matches in it and changes nothing else, and what is made blank behind a place is
the same whatever stands before it. -/

namespace SourceOutline

namespace Pattern

/-- Whether a pattern asks nothing of the text before a place. -/
def onward : Pattern → Bool
  | .seq first second => onward first && onward second
  | .either first second => onward first && onward second
  | .many _ body => onward body
  | .part _ body => onward body
  | .ahead _ body => onward body
  | .behind _ _ | .lineStart | .wordEdge => false
  | _ => true

def moveParts (length : Nat) (parts : Parts) : Parts :=
  parts.map fun entry => (entry.1, length + entry.2.1, length + entry.2.2)

def moveEnding (length : Nat) (ending : Ending) : Ending :=
  (length + ending.1, moveParts length ending.2)

def moveMatch (length : Nat) (found : Match) : Match :=
  ⟨length + found.start, length + found.stop, moveParts length found.parts⟩

theorem lookup_moveParts (length : Nat) (parts : Parts) (which : Part) :
    (moveParts length parts).lookup which =
      (parts.lookup which).map fun range => (length + range.1, length + range.2) := by
  induction parts with
  | nil => rfl
  | cons entry rest ih =>
      obtain ⟨other, start, stop⟩ := entry
      change ((other, length + start, length + stop) :: moveParts length rest).lookup which = _
      rw [List.lookup_cons, List.lookup_cons]
      split
      · rfl
      · exact ih

private theorem resume_moveMatch (length : Nat) (found : Match) :
    resume (moveMatch length found) = length + resume found := by
  unfold resume moveMatch
  dsimp only
  split <;> split <;> omega

section

variable (front : Array Char) {text : Array Char}

/-! ### Characters behind some text -/

private theorem getElem?_behind (place : Nat) :
    (front ++ text)[front.size + place]? = text[place]? := by
  rw [Array.getElem?_append_right (Nat.le_add_right _ _), Nat.add_sub_cancel_left]

private theorem acceptedAt_behind (accepts : Char → Bool) (place : Nat) :
    acceptedAt (front ++ text) accepts (front.size + place) = acceptedAt text accepts place := by
  rw [acceptedAt, acceptedAt, getElem?_behind]

private theorem hasAt_behind (chars : List Char) (place : Nat) :
    hasAt (front ++ text) chars (front.size + place) = hasAt text chars place := by
  induction chars generalizing place with
  | nil => rfl
  | cons c rest ih => rw [hasAt, hasAt, getElem?_behind, Nat.add_assoc, ih]

theorem spanEnd_behind (accepts : Char → Bool) (fuel place : Nat) :
    spanEnd (front ++ text) accepts fuel (front.size + place) =
      front.size + spanEnd text accepts fuel place := by
  induction fuel generalizing place with
  | zero => rfl
  | succ fuel ih =>
      rw [spanEnd_succ, spanEnd_succ, acceptedAt_behind, Nat.add_assoc, ih]
      split <;> rfl

theorem size_behind (place : Nat) :
    (front ++ text).size - (front.size + place) = text.size - place := by
  rw [Array.size_append, Nat.add_sub_add_left]

private theorem spanEndings_behind (eager : Bool) (accepts : Char → Bool) (place : Nat) :
    spanEndings (front ++ text) eager accepts (front.size + place) =
      (spanEndings text eager accepts place).map (front.size + ·) := by
  have moved : ∀ length, List.range' (front.size + place) length =
      (List.range' place length).map (front.size + ·) := by
    intro length
    rw [List.map_add_range']
  unfold spanEndings
  rw [size_behind, spanEnd_behind, Nat.add_sub_add_left, moved]
  cases eager with
  | true => exact List.map_reverse.symm
  | false => rfl

private theorem atLineEnd_behind (place : Nat) :
    atLineEnd (front ++ text) (front.size + place) = atLineEnd text place := by
  have same : (front.size + place == (front ++ text).size) = (place == text.size) := by
    rw [Array.size_append, Bool.eq_iff_iff, beq_iff_eq, beq_iff_eq]
    omega
  rw [atLineEnd, atLineEnd, acceptedAt_behind, same]

private theorem atTextEnd_behind (place : Nat) :
    atTextEnd (front ++ text) (front.size + place) = atTextEnd text place := by
  have same : ∀ other, (front.size + other == (front ++ text).size) = (other == text.size) := by
    intro other
    rw [Array.size_append, Bool.eq_iff_iff, beq_iff_eq, beq_iff_eq]
    omega
  rw [atTextEnd, atTextEnd, acceptedAt_behind, Nat.add_assoc, same, same]

/-! ### Endings and matches behind some text -/

theorem moveEnding_append (length stop : Nat) (late early : Parts) :
    moveEnding length (stop, late ++ early) =
      (length + stop, moveParts length late ++ moveParts length early) := by
  rw [moveEnding, moveParts, List.map_append]
  rfl

private theorem stayIf_move (length place : Nat) (allowed : Bool) :
    stayIf allowed (length + place) = (stayIf allowed place).map (moveEnding length) := by
  cases allowed <;> rfl

private theorem repeatedEndings_move {length : Nat} {step moved : Nat → List Ending}
    (same : ∀ place, moved (length + place) = (step place).map (moveEnding length)) (eager : Bool)
    (fuel place : Nat) :
    repeatedEndings moved eager fuel (length + place) =
      (repeatedEndings step eager fuel place).map (moveEnding length) := by
  induction fuel generalizing place with
  | zero => rfl
  | succ fuel ih =>
      have more : ((moved (length + place)).flatMap fun first =>
            if length + place < first.1 then
              (repeatedEndings moved eager fuel first.1).map fun last =>
                (last.1, last.2 ++ first.2)
            else []) =
          ((step place).flatMap fun first =>
            if place < first.1 then
              (repeatedEndings step eager fuel first.1).map fun last => (last.1, last.2 ++ first.2)
            else []).map (moveEnding length) := by
        rw [same, List.flatMap_map, List.map_flatMap]
        refine congrArg (List.flatMap · _) (funext fun first => ?_)
        change (if length + place < length + first.1 then _ else _) = _
        by_cases further : place < first.1
        · rw [if_pos further, if_pos (Nat.add_lt_add_left further length)]
          change (repeatedEndings moved eager fuel (length + first.1)).map _ = _
          rw [ih, List.map_map, List.map_map]
          exact List.map_congr_left fun last _ => (moveEnding_append _ _ _ _).symm
        · rw [if_neg further, if_neg (by omega)]
          rfl
      rw [repeatedEndings, repeatedEndings, more]
      cases eager with
      | true =>
          rw [if_pos rfl, if_pos rfl, List.map_append]
          rfl
      | false => rfl

private theorem endings_seq_behind {first second : Pattern} {place : Nat}
    (inFirst : endings (front ++ text) first (front.size + place) =
      (endings text first place).map (moveEnding front.size))
    (inSecond : ∀ place, endings (front ++ text) second (front.size + place) =
      (endings text second place).map (moveEnding front.size)) :
    endings (front ++ text) (.seq first second) (front.size + place) =
      (endings text (.seq first second) place).map (moveEnding front.size) := by
  rw [endings, endings, inFirst, List.flatMap_map, List.map_flatMap]
  refine congrArg (List.flatMap · _) (funext fun early => ?_)
  change (endings (front ++ text) second (front.size + early.1)).map _ = _
  rw [inSecond, List.map_map, List.map_map]
  exact List.map_congr_left fun last _ => (moveEnding_append _ _ _ _).symm

theorem endings_behind {pattern : Pattern} (ahead : pattern.onward = true) (place : Nat) :
    endings (front ++ text) pattern (front.size + place) =
      (endings text pattern place).map (moveEnding front.size) := by
  induction pattern generalizing place with
  | nothing => rfl
  | literal chars =>
      rw [endings, endings, hasAt_behind]
      split
      · rw [Nat.add_assoc]
        rfl
      · rfl
  | one accepts =>
      rw [endings, endings, acceptedAt_behind]
      split
      · rw [Nat.add_assoc]
        rfl
      · rfl
  | span eager accepts =>
      rw [endings, endings, spanEndings_behind, List.map_map, List.map_map]
      rfl
  | seq first second inFirst inSecond =>
      rw [onward, Bool.and_eq_true] at ahead
      exact endings_seq_behind front (inFirst ahead.1 place) (inSecond ahead.2)
  | either first second inFirst inSecond =>
      rw [onward, Bool.and_eq_true] at ahead
      rw [endings, endings, inFirst ahead.1, inSecond ahead.2, List.map_append]
  | many eager body inBody =>
      rw [endings, endings, size_behind]
      exact repeatedEndings_move (inBody ahead) eager _ place
  | part which body inBody =>
      rw [endings, endings, inBody ahead, List.map_map, List.map_map]
      rfl
  | ahead wanted body inBody =>
      rw [endings, endings, inBody ahead, List.isEmpty_map]
      exact stayIf_move _ _ _
  | lineEnd =>
      rw [endings, endings, atLineEnd_behind]
      exact stayIf_move _ _ _
  | textEnd =>
      rw [endings, endings, atTextEnd_behind]
      exact stayIf_move _ _ _
  | behind | lineStart | wordEdge => cases ahead

private theorem matchAt?_behind {pattern : Pattern} (ahead : pattern.onward = true) (place : Nat) :
    pattern.matchAt? (front ++ text) (front.size + place) =
      (pattern.matchAt? text place).map (moveMatch front.size) := by
  rw [matchAt?_eq, matchAt?_eq, endings_behind front ahead, List.head?_map, Option.map_map,
    Option.map_map]
  rfl

private theorem findAllFrom_moved {pattern : Pattern}
    (moved : ∀ place, pattern.matchAt? (front ++ text) (front.size + place) =
      (pattern.matchAt? text place).map (moveMatch front.size)) (place : Nat) :
    pattern.findAllFrom (front ++ text) (front.size + place) =
      (pattern.findAllFrom text place).map (moveMatch front.size) := by
  obtain ⟨left, same⟩ : ∃ left, text.size + 1 - place = left := ⟨_, rfl⟩
  induction left using Nat.strongRecOn generalizing place with
  | ind left ih =>
      by_cases inside : place ≤ text.size
      · have here := moved place
        cases found : pattern.matchAt? text place with
        | none =>
            rw [found] at here
            rw [findAllFrom_none found, findAllFrom_none here, Nat.add_assoc]
            exact ih _ (by omega) _ rfl
        | some next =>
            rw [found] at here
            have further := lt_resume found
            rw [findAllFrom_some inside found, findAllFrom_some (by simp; omega) here,
              resume_moveMatch, List.map_cons, ih _ (by omega) _ rfl]
      · have beyond : (front ++ text).size < front.size + place := by
          rw [Array.size_append]
          omega
        rw [findAllFrom_behind beyond, findAllFrom_behind (by omega)]
        rfl

theorem findAllFrom_behind_front {pattern : Pattern} (ahead : pattern.onward = true) (place : Nat) :
    pattern.findAllFrom (front ++ text) (front.size + place) =
      (pattern.findAllFrom text place).map (moveMatch front.size) :=
  findAllFrom_moved front (matchAt?_behind front ahead) place

/-! ### Lines in front -/

private theorem atLineStart_behind (feed : front.back? = some '\n') (place : Nat) :
    atLineStart (front ++ text) (front.size + place) = atLineStart text place := by
  cases place with
  | zero =>
      obtain ⟨last, size⟩ : ∃ last, front.size = last + 1 := by
        refine Nat.exists_eq_succ_of_ne_zero fun empty => ?_
        rw [Array.back?, empty] at feed
        simp [Array.size_eq_zero_iff.mp empty] at feed
      have read : (front ++ text)[last]? = some '\n' := by
        rw [Array.getElem?_append_left (by omega), ← feed, Array.back?, size, Nat.add_sub_cancel]
      rw [Nat.add_zero, size]
      simp [atLineStart, acceptedBefore, read]
  | succ place =>
      simp [atLineStart, acceptedBefore, ← Nat.add_assoc, getElem?_behind]

/-- A pattern that begins at a line start and does not look back otherwise does the same behind
whole lines. -/
theorem findAllFrom_behind_lines {body : Pattern} (ahead : body.onward = true)
    (feed : front.back? = some '\n') (place : Nat) :
    (seq lineStart body).findAllFrom (front ++ text) (front.size + place) =
      ((seq lineStart body).findAllFrom text place).map (moveMatch front.size) := by
  refine findAllFrom_moved front (fun place => ?_) place
  have starts : endings (front ++ text) lineStart (front.size + place) =
      (endings text lineStart place).map (moveEnding front.size) := by
    rw [endings, endings, atLineStart_behind front feed]
    exact stayIf_move _ _ _
  have moved := endings_seq_behind front starts (endings_behind front ahead)
  rw [matchAt?_eq, matchAt?_eq, moved, List.head?_map, Option.map_map, Option.map_map]
  rfl

/-! ### What is made blank behind some text -/

/-- Where no match goes from some text into the text behind it, the two are made blank apart. -/
theorem blankOut_append {pattern : Pattern} {early : List Match}
    (found : pattern.findAll (front ++ text) =
      early ++ (pattern.findAll text).map (moveMatch front.size))
    (within : ∀ each ∈ early, each.stop ≤ front.size) :
    pattern.blankOut (front ++ text) =
      (front.mapIdx fun place c =>
        if early.any fun each => each.start ≤ place && place < each.stop then ' ' else c) ++
        pattern.blankOut text := by
  apply Array.ext_getElem?
  intro place
  unfold blankOut
  dsimp only
  rw [found, Array.getElem?_mapIdx]
  by_cases inside : place < front.size
  · have clear : ((pattern.findAll text).map (moveMatch front.size)).any
        (fun each => each.start ≤ place && place < each.stop) = false := by
      rw [List.any_eq_false]
      intro each member
      obtain ⟨original, _, rfl⟩ := List.mem_map.mp member
      have behind : front.size ≤ (moveMatch front.size original).start := Nat.le_add_right _ _
      simp only [Bool.and_eq_true, decide_eq_true_eq]
      omega
    rw [Array.getElem?_append_left inside, Array.getElem?_append_left (by simpa using inside),
      Array.getElem?_mapIdx, List.any_append, clear, Bool.or_false]
  · obtain ⟨offset, rfl⟩ := Nat.exists_eq_add_of_le (Nat.le_of_not_lt inside)
    have clear : early.any (fun each =>
        each.start ≤ front.size + offset && front.size + offset < each.stop) = false := by
      rw [List.any_eq_false]
      intro each member
      have before := within each member
      simp only [Bool.and_eq_true, decide_eq_true_eq]
      omega
    have moved : ((pattern.findAll text).map (moveMatch front.size)).any (fun each =>
          each.start ≤ front.size + offset && front.size + offset < each.stop) =
        (pattern.findAll text).any fun each => each.start ≤ offset && offset < each.stop := by
      rw [List.any_map]
      congr 1
      funext each
      simp [moveMatch]
    rw [getElem?_behind, List.any_append, clear, Bool.false_or, moved,
      Array.getElem?_append_right (by simp), Array.size_mapIdx, Nat.add_sub_cancel_left,
      Array.getElem?_mapIdx]

variable {front}

/-- A character where no match begins stays as it is. -/
theorem blankOut_skip {pattern : Pattern} (ahead : pattern.onward = true) {c : Char}
    (missed : pattern.matchAt? (#[c] ++ text) 0 = none) :
    pattern.blankOut (#[c] ++ text) = #[c] ++ pattern.blankOut text := by
  have found : pattern.findAll (#[c] ++ text) =
      [] ++ (pattern.findAll text).map (moveMatch #[c].size) := by
    unfold findAll
    rw [findAllFrom_none missed]
    exact findAllFrom_behind_front #[c] ahead 0
  rw [blankOut_append #[c] found (fun _ none => absurd none List.not_mem_nil)]
  rfl

/-- A match is made blank, and so is what stands behind it. -/
theorem blankOut_take {pattern : Pattern} (ahead : pattern.onward = true) {found : Match}
    (matched : pattern.matchAt? (front ++ text) 0 = some found) (stop : found.stop = front.size)
    (forward : 0 < front.size) :
    pattern.blankOut (front ++ text) = Array.replicate front.size ' ' ++ pattern.blankOut text := by
  have start := (matchAt?_ends matched).1
  have next : resume found = front.size := by
    unfold resume
    rw [if_pos (by omega), stop]
  have all : pattern.findAll (front ++ text) =
      [found] ++ (pattern.findAll text).map (moveMatch front.size) := by
    unfold findAll
    rw [findAllFrom_some (Nat.zero_le _) matched, next]
    exact congrArg (found :: ·) (findAllFrom_behind_front front ahead 0)
  have within : ∀ each ∈ [found], each.stop ≤ front.size := by
    intro each member
    exact Nat.le_of_eq (by rw [List.mem_singleton.mp member, stop])
  rw [blankOut_append front all within]
  refine congrArg (· ++ _) (Array.ext_getElem? fun place => ?_)
  rw [Array.getElem?_mapIdx, Array.getElem?_replicate]
  by_cases inside : place < front.size
  · rw [Array.getElem?_eq_getElem inside, if_pos inside]
    simp [start, stop, inside]
  · rw [Array.getElem?_eq_none (Nat.le_of_not_lt inside), if_neg inside]
    rfl

end

end Pattern

end SourceOutline
