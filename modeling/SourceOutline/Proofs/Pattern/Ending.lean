import SourceOutline.Pattern.Build

set_option autoImplicit false

/-! The endings of a pattern at a place, in the order in which they are tried.

A run hands each ending in turn to what follows it, and takes the first from which all the rest
succeeds. -/

namespace SourceOutline.Pattern

/-! ### Lists of endings -/

/-- The endings of repetitions, each of which has to move forward. -/
def repeatedEndings (step : Nat → List Ending) (eager : Bool) : Nat → Nat → List Ending
  | 0, place => [(place, [])]
  | fuel + 1, place =>
      let more := (step place).flatMap fun first =>
        if place < first.1 then
          (repeatedEndings step eager fuel first.1).map fun last => (last.1, last.2 ++ first.2)
        else []
      if eager then more ++ [(place, [])] else (place, []) :: more

def spanEndings (text : Array Char) (eager : Bool) (accepts : Char → Bool) (place : Nat) :
    List Nat :=
  let ends := List.range' place (spanEnd text accepts (text.size - place) place - place + 1)
  if eager then ends.reverse else ends

def stayIf (allowed : Bool) (place : Nat) : List Ending :=
  if allowed then [(place, [])] else []

/-- The endings of a pattern at a place, the preferred ones first. -/
def endings (text : Array Char) : Pattern → Nat → List Ending
  | .nothing, place => [(place, [])]
  | .literal chars, place => if hasAt text chars place then [(place + chars.length, [])] else []
  | .one accepts, place => if acceptedAt text accepts place then [(place + 1, [])] else []
  | .span eager accepts, place => (spanEndings text eager accepts place).map fun stop => (stop, [])
  | .seq first second, place =>
      (endings text first place).flatMap fun early =>
        (endings text second early.1).map fun last => (last.1, last.2 ++ early.2)
  | .either first second, place => endings text first place ++ endings text second place
  | .many eager body, place =>
      repeatedEndings (endings text body) eager (text.size - place) place
  | .part which body, place =>
      (endings text body place).map fun last => (last.1, (which, place, last.1) :: last.2)
  | .ahead wanted body, place => stayIf ((!(endings text body place).isEmpty) == wanted) place
  | .behind wanted accepts, place => stayIf (acceptedBefore text accepts place == wanted) place
  | .lineStart, place => stayIf (atLineStart text place) place
  | .lineEnd, place => stayIf (atLineEnd text place) place
  | .textEnd, place => stayIf (atTextEnd text place) place
  | .wordEdge, place => stayIf (atWordEdge text place) place

/-! ### A run tries the endings in order -/

def tryEach (rest : Rest) (parts : Parts) (endings : List Ending) : Option Ending :=
  endings.findSome? fun ending => rest ending.1 (ending.2 ++ parts)

theorem tryEach_cons (rest : Rest) (parts : Parts) (first : Ending) (others : List Ending) :
    tryEach rest parts (first :: others) =
      (rest first.1 (first.2 ++ parts)).or (tryEach rest parts others) := by
  unfold tryEach
  rw [List.findSome?_cons]
  cases rest first.1 (first.2 ++ parts) <;> rfl

private theorem tryEach_stop (rest : Rest) (parts : Parts) (place : Nat) (others : List Ending) :
    tryEach rest parts ((place, []) :: others) =
      (rest place parts).or (tryEach rest parts others) :=
  tryEach_cons rest parts (place, []) others

theorem tryEach_append (rest : Rest) (parts : Parts) (left right : List Ending) :
    tryEach rest parts (left ++ right) =
      (tryEach rest parts left).or (tryEach rest parts right) :=
  List.findSome?_append

private theorem tryEach_single (rest : Rest) (parts : Parts) (place : Nat) :
    tryEach rest parts [(place, [])] = rest place parts := by
  rw [tryEach_stop]
  exact Option.or_none

private theorem tryEach_flatMap (rest : Rest) (parts : Parts) (next : Nat → List Ending)
    (early : List Ending) :
    tryEach rest parts (early.flatMap fun first =>
        (next first.1).map fun last => (last.1, last.2 ++ first.2)) =
      tryEach (fun place parts => tryEach rest parts (next place)) parts early := by
  induction early with
  | nil => rfl
  | cons first others ih =>
      rw [List.flatMap_cons, tryEach_append, ih, tryEach_cons]
      unfold tryEach
      rw [List.findSome?_map]
      simp only [Function.comp_def, List.append_assoc]

private theorem stayIf_eq (rest : Rest) (parts : Parts) (allowed : Bool) (place : Nat) :
    tryEach rest parts (stayIf allowed place) = if allowed then rest place parts else none := by
  cases allowed with
  | true => exact tryEach_single rest parts place
  | false => rfl

private theorem longestFirst_eq (rest : Rest) (parts : Parts) (place length : Nat) :
    longestFirst rest parts place length =
      tryEach rest parts ((List.range' place (length + 1)).reverse.map fun stop => (stop, [])) := by
  induction length with
  | zero => exact (tryEach_single rest parts place).symm
  | succ length ih =>
      rw [List.range'_1_concat, List.reverse_append, List.reverse_singleton,
        List.singleton_append, List.map_cons, tryEach_stop, ← ih, longestFirst]
      cases rest (place + (length + 1)) parts <;> rfl

theorem spanEnd_ge (text : Array Char) (accepts : Char → Bool) (fuel place : Nat) :
    place ≤ spanEnd text accepts fuel place := by
  induction fuel generalizing place with
  | zero => exact Nat.le_refl _
  | succ fuel ih =>
      rw [spanEnd]
      split
      · split
        · exact Nat.le_trans (Nat.le_succ _) (ih _)
        · exact Nat.le_refl _
      · exact Nat.le_refl _

/-- What stands at a place, if it is accepted, lengthens a run by one. -/
theorem spanEnd_succ (text : Array Char) (accepts : Char → Bool) (fuel place : Nat) :
    spanEnd text accepts (fuel + 1) place =
      if acceptedAt text accepts place then spanEnd text accepts fuel (place + 1) else place := by
  rw [spanEnd, acceptedAt]
  cases text[place]? <;> rfl

private theorem shortestFirst_succ (text : Array Char) (accepts : Char → Bool) (rest : Rest)
    (parts : Parts) (fuel place : Nat) :
    shortestFirst text accepts rest parts (fuel + 1) place =
      (rest place parts).or
        (if acceptedAt text accepts place then
          shortestFirst text accepts rest parts fuel (place + 1) else none) := by
  rw [shortestFirst, acceptedAt]
  cases rest place parts <;> cases text[place]? <;> rfl

private theorem shortestFirst_eq (text : Array Char) (accepts : Char → Bool) (rest : Rest)
    (parts : Parts) (fuel place : Nat) :
    shortestFirst text accepts rest parts fuel place =
      tryEach rest parts ((List.range' place
        (spanEnd text accepts fuel place - place + 1)).map fun stop => (stop, [])) := by
  induction fuel generalizing place with
  | zero =>
      rw [spanEnd, Nat.sub_self]
      exact (tryEach_single rest parts place).symm
  | succ fuel ih =>
      rw [shortestFirst_succ, spanEnd_succ]
      cases acceptedAt text accepts place with
      | false =>
          rw [if_neg Bool.false_ne_true, if_neg Bool.false_ne_true, Nat.sub_self, Option.or_none]
          exact (tryEach_single rest parts place).symm
      | true =>
          have further := spanEnd_ge text accepts fuel (place + 1)
          have longer : spanEnd text accepts fuel (place + 1) - place + 1 =
              (spanEnd text accepts fuel (place + 1) - (place + 1) + 1) + 1 := by omega
          rw [if_pos rfl, if_pos rfl, longer, List.range'_succ, List.map_cons, tryEach_stop, ih]

private theorem repeated_eq {step : Nat → Parts → Rest → Option Ending} {next : Nat → List Ending}
    (same : ∀ place parts rest, step place parts rest = tryEach rest parts (next place))
    (eager : Bool) (rest : Rest) (fuel place : Nat) (parts : Parts) :
    repeated step eager rest fuel place parts =
      tryEach rest parts (repeatedEndings next eager fuel place) := by
  induction fuel generalizing place parts with
  | zero => simp [repeated, repeatedEndings, tryEach]
  | succ fuel ih =>
      have moved : step place parts (fun later parts =>
          if place < later then repeated step eager rest fuel later parts else none) =
          tryEach rest parts ((next place).flatMap fun first =>
            if place < first.1 then
              (repeatedEndings next eager fuel first.1).map fun last => (last.1, last.2 ++ first.2)
            else []) := by
        have guarded := tryEach_flatMap rest parts (fun later =>
          if place < later then repeatedEndings next eager fuel later else []) (next place)
        have inside : ∀ first : Ending,
            ((if place < first.1 then repeatedEndings next eager fuel first.1 else []).map
              fun last => (last.1, last.2 ++ first.2)) =
            if place < first.1 then
              (repeatedEndings next eager fuel first.1).map fun last => (last.1, last.2 ++ first.2)
            else [] := by
          intro first
          split <;> rfl
        simp only [inside] at guarded
        rw [same, guarded]
        congr 1
        funext later parts
        split
        · exact ih later parts
        · rfl
      rw [repeated, repeatedEndings, moved]
      cases eager with
      | true =>
          rw [if_pos rfl, if_pos rfl, tryEach_append, tryEach_single]
          generalize tryEach rest parts _ = found
          cases found <;> rfl
      | false =>
          rw [if_neg Bool.false_ne_true, if_neg Bool.false_ne_true, tryEach_stop]
          cases rest place parts <;> rfl

/-- A run of a pattern hands its endings to the rest, one after the other. -/
theorem run_eq_tryEach (text : Array Char) (pattern : Pattern) (place : Nat) (parts : Parts)
    (rest : Rest) :
    run text pattern place parts rest = tryEach rest parts (endings text pattern place) := by
  induction pattern generalizing place parts rest with
  | nothing => exact (tryEach_single rest parts place).symm
  | literal chars =>
      rw [run, endings]
      split
      · exact (tryEach_single rest parts _).symm
      · rfl
  | one accepts =>
      rw [run, endings]
      split
      · exact (tryEach_single rest parts _).symm
      · rfl
  | span eager accepts =>
      rw [run, endings, spanEndings]
      cases eager with
      | true => exact longestFirst_eq rest parts place _
      | false => exact shortestFirst_eq text accepts rest parts _ place
  | seq first second firstRun secondRun =>
      rw [run, endings, firstRun, tryEach_flatMap rest parts (endings text second)]
      congr 1
      funext later parts
      exact secondRun later parts rest
  | either first second firstRun secondRun =>
      rw [run, endings, tryEach_append, firstRun, secondRun]
      cases tryEach rest parts (endings text first place) <;> rfl
  | many eager body bodyRun =>
      rw [run, endings]
      exact repeated_eq bodyRun eager rest _ place parts
  | part which body bodyRun =>
      rw [run, endings, bodyRun]
      unfold tryEach
      rw [List.findSome?_map]
      rfl
  | ahead wanted body bodyRun =>
      rw [run, endings, stayIf_eq, bodyRun]
      have found : (tryEach (fun later parts => some (later, parts)) parts
          (endings text body place)).isSome = !(endings text body place).isEmpty := by
        cases endings text body place with
        | nil => rfl
        | cons first others => simp [tryEach]
      rw [found]
  | behind wanted accepts => rw [run, endings, stayIf_eq]
  | lineStart => rw [run, endings, stayIf_eq]
  | lineEnd => rw [run, endings, stayIf_eq]
  | textEnd => rw [run, endings, stayIf_eq]
  | wordEdge => rw [run, endings, stayIf_eq]

/-- The preferred match is the one with the first ending. -/
theorem matchAt?_eq (pattern : Pattern) (text : Array Char) (place : Nat) :
    pattern.matchAt? text place =
      (endings text pattern place).head?.map fun ending => ⟨place, ending.1, ending.2⟩ := by
  unfold matchAt?
  rw [run_eq_tryEach]
  cases endings text pattern place with
  | nil => rfl
  | cons first others => simp [tryEach]

end SourceOutline.Pattern
