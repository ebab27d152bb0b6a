import SourceOutline.Proofs.Pattern.Extent

set_option autoImplicit false

/-! Patterns in a text that is cut short: one that does not look ahead can end, before the cut, just
where it can end in the whole text. -/

namespace SourceOutline.Pattern

/-- Whether a pattern sees nothing of the text behind it. -/
def forward : Pattern → Bool
  | .seq first second => forward first && forward second
  | .either first second => forward first && forward second
  | .many _ body => forward body
  | .part _ body => forward body
  | .ahead _ _ | .lineEnd | .textEnd | .wordEdge => false
  | _ => true

def notBehind (cut : Nat) (ending : Ending) : Bool :=
  ending.1 ≤ cut

private theorem flatMap_filter_congr {α β : Type} {keep : α → Bool} {some all : α → List β}
    {items : List α} (same : ∀ item ∈ items, keep item = true → some item = all item)
    (none : ∀ item ∈ items, keep item = false → all item = []) :
    (items.filter keep).flatMap some = items.flatMap all := by
  induction items with
  | nil => rfl
  | cons item rest ih =>
      specialize ih (fun other member => same other (List.mem_cons_of_mem _ member))
        (fun other member => none other (List.mem_cons_of_mem _ member))
      rw [List.flatMap_cons, ← ih]
      cases kept : keep item with
      | true =>
          rw [List.filter_cons_of_pos kept, List.flatMap_cons, same item List.mem_cons_self kept]
      | false =>
          rw [List.filter_cons_of_neg (by rw [kept]; decide), none item List.mem_cons_self kept,
            List.nil_append]

section

variable {text : Array Char} {cut : Nat}

/-! ### Reading a cut text -/

theorem getElem?_extract (inside : cut ≤ text.size) (place : Nat) :
    (text.extract 0 cut)[place]? = if place < cut then text[place]? else none := by
  rw [Array.getElem?_extract, Nat.min_eq_left inside, Nat.sub_zero, Nat.zero_add]

theorem size_extract (inside : cut ≤ text.size) : (text.extract 0 cut).size = cut := by
  rw [Array.size_extract, Nat.min_eq_left inside, Nat.sub_zero]

theorem acceptedAt_extract (inside : cut ≤ text.size) {place : Nat} (before : place < cut)
    (accepts : Char → Bool) :
    acceptedAt (text.extract 0 cut) accepts place = acceptedAt text accepts place := by
  rw [acceptedAt, acceptedAt, getElem?_extract inside, if_pos before]

private theorem acceptedAt_cut (inside : cut ≤ text.size) (accepts : Char → Bool) :
    acceptedAt (text.extract 0 cut) accepts cut = false := by
  rw [acceptedAt, getElem?_extract inside, if_neg (Nat.lt_irrefl _)]
  rfl

private theorem acceptedBefore_extract (inside : cut ≤ text.size) {place : Nat}
    (before : place ≤ cut) (accepts : Char → Bool) :
    acceptedBefore (text.extract 0 cut) accepts place = acceptedBefore text accepts place := by
  cases place with
  | zero => rfl
  | succ place =>
      rw [acceptedBefore, acceptedBefore, getElem?_extract inside, if_pos (by omega)]

private theorem hasAt_extract (inside : cut ≤ text.size) {chars : List Char} {place : Nat}
    (before : place ≤ cut) :
    hasAt (text.extract 0 cut) chars place =
      (hasAt text chars place && decide (place + chars.length ≤ cut)) := by
  induction chars generalizing place with
  | nil => simp [hasAt, before]
  | cons c rest ih =>
      rw [hasAt, hasAt, getElem?_extract inside, List.length_cons]
      by_cases more : place < cut
      · have shift : place + 1 + rest.length = place + (rest.length + 1) := by omega
        rw [if_pos more, ih (by omega), Bool.and_assoc, shift]
      · have beyond : ¬ place + (rest.length + 1) ≤ cut := by omega
        rw [if_neg more, decide_eq_false beyond, Bool.and_false]
        rfl

private theorem spanEnd_extract (inside : cut ≤ text.size) (accepts : Char → Bool) {place : Nat}
    (before : place ≤ cut) :
    spanEnd (text.extract 0 cut) accepts (cut - place) place =
      min (spanEnd text accepts (text.size - place) place) cut := by
  obtain ⟨length, same⟩ := Nat.exists_eq_add_of_le before
  induction length generalizing place with
  | zero =>
      have further := spanEnd_ge text accepts (text.size - place) place
      rw [show cut - place = 0 by omega, spanEnd]
      omega
  | succ length ih =>
      rw [show cut - place = (cut - (place + 1)) + 1 by omega,
        show text.size - place = (text.size - (place + 1)) + 1 by omega, spanEnd_succ,
        spanEnd_succ, acceptedAt_extract inside (by omega)]
      split
      · exact ih (by omega) (by omega)
      · omega

/-! ### Endings in a cut text -/

private theorem range'_filter {place length : Nat} (before : place ≤ cut) :
    (List.range' place (length + 1)).filter (fun stop => stop ≤ cut) =
      List.range' place (min (place + length) cut - place + 1) := by
  induction length generalizing place with
  | zero => simp [before]
  | succ length ih =>
      rw [List.range'_succ, List.filter_cons_of_pos (by simpa using before)]
      by_cases more : place + 1 ≤ cut
      · rw [ih more, show min (place + (length + 1)) cut - place + 1 =
          (min (place + 1 + length) cut - (place + 1) + 1) + 1 by omega,
          List.range'_succ (n := min (place + 1 + length) cut - (place + 1) + 1)]
      · have none :
            (List.range' (place + 1) (length + 1)).filter (fun stop => stop ≤ cut) = [] := by
          rw [List.filter_eq_nil_iff]
          intro stop member
          rw [List.mem_range'_1] at member
          simp only [decide_eq_true_eq]
          omega
        rw [none, show min (place + (length + 1)) cut - place + 1 = 1 by omega]
        rfl

private theorem filter_within {stop : Nat} (within : stop ≤ cut) :
    [((stop, []) : Ending)].filter (notBehind cut) = [(stop, [])] := by
  simp [notBehind, within]

private theorem filter_behind {stop : Nat} (behind : cut < stop) :
    [((stop, []) : Ending)].filter (notBehind cut) = [] := by
  simp [notBehind, behind]

private theorem repeatedEndings_ge {step : Nat → List Ending} {eager : Bool} {fuel place : Nat}
    {ending : Ending} (member : ending ∈ repeatedEndings step eager fuel place) :
    place ≤ ending.1 :=
  repeatedEndings_induction Nat.le_refl
    (fun _ _ _ _ forward reached => Nat.le_trans (Nat.le_of_lt forward) reached) member

/-- What follows an ending behind the cut is behind the cut. -/
theorem filter_later {later : Nat} (behind : cut < later) {endings : List Ending}
    (further : ∀ ending ∈ endings, later ≤ ending.1) (parts : Parts) :
    (endings.map fun last => (last.1, last.2 ++ parts)).filter (notBehind cut) = [] := by
  rw [List.filter_eq_nil_iff]
  intro ending member
  obtain ⟨last, lastMember, same⟩ := List.mem_map.mp member
  have reached := further last lastMember
  subst same
  simp only [notBehind, decide_eq_true_eq]
  omega

private theorem filter_parts (endings : List Ending) (parts : Parts) :
    (endings.map fun last => (last.1, last.2 ++ parts)).filter (notBehind cut) =
      (endings.filter (notBehind cut)).map fun last => (last.1, last.2 ++ parts) :=
  List.filter_map

/-- Where no step moves on, a repetition stays. -/
theorem repeatedEndings_stay {step : Nat → List Ending} {place : Nat}
    (stuck : ∀ ending ∈ step place, ending.1 ≤ place) (eager : Bool) (fuel : Nat) :
    repeatedEndings step eager fuel place = [(place, [])] := by
  cases fuel with
  | zero => rfl
  | succ fuel =>
      have none : ((step place).flatMap fun first =>
          if place < first.1 then
            (repeatedEndings step eager fuel first.1).map fun last => (last.1, last.2 ++ first.2)
          else []) = [] := by
        rw [List.flatMap_eq_nil_iff]
        intro first member
        exact if_neg (Nat.not_lt.mpr (stuck first member))
      rw [repeatedEndings, none]
      cases eager <;> rfl

/-- Once there is a repetition for every character left, more make no difference. -/
theorem repeatedEndings_fuel {step : Nat → List Ending} {size : Nat}
    (bounded : ∀ place ≤ size, ∀ ending ∈ step place, ending.1 ≤ size) (eager : Bool)
    {fuel other place : Nat} (inside : place ≤ size) (enough : size ≤ place + fuel)
    (otherEnough : size ≤ place + other) :
    repeatedEndings step eager fuel place = repeatedEndings step eager other place := by
  induction fuel generalizing other place with
  | zero =>
      have stuck : ∀ ending ∈ step place, ending.1 ≤ place := fun ending member =>
        Nat.le_trans (bounded place inside ending member) enough
      rw [repeatedEndings_stay stuck, repeatedEndings_stay stuck]
  | succ fuel ih =>
      cases other with
      | zero =>
          have stuck : ∀ ending ∈ step place, ending.1 ≤ place := fun ending member =>
            Nat.le_trans (bounded place inside ending member) otherEnough
          rw [repeatedEndings_stay stuck, repeatedEndings_stay stuck]
      | succ other =>
          rw [repeatedEndings, repeatedEndings]
          have more : ∀ first ∈ step place,
              (if place < first.1 then
                (repeatedEndings step eager fuel first.1).map fun last =>
                  (last.1, last.2 ++ first.2)
              else []) =
              if place < first.1 then
                (repeatedEndings step eager other first.1).map fun last =>
                  (last.1, last.2 ++ first.2)
              else [] := by
            intro first member
            have reached := bounded place inside first member
            split
            · rw [@ih other first.1 reached (by omega) (by omega)]
            · rfl
          rw [List.flatMap_def, List.flatMap_def, List.map_congr_left more]

private theorem repeatedEndings_filter {step cutStep : Nat → List Ending}
    (same : ∀ place ≤ cut, cutStep place = (step place).filter (notBehind cut)) (eager : Bool)
    (fuel : Nat) {place : Nat} (before : place ≤ cut) :
    repeatedEndings cutStep eager fuel place =
      (repeatedEndings step eager fuel place).filter (notBehind cut) := by
  induction fuel generalizing place with
  | zero => exact (filter_within before).symm
  | succ fuel ih =>
      have more : ((cutStep place).flatMap fun first =>
            if place < first.1 then
              (repeatedEndings cutStep eager fuel first.1).map fun last =>
                (last.1, last.2 ++ first.2)
            else []) =
          ((step place).flatMap fun first =>
            if place < first.1 then
              (repeatedEndings step eager fuel first.1).map fun last => (last.1, last.2 ++ first.2)
            else []).filter (notBehind cut) := by
        rw [same place before, List.filter_flatMap]
        apply flatMap_filter_congr
        · intro first _member kept
          have within : first.1 ≤ cut := of_decide_eq_true kept
          split
          · rw [filter_parts, ih within]
          · rfl
        · intro first _member dropped
          have behind : cut < first.1 := Nat.lt_of_not_le (of_decide_eq_false dropped)
          split
          · exact filter_later behind (fun _ => repeatedEndings_ge) first.2
          · rfl
      rw [repeatedEndings, repeatedEndings, more]
      cases eager with
      | true =>
          rw [if_pos rfl, if_pos rfl, List.filter_append, filter_within before]
      | false =>
          have stays : notBehind cut (place, []) = true := decide_eq_true before
          rw [if_neg Bool.false_ne_true, if_neg Bool.false_ne_true, List.filter_cons_of_pos stays]

private theorem stayIf_filter {place : Nat} (before : place ≤ cut) (allowed : Bool) :
    (stayIf allowed place).filter (notBehind cut) = stayIf allowed place := by
  cases allowed with
  | true => exact filter_within before
  | false => rfl

/-- In a cut text a pattern that does not look ahead has the endings that are not behind the
cut. -/
theorem endings_extract (inside : cut ≤ text.size) {pattern : Pattern}
    (ahead : pattern.forward = true) {place : Nat} (before : place ≤ cut) :
    endings (text.extract 0 cut) pattern place =
      (endings text pattern place).filter (notBehind cut) := by
  induction pattern generalizing place with
  | nothing => exact (filter_within before).symm
  | literal chars =>
      rw [endings, endings, hasAt_extract inside before]
      cases hasAt text chars place with
      | false => rfl
      | true =>
          rw [Bool.true_and, if_pos rfl]
          by_cases within : place + chars.length ≤ cut
          · rw [decide_eq_true within, filter_within within]
            rfl
          · rw [decide_eq_false within, filter_behind (Nat.lt_of_not_le within)]
            rfl
  | one accepts =>
      rw [endings, endings]
      by_cases more : place < cut
      · rw [acceptedAt_extract inside more]
        split
        · exact (filter_within more).symm
        · rfl
      · rw [show place = cut by omega, acceptedAt_cut inside, if_neg Bool.false_ne_true]
        split
        · exact (filter_behind (Nat.lt_succ_self cut)).symm
        · rfl
  | span eager accepts =>
      have further := spanEnd_ge text accepts (text.size - place) place
      have ends := @range'_filter cut place
        (spanEnd text accepts (text.size - place) place - place) before
      rw [show place + (spanEnd text accepts (text.size - place) place - place) =
        spanEnd text accepts (text.size - place) place by omega] at ends
      rw [endings, endings, List.filter_map, spanEndings, spanEndings, size_extract inside,
        spanEnd_extract inside accepts before, ← ends]
      cases eager with
      | true =>
          rw [if_pos rfl, if_pos rfl, List.filter_reverse]
          rfl
      | false => rfl
  | seq first second firstCut secondCut =>
      rw [forward, Bool.and_eq_true] at ahead
      rw [endings, endings, firstCut ahead.1 before, List.filter_flatMap]
      apply flatMap_filter_congr
      · intro early _member kept
        have within : early.1 ≤ cut := of_decide_eq_true kept
        rw [filter_parts, secondCut ahead.2 within]
      · intro early _member dropped
        have behind : cut < early.1 := Nat.lt_of_not_le (of_decide_eq_false dropped)
        refine filter_later behind (fun last member => ?_) early.2
        exact Ends.le ⟨last.2, member⟩
  | either first second firstCut secondCut =>
      rw [forward, Bool.and_eq_true] at ahead
      rw [endings, endings, List.filter_append, firstCut ahead.1 before,
        secondCut ahead.2 before]
  | many eager body bodyCut =>
      have same : ∀ place ≤ cut, endings (text.extract 0 cut) body place =
          (endings text body place).filter (notBehind cut) := fun place within =>
        bodyCut ahead within
      have bounded : ∀ place ≤ cut, ∀ ending ∈ endings (text.extract 0 cut) body place,
          ending.1 ≤ cut := by
        intro place within ending member
        rw [same place within] at member
        exact of_decide_eq_true (List.mem_filter.mp member).2
      have more := @repeatedEndings_fuel _ cut bounded eager (cut - place) (text.size - place)
        place before (by omega) (by omega)
      rw [endings, endings, size_extract inside, more]
      exact repeatedEndings_filter same eager _ before
  | part which body bodyCut =>
      rw [endings, endings, bodyCut ahead before, List.filter_map]
      rfl
  | behind wanted accepts =>
      rw [endings, endings, stayIf_filter before, acceptedBefore_extract inside before]
  | lineStart =>
      rw [endings, endings, stayIf_filter before, atLineStart, atLineStart,
        acceptedBefore_extract inside before]
  | ahead | lineEnd | textEnd | wordEdge => cases ahead

end

end SourceOutline.Pattern
