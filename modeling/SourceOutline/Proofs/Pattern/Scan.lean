import SourceOutline.Proofs.Pattern.Cut

set_option autoImplicit false

/-! Searches for all matches of a pattern.

A search goes on place by place, and behind each match that it finds.  A search up to a cut and one
from the cut on find together what one search finds, unless the cut goes through a match. -/

namespace SourceOutline.Pattern

section

variable {pattern : Pattern} {text : Array Char}

/-! ### Going on place by place -/

theorem matchAt?_ends {place : Nat} {found : Match}
    (matched : pattern.matchAt? text place = some found) :
    found.start = place ∧ Ends text pattern place found.stop := by
  rw [matchAt?_eq] at matched
  obtain ⟨ending, first, same⟩ := Option.map_eq_some_iff.mp matched
  subst same
  exact ⟨rfl, ending.2, List.mem_of_head? first⟩

theorem lt_resume {place : Nat} {found : Match}
    (matched : pattern.matchAt? text place = some found) : place < resume found := by
  obtain ⟨start, ends⟩ := matchAt?_ends matched
  have forward := ends.le
  unfold resume
  split <;> omega

private theorem findWithin?_matches {fuel place : Nat} {found : Match}
    (here : findWithin? pattern text fuel place = some found) :
    place ≤ found.start ∧ pattern.matchAt? text found.start = some found := by
  induction fuel generalizing place with
  | zero => cases here
  | succ fuel ih =>
      rw [findWithin?] at here
      split at here
      · rename_i matched
        cases here
        rw [(matchAt?_ends matched).1]
        exact ⟨Nat.le_refl _, matched⟩
      · obtain ⟨behind, matched⟩ := ih here
        exact ⟨by omega, matched⟩

theorem findFrom?_behind {place : Nat} (behind : text.size < place) :
    pattern.findFrom? text place = none := by
  unfold findFrom?
  rw [show text.size + 1 - place = 0 by omega]
  rfl

theorem findFrom?_step {place : Nat} (inside : place ≤ text.size) :
    pattern.findFrom? text place =
      (pattern.matchAt? text place).or (pattern.findFrom? text (place + 1)) := by
  unfold findFrom?
  rw [show text.size + 1 - place = (text.size + 1 - (place + 1)) + 1 by omega, findWithin?]
  cases pattern.matchAt? text place <;> rfl

private theorem collectFrom_toList (fuel place : Nat) (found : Array Match) :
    (collectFrom pattern text fuel place found).toList =
      found.toList ++ (collectFrom pattern text fuel place #[]).toList := by
  induction fuel generalizing place found with
  | zero => simp [collectFrom]
  | succ fuel ih =>
      rw [collectFrom, collectFrom]
      cases pattern.findFrom? text place with
      | none => simp
      | some next =>
          dsimp only
          rw [ih, ih (resume next) (#[].push next)]
          simp

private theorem collectFrom_fuel {fuel other place : Nat} (enough : text.size < place + fuel)
    (otherEnough : text.size < place + other) :
    collectFrom pattern text fuel place #[] = collectFrom pattern text other place #[] := by
  have same : (collectFrom pattern text fuel place #[]).toList =
      (collectFrom pattern text other place #[]).toList := by
    induction fuel generalizing other place with
    | zero =>
        cases other with
        | zero => rfl
        | succ other => rw [collectFrom, collectFrom, findFrom?_behind (by omega)]
    | succ fuel ih =>
        cases other with
        | zero => rw [collectFrom, collectFrom, findFrom?_behind (by omega)]
        | succ other =>
            rw [collectFrom, collectFrom]
            cases searched : pattern.findFrom? text place with
            | none => rfl
            | some next =>
                obtain ⟨behind, matched⟩ := findWithin?_matches searched
                have further := lt_resume matched
                dsimp only
                rw [collectFrom_toList fuel, collectFrom_toList other,
                  @ih other (resume next) (by omega) (by omega)]
  exact Array.toList_inj.mp same

private theorem findAllFrom_eq (place : Nat) :
    pattern.findAllFrom text place =
      match pattern.findFrom? text place with
      | some next => next :: pattern.findAllFrom text (resume next)
      | none => [] := by
  unfold findAllFrom
  cases searched : pattern.findFrom? text place with
  | none =>
      cases text.size + 1 - place with
      | zero => rfl
      | succ fuel => rw [collectFrom, searched]
  | some next =>
      obtain ⟨behind, matched⟩ := findWithin?_matches searched
      have further := lt_resume matched
      by_cases inside : place ≤ text.size
      · rw [show text.size + 1 - place = (text.size - place) + 1 by omega, collectFrom, searched]
        dsimp only
        rw [collectFrom_toList, @collectFrom_fuel pattern text (text.size - place)
          (text.size + 1 - resume next) (resume next) (by omega) (by omega)]
        rfl
      · rw [findFrom?_behind (by omega)] at searched
        cases searched

theorem findAllFrom_behind {place : Nat} (behind : text.size < place) :
    pattern.findAllFrom text place = [] := by
  rw [findAllFrom_eq, findFrom?_behind behind]

theorem findAllFrom_none {place : Nat} (missed : pattern.matchAt? text place = none) :
    pattern.findAllFrom text place = pattern.findAllFrom text (place + 1) := by
  by_cases inside : place ≤ text.size
  · rw [findAllFrom_eq, findAllFrom_eq (place + 1), findFrom?_step inside, missed]
    rfl
  · rw [findAllFrom_behind (by omega), findAllFrom_behind (by omega)]

theorem findAllFrom_some {place : Nat} (inside : place ≤ text.size) {found : Match}
    (matched : pattern.matchAt? text place = some found) :
    pattern.findAllFrom text place = found :: pattern.findAllFrom text (resume found) := by
  rw [findAllFrom_eq, findFrom?_step inside, matched]
  rfl

theorem mem_findAllFrom {place : Nat} {found : Match}
    (member : found ∈ pattern.findAllFrom text place) :
    place ≤ found.start ∧ pattern.matchAt? text found.start = some found := by
  obtain ⟨left, same⟩ : ∃ left, text.size + 1 - place = left := ⟨_, rfl⟩
  induction left using Nat.strongRecOn generalizing place with
  | ind left ih =>
      by_cases inside : place ≤ text.size
      · cases here : pattern.matchAt? text place with
        | none =>
            rw [findAllFrom_none here] at member
            obtain ⟨behind, matched⟩ := ih _ (by omega) member rfl
            exact ⟨by omega, matched⟩
        | some next =>
            rw [findAllFrom_some inside here] at member
            have further := lt_resume here
            rcases List.mem_cons.mp member with first | later
            · subst first
              rw [(matchAt?_ends here).1]
              exact ⟨Nat.le_refl _, here⟩
            · obtain ⟨behind, matched⟩ := ih _ (by omega) later rfl
              exact ⟨by omega, matched⟩
      · rw [findAllFrom_behind (by omega)] at member
        cases member

/-- Matches follow one another without overlap. -/
theorem findAllFrom_pairwise (place : Nat) :
    (pattern.findAllFrom text place).Pairwise fun found later => found.stop ≤ later.start := by
  obtain ⟨left, same⟩ : ∃ left, text.size + 1 - place = left := ⟨_, rfl⟩
  induction left using Nat.strongRecOn generalizing place with
  | ind left ih =>
      by_cases inside : place ≤ text.size
      · cases here : pattern.matchAt? text place with
        | none =>
            rw [findAllFrom_none here]
            exact ih _ (by omega) _ rfl
        | some next =>
            rw [findAllFrom_some inside here]
            have further := lt_resume here
            refine List.pairwise_cons.mpr ⟨fun later member => ?_, ih _ (by omega) _ rfl⟩
            have behind := (mem_findAllFrom member).1
            unfold resume at behind
            split at behind <;> omega
      · rw [findAllFrom_behind (by omega)]
        exact .nil

theorem stop_le_start {low high : Nat} (before : low < high) {found later : Match}
    (atLow : (pattern.findAll text)[low]? = some found)
    (atHigh : (pattern.findAll text)[high]? = some later) : found.stop ≤ later.start := by
  have ordered : (pattern.findAll text).Pairwise fun found later => found.stop ≤ later.start :=
    findAllFrom_pairwise 0
  obtain ⟨lowInside, lowSame⟩ := List.getElem?_eq_some_iff.mp atLow
  obtain ⟨highInside, highSame⟩ := List.getElem?_eq_some_iff.mp atHigh
  have ranked := List.pairwise_iff_getElem.mp ordered low high lowInside highInside before
  rwa [lowSame, highSame] at ranked

/-! ### Cutting a search -/

variable {cut : Nat}

theorem matchAt?_extract (inside : cut ≤ text.size) (ahead : pattern.forward = true) {place : Nat}
    (before : place ≤ cut) {found : Match} (matched : pattern.matchAt? text place = some found)
    (within : found.stop ≤ cut) :
    pattern.matchAt? (text.extract 0 cut) place = some found := by
  rw [matchAt?_eq] at matched ⊢
  rw [endings_extract inside ahead before]
  obtain ⟨ending, first, same⟩ := Option.map_eq_some_iff.mp matched
  obtain ⟨others, whole⟩ := List.head?_eq_some_iff.mp first
  subst same
  have kept : notBehind cut ending = true := decide_eq_true within
  rw [whole, List.filter_cons_of_pos kept]
  rfl

private theorem ends_of_extract (inside : cut ≤ text.size) (ahead : pattern.forward = true)
    {place stop : Nat} (before : place ≤ cut)
    (ends : Ends (text.extract 0 cut) pattern place stop) : Ends text pattern place stop := by
  obtain ⟨parts, member⟩ := ends
  rw [endings_extract inside ahead before] at member
  exact ⟨parts, (List.mem_filter.mp member).1⟩

theorem findAllBetween_whole : pattern.findAllBetween text 0 text.size = pattern.findAll text := by
  unfold findAllBetween findAll
  rw [Array.extract_eq_self_of_le (Nat.le_refl _)]

private theorem Leads.of_extract (inside : cut ≤ text.size) {start stop : Nat} (within : stop ≤ cut)
    (leads : Leads (text.extract 0 cut) start stop) : Leads text start stop := by
  obtain ⟨place, behind, before, shown, clear⟩ := leads
  have early : place < cut := by omega
  rw [acceptedAt_extract inside early] at shown
  refine ⟨place, behind, before, shown, fun other after earlier => ?_⟩
  have unfed := clear other after earlier
  rwa [getElem?_extract inside, if_pos (by omega)] at unfed

/-- What is found in a stretch of a text lies in the stretch, whatever the pattern sees ahead. -/
theorem mem_findAllBetween_leads (leading : pattern.leads = true) {start stop : Nat}
    (inside : stop ≤ text.size) {found : Match}
    (member : found ∈ pattern.findAllBetween text start stop) :
    start ≤ found.start ∧ found.stop ≤ stop ∧ Leads text found.start found.stop := by
  obtain ⟨behind, matched⟩ := mem_findAllFrom member
  have ends := (matchAt?_ends matched).2
  have leads := ends.leads leading
  have forward := leads.lt
  have within := ends.le_size
  rw [size_extract inside] at within
  have early : found.stop ≤ stop := by omega
  exact ⟨behind, early, leads.of_extract inside early⟩

/-- What is found in a stretch of a text lies in the stretch and is in the text. -/
theorem mem_findAllBetween (ahead : pattern.forward = true) (leading : pattern.leads = true)
    {start stop : Nat} (inside : stop ≤ text.size) {found : Match}
    (member : found ∈ pattern.findAllBetween text start stop) :
    start ≤ found.start ∧ found.stop ≤ stop ∧ Ends text pattern found.start found.stop := by
  obtain ⟨behind, within, leads⟩ := mem_findAllBetween_leads leading inside member
  have ends := (matchAt?_ends (mem_findAllFrom member).2).2
  have forward := leads.lt
  exact ⟨behind, within, ends_of_extract inside ahead (by omega) ends⟩

/-- A match that is bound is seen as well by a search that stops short of the rest of the text. -/
theorem matchAt?_of_extract (inside : cut ≤ text.size) (ahead : pattern.forward = true)
    {last : List (Char × Nat)} {marks : List Char} (bound : boundBy last marks pattern = true)
    {place : Nat} (before : place ≤ cut) {found : Match}
    (matched : pattern.matchAt? (text.extract 0 cut) place = some found) :
    pattern.matchAt? text place = some found := by
  rw [matchAt?_eq, endings_extract inside ahead before] at matched
  obtain ⟨ending, first, same⟩ := Option.map_eq_some_iff.mp matched
  obtain ⟨member, within⟩ := List.mem_filter.mp (List.mem_of_head? first)
  have all : (endings text pattern place).filter (notBehind cut) = endings text pattern place := by
    rw [List.filter_eq_self]
    intro other listed
    -- every match from this place ends where the one in the stretch does
    have stop := Ends.eq_boundEnd bound ⟨ending.2, member⟩
    have otherStop := Ends.eq_boundEnd bound ⟨other.2, listed⟩
    rw [notBehind, otherStop, ← stop]
    exact within
  rw [matchAt?_eq, ← all]
  exact matched

private theorem matchAt?_extract_none (inside : cut ≤ text.size) (ahead : pattern.forward = true)
    {place : Nat} (before : place ≤ cut) (missed : pattern.matchAt? text place = none) :
    pattern.matchAt? (text.extract 0 cut) place = none := by
  cases matched : pattern.matchAt? (text.extract 0 cut) place with
  | none => rfl
  | some found =>
      obtain ⟨parts, member⟩ := ends_of_extract inside ahead before (matchAt?_ends matched).2
      rw [matchAt?_eq, Option.map_eq_none_iff, List.head?_eq_none_iff] at missed
      rw [missed] at member
      cases member

theorem findAllFrom_size (leading : pattern.leads = true) :
    pattern.findAllFrom text text.size = [] := by
  cases matched : pattern.matchAt? text text.size with
  | none => rw [findAllFrom_none matched, findAllFrom_behind (Nat.lt_succ_self _)]
  | some found =>
      have ends := (matchAt?_ends matched).2
      have forward := (ends.leads leading).lt
      have := ends.le_size
      omega

/-- A search that no match carries over a cut is a search up to the cut and one behind it. -/
theorem findAllFrom_cut (ahead : pattern.forward = true) (leading : pattern.leads = true)
    (inside : cut ≤ text.size) {place : Nat} (before : place ≤ cut)
    (uncut : ∀ found ∈ pattern.findAllFrom text place, found.start < cut → found.stop ≤ cut) :
    pattern.findAllFrom text place =
      pattern.findAllFrom (text.extract 0 cut) place ++ pattern.findAllFrom text cut := by
  obtain ⟨left, same⟩ : ∃ left, cut - place = left := ⟨_, rfl⟩
  induction left using Nat.strongRecOn generalizing place with
  | ind left ih =>
      by_cases more : place < cut
      · cases matched : pattern.matchAt? text place with
        | none =>
            have missed := matchAt?_extract_none inside ahead before matched
            rw [findAllFrom_none matched] at uncut ⊢
            rw [findAllFrom_none missed]
            exact ih _ (by omega) more uncut rfl
        | some found =>
            obtain ⟨start, ends⟩ := matchAt?_ends matched
            have forward := (ends.leads leading).lt
            have behind : resume found = found.stop := by
              unfold resume
              rw [if_pos (by omega)]
            rw [findAllFrom_some (by omega) matched] at uncut ⊢
            have within := uncut found List.mem_cons_self (by omega)
            have short := matchAt?_extract inside ahead before matched within
            rw [findAllFrom_some (by rw [size_extract inside]; exact before) short,
              List.cons_append, behind]
            rw [behind] at uncut
            rw [ih (cut - found.stop) (by omega) within
              (fun other member => uncut other (List.mem_cons_of_mem _ member)) rfl]
      · have here : place = cut := by omega
        have none := @findAllFrom_size pattern (text.extract 0 cut) leading
        rw [size_extract inside] at none
        rw [here, none, List.nil_append]

end

end SourceOutline.Pattern
