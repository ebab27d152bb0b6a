import SourceOutline.Proofs.Pattern.Ending

set_option autoImplicit false

/-! What a match may take of a text.

The characters that a pattern may take are told by its shape, and so is much of where a match
begins and ends.  Each of these facts is a check over the pattern, which says nothing about a text,
and a theorem that it holds in every text. -/

namespace SourceOutline.Pattern

/-- A pattern tried at a place can end at another one. -/
def Ends (text : Array Char) (pattern : Pattern) (place stop : Nat) : Prop :=
  ∃ parts, (stop, parts) ∈ endings text pattern place

def Takes (text : Array Char) (accepts : Char → Bool) (start stop : Nat) : Prop :=
  start ≤ stop ∧ ∀ place, start ≤ place → place < stop → acceptedAt text accepts place = true

section

variable {text : Array Char}

/-! ### Endings of composed patterns -/

theorem ends_seq {first second : Pattern} {place stop : Nat} :
    Ends text (.seq first second) place stop ↔
      ∃ middle, Ends text first place middle ∧ Ends text second middle stop := by
  unfold Ends
  simp only [endings, List.mem_flatMap, List.mem_map]
  constructor
  · rintro ⟨parts, early, firstMember, last, secondMember, same⟩
    cases same
    exact ⟨early.1, ⟨early.2, firstMember⟩, last.2, secondMember⟩
  · rintro ⟨middle, ⟨early, firstMember⟩, last, secondMember⟩
    exact ⟨last ++ early, (middle, early), firstMember, (stop, last), secondMember, rfl⟩

theorem ends_either {first second : Pattern} {place stop : Nat} :
    Ends text (.either first second) place stop ↔
      Ends text first place stop ∨ Ends text second place stop := by
  unfold Ends
  simp only [endings, List.mem_append, exists_or]

theorem ends_part {which : Part} {body : Pattern} {place stop : Nat} :
    Ends text (.part which body) place stop ↔ Ends text body place stop := by
  unfold Ends
  simp only [endings, List.mem_map]
  constructor
  · rintro ⟨parts, last, member, same⟩
    cases same
    exact ⟨last.2, member⟩
  · rintro ⟨parts, member⟩
    exact ⟨_, (stop, parts), member, rfl⟩

theorem ends_literal {chars : List Char} {place stop : Nat} :
    Ends text (.literal chars) place stop ↔
      hasAt text chars place = true ∧ stop = place + chars.length := by
  unfold Ends
  rw [endings]
  split
  · rename_i here
    simp [here]
  · rename_i absent
    simp [absent]

theorem ends_one {accepts : Char → Bool} {place stop : Nat} :
    Ends text (.one accepts) place stop ↔
      acceptedAt text accepts place = true ∧ stop = place + 1 := by
  unfold Ends
  rw [endings]
  split
  · rename_i here
    simp [here]
  · rename_i absent
    simp [absent]

theorem ends_span {eager : Bool} {accepts : Char → Bool} {place stop : Nat} :
    Ends text (.span eager accepts) place stop ↔
      place ≤ stop ∧ stop ≤ spanEnd text accepts (text.size - place) place := by
  have further := spanEnd_ge text accepts (text.size - place) place
  unfold Ends
  simp only [endings, spanEndings, List.mem_map, Prod.mk.injEq]
  constructor
  · rintro ⟨parts, other, member, same, _⟩
    subst same
    cases eager <;> simp [List.mem_range'_1] at member <;> omega
  · intro between
    refine ⟨[], stop, ?_, rfl, rfl⟩
    cases eager <;> simp [List.mem_range'_1] <;> omega

theorem ends_stayIf {allowed : Bool} {place stop : Nat} :
    (∃ parts, (stop, parts) ∈ stayIf allowed place) ↔ allowed = true ∧ stop = place := by
  cases allowed <;> simp [stayIf]

theorem ends_lineStart {place stop : Nat} :
    Ends text .lineStart place stop ↔ atLineStart text place = true ∧ stop = place :=
  ends_stayIf

/-- Repetitions stop where they are, or go on from an ending of their body. -/
theorem mem_repeatedEndings_succ {step : Nat → List Ending} {eager : Bool} {fuel place : Nat}
    {ending : Ending} (member : ending ∈ repeatedEndings step eager (fuel + 1) place) :
    ending = (place, []) ∨ ∃ first ∈ step place, place < first.1 ∧
      ∃ last ∈ repeatedEndings step eager fuel first.1, ending = (last.1, last.2 ++ first.2) := by
  have cases : ending ∈ ((step place).flatMap fun first =>
        if place < first.1 then
          (repeatedEndings step eager fuel first.1).map fun last => (last.1, last.2 ++ first.2)
        else []) ∨ ending = (place, []) := by
    rw [repeatedEndings] at member
    cases eager with
    | true => simpa using member
    | false => exact Or.comm.mp (List.mem_cons.mp member)
  rcases cases with moved | here
  · obtain ⟨first, firstMember, inside⟩ := List.mem_flatMap.mp moved
    split at inside
    · rename_i forward
      obtain ⟨last, lastMember, same⟩ := List.mem_map.mp inside
      exact Or.inr ⟨first, firstMember, forward, last, lastMember, same.symm⟩
    · cases inside
  · exact Or.inl here

/-- Repetitions go from one place to another by steps of their body. -/
theorem repeatedEndings_induction {step : Nat → List Ending} {reaches : Nat → Nat → Prop}
    (stays : ∀ place, reaches place place)
    (moves : ∀ place later stop, (∃ parts, (later, parts) ∈ step place) → place < later →
      reaches later stop → reaches place stop) {eager : Bool} {fuel place : Nat} {ending : Ending}
    (member : ending ∈ repeatedEndings step eager fuel place) : reaches place ending.1 := by
  induction fuel generalizing place ending with
  | zero =>
      cases List.mem_singleton.mp member
      exact stays place
  | succ fuel ih =>
      rcases mem_repeatedEndings_succ member with here | ⟨first, inside, forward, last, later, same⟩
      · subst here
        exact stays place
      · subst same
        exact moves place first.1 last.1 ⟨first.2, inside⟩ forward (ih later)

/-! ### The characters a match takes -/

def mayTake : Pattern → Char → Bool
  | .literal chars, c => chars.contains c
  | .one accepts, c => accepts c
  | .span _ accepts, c => accepts c
  | .seq first second, c => mayTake first c || mayTake second c
  | .either first second, c => mayTake first c || mayTake second c
  | .many _ body, c => mayTake body c
  | .part _ body, c => mayTake body c
  | _, _ => false

theorem acceptedAt_iff {accepts : Char → Bool} {place : Nat} :
    acceptedAt text accepts place = true ↔ ∃ c, text[place]? = some c ∧ accepts c = true :=
  Option.any_eq_true _ _

theorem acceptedAt_lt {accepts : Char → Bool} {place : Nat}
    (here : acceptedAt text accepts place = true) : place < text.size := by
  obtain ⟨c, read, _⟩ := acceptedAt_iff.mp here
  exact (Array.getElem?_eq_some_iff.mp read).1

private theorem Takes.stay (accepts : Char → Bool) (place : Nat) : Takes text accepts place place :=
  ⟨Nat.le_refl _, fun _ _ _ => by omega⟩

theorem Takes.one {accepts : Char → Bool} {place : Nat}
    (here : acceptedAt text accepts place = true) : Takes text accepts place (place + 1) := by
  refine ⟨Nat.le_succ _, fun other behind before => ?_⟩
  rwa [show other = place by omega]

theorem Takes.trans {accepts : Char → Bool} {start middle stop : Nat}
    (first : Takes text accepts start middle) (second : Takes text accepts middle stop) :
    Takes text accepts start stop := by
  refine ⟨Nat.le_trans first.1 second.1, fun place behind before => ?_⟩
  by_cases early : place < middle
  · exact first.2 place behind early
  · exact second.2 place (Nat.le_of_not_lt early) before

theorem Takes.mono {accepts other : Char → Bool} (weaker : ∀ c, accepts c = true → other c = true)
    {start stop : Nat} (taken : Takes text accepts start stop) : Takes text other start stop := by
  refine ⟨taken.1, fun place behind before => ?_⟩
  obtain ⟨c, read, accepted⟩ := acceptedAt_iff.mp (taken.2 place behind before)
  exact acceptedAt_iff.mpr ⟨c, read, weaker c accepted⟩

theorem takes_spanEnd (accepts : Char → Bool) (fuel place : Nat) :
    Takes text accepts place (spanEnd text accepts fuel place) := by
  induction fuel generalizing place with
  | zero => exact Takes.stay accepts place
  | succ fuel ih =>
      rw [spanEnd_succ]
      split
      · rename_i here
        exact (Takes.one here).trans (ih _)
      · exact Takes.stay accepts place

theorem takes_hasAt {chars : List Char} {place : Nat} (here : hasAt text chars place = true) :
    Takes text chars.contains place (place + chars.length) := by
  induction chars generalizing place with
  | nil => exact Takes.stay _ place
  | cons c rest ih =>
      rw [hasAt, Bool.and_eq_true, beq_iff_eq] at here
      have one : Takes text (c :: rest).contains place (place + 1) :=
        Takes.one (acceptedAt_iff.mpr ⟨c, here.1, by simp⟩)
      have others : Takes text (c :: rest).contains (place + 1) (place + 1 + rest.length) :=
        (ih here.2).mono fun other inside => by
          rw [List.contains_cons, inside, Bool.or_true]
      rw [List.length_cons, ← Nat.add_assoc, Nat.add_right_comm]
      exact one.trans others

/-- A match takes only characters that its pattern may take. -/
theorem Ends.takes {pattern : Pattern} {place stop : Nat}
    (ends : Ends text pattern place stop) : Takes text pattern.mayTake place stop := by
  induction pattern generalizing place stop with
  | nothing =>
      obtain ⟨parts, member⟩ := ends
      cases List.mem_singleton.mp member
      exact Takes.stay _ place
  | literal chars =>
      obtain ⟨here, same⟩ := ends_literal.mp ends
      rw [same]
      exact takes_hasAt here
  | one accepts =>
      obtain ⟨here, same⟩ := ends_one.mp ends
      rw [same]
      exact Takes.one here
  | span eager accepts =>
      obtain ⟨behind, before⟩ := ends_span.mp ends
      have taken := @takes_spanEnd text accepts (text.size - place) place
      exact ⟨behind, fun other after within => taken.2 other after (by omega)⟩
  | seq first second firstTakes secondTakes =>
      obtain ⟨middle, early, late⟩ := ends_seq.mp ends
      have left : Takes text (Pattern.seq first second).mayTake place middle :=
        (firstTakes early).mono fun c taken => by rw [mayTake, taken, Bool.true_or]
      have right : Takes text (Pattern.seq first second).mayTake middle stop :=
        (secondTakes late).mono fun c taken => by rw [mayTake, taken, Bool.or_true]
      exact left.trans right
  | either first second firstTakes secondTakes =>
      rcases ends_either.mp ends with left | right
      · exact (firstTakes left).mono fun c taken => by rw [mayTake, taken, Bool.true_or]
      · exact (secondTakes right).mono fun c taken => by rw [mayTake, taken, Bool.or_true]
  | many eager body bodyTakes =>
      obtain ⟨parts, member⟩ := ends
      exact repeatedEndings_induction (fun place => Takes.stay _ place)
        (fun place later stop step _ taken => (bodyTakes step).trans taken) member
  | part which body bodyTakes => exact bodyTakes (ends_part.mp ends)
  | ahead | behind | lineStart | lineEnd | textEnd | wordEdge =>
      obtain ⟨_, same⟩ := ends_stayIf.mp ends
      rw [same]
      exact Takes.stay _ place

theorem Ends.le {pattern : Pattern} {place stop : Nat} (ends : Ends text pattern place stop) :
    place ≤ stop :=
  ends.takes.1

/-- No match goes behind the end of the text. -/
theorem Ends.le_size {pattern : Pattern} {place stop : Nat}
    (ends : Ends text pattern place stop) : stop ≤ max place text.size := by
  obtain ⟨forward, taken⟩ := ends.takes
  by_cases same : stop = place
  · omega
  · have := acceptedAt_lt (taken (stop - 1) (by omega) (by omega))
    omega

theorem Ends.avoids {pattern : Pattern} {place stop : Nat} (ends : Ends text pattern place stop)
    {c : Char} (avoided : pattern.mayTake c = false) {other : Nat} (behind : place ≤ other)
    (before : other < stop) : text[other]? ≠ some c := by
  intro read
  have taken := ends.takes.2 other behind before
  rw [acceptedAt, read] at taken
  cases avoided.symm.trans taken

/-! ### Where the text of a match begins -/

def blankCodes : List Nat :=
  [0x9, 0xa, 0xb, 0xc, 0xd, 0x1c, 0x1d, 0x1e, 0x1f, 0x20, 0x85, 0xa0, 0x1680, 0x2000, 0x2001,
    0x2002, 0x2003, 0x2004, 0x2005, 0x2006, 0x2007, 0x2008, 0x2009, 0x200a, 0x2028, 0x2029,
    0x202f, 0x205f, 0x3000]

theorem mem_blankCodes {c : Char} (blank : Text.isBlank c = true) : c.toNat ∈ blankCodes := by
  simp only [Text.isBlank, Bool.or_eq_true, Bool.and_eq_true, decide_eq_true_eq, beq_iff_eq,
    UInt32.le_iff_toNat_le, ← UInt32.toNat_inj, UInt32.reduceToNat] at blank
  simp only [blankCodes, List.mem_cons, List.not_mem_nil, or_false]
  unfold Char.toNat
  omega

def sparesBlanks (accepts : Char → Bool) : Bool :=
  blankCodes.all fun code => !accepts (Char.ofNat code)

theorem isBlank_of_sparesBlanks {accepts : Char → Bool} (spares : sparesBlanks accepts = true)
    {c : Char} (accepted : accepts c = true) : Text.isBlank c = false := by
  cases blank : Text.isBlank c with
  | false => rfl
  | true =>
      have spared := List.all_eq_true.mp spares c.toNat (mem_blankCodes blank)
      rw [Char.ofNat_toNat, accepted] at spared
      cases spared

theorem eq_false_of_isBlank {accepts : Char → Bool} (spares : sparesBlanks accepts = true)
    {c : Char} (blank : Text.isBlank c = true) : accepts c = false := by
  cases accepted : accepts c with
  | false => rfl
  | true => cases blank.symm.trans (isBlank_of_sparesBlanks spares accepted)

private theorem sparesBlanks_isWord : sparesBlanks Text.isWord = true := by decide +kernel

theorem isBlank_of_isWord {c : Char} (word : Text.isWord c = true) : Text.isBlank c = false :=
  isBlank_of_sparesBlanks sparesBlanks_isWord word

theorem isWord_of_isBlank {c : Char} (blank : Text.isBlank c = true) : Text.isWord c = false :=
  eq_false_of_isBlank sparesBlanks_isWord blank

/-- Whether every match has a character that is not blank, before any line feed. -/
def leads : Pattern → Bool
  | .literal chars => chars.head?.any fun c => !Text.isBlank c
  | .one accepts => sparesBlanks accepts
  | .seq first second => leads first || (!first.mayTake '\n' && leads second)
  | .either first second => leads first && leads second
  | .part _ body => leads body
  | _ => false

def Leads (text : Array Char) (start stop : Nat) : Prop :=
  ∃ place, start ≤ place ∧ place < stop ∧
    acceptedAt text (fun c => !Text.isBlank c) place = true ∧
    ∀ other, start ≤ other → other < place → text[other]? ≠ some '\n'

theorem Ends.leads {pattern : Pattern} (leading : pattern.leads = true) {place stop : Nat}
    (ends : Ends text pattern place stop) : Leads text place stop := by
  induction pattern generalizing place stop with
  | literal chars =>
      obtain ⟨here, same⟩ := ends_literal.mp ends
      cases chars with
      | nil => cases leading
      | cons c rest =>
          rw [hasAt, Bool.and_eq_true, beq_iff_eq] at here
          refine ⟨place, Nat.le_refl _, ?_, ?_, fun _ _ _ => by omega⟩
          · rw [same, List.length_cons]
            omega
          · rw [acceptedAt, here.1]
            exact leading
  | one accepts =>
      obtain ⟨here, same⟩ := ends_one.mp ends
      refine ⟨place, Nat.le_refl _, by omega, ?_, fun _ _ _ => by omega⟩
      obtain ⟨c, read, accepted⟩ := acceptedAt_iff.mp here
      refine acceptedAt_iff.mpr ⟨c, read, ?_⟩
      rw [isBlank_of_sparesBlanks leading accepted]
      rfl
  | seq first second firstLeads secondLeads =>
      obtain ⟨middle, early, late⟩ := ends_seq.mp ends
      have forward := late.le
      rw [Pattern.leads, Bool.or_eq_true, Bool.and_eq_true, Bool.not_eq_true'] at leading
      rcases leading with here | ⟨clean, there⟩
      · obtain ⟨found, behind, before, visible, clear⟩ := firstLeads here early
        exact ⟨found, behind, by omega, visible, clear⟩
      · obtain ⟨found, behind, before, visible, clear⟩ := secondLeads there late
        refine ⟨found, Nat.le_trans early.le behind, before, visible, ?_⟩
        intro other after within
        by_cases inFirst : other < middle
        · exact early.avoids clean after inFirst
        · exact clear other (Nat.le_of_not_lt inFirst) within
  | either first second firstLeads secondLeads =>
      rw [Pattern.leads, Bool.and_eq_true] at leading
      rcases ends_either.mp ends with left | right
      · exact firstLeads leading.1 left
      · exact secondLeads leading.2 right
  | part which body bodyLeads => exact bodyLeads leading (ends_part.mp ends)
  | nothing | span | many | ahead | behind | lineStart | lineEnd | textEnd | wordEdge =>
      cases leading

theorem Leads.lt {start stop : Nat} (leads : Leads text start stop) : start < stop := by
  obtain ⟨place, behind, before, _⟩ := leads
  omega

/-! ### Where a match ends -/

def firstOf (text : Array Char) (chars : List Char) (place : Nat) : Nat :=
  spanEnd text (fun c => !chars.contains c) (text.size - place) place

def isChar (c : Char) : Pattern → Bool
  | .literal chars => chars == [c]
  | _ => false

theorem ends_of_isChar {pattern : Pattern} {c : Char} (single : pattern.isChar c = true)
    {place stop : Nat} (ends : Ends text pattern place stop) :
    text[place]? = some c ∧ stop = place + 1 := by
  cases pattern with
  | literal chars =>
      rw [beq_iff_eq.mp single] at ends
      obtain ⟨here, same⟩ := ends_literal.mp ends
      rw [hasAt, Bool.and_eq_true, beq_iff_eq] at here
      exact ⟨here.1, same⟩
  | _ => cases single

/-- Whether every match goes through the first of each of some marks in turn and then up to the
first of some last characters, each of which begins an ending of its own length. -/
def boundBy (last : List (Char × Nat)) : List Char → Pattern → Bool
  | mark :: marks, .seq first second =>
      if first.isChar mark then boundBy last marks second
      else !first.mayTake mark && boundBy last (mark :: marks) second
  | [], .seq first second =>
      last.all (fun each => !first.mayTake each.1) && boundBy last [] second
  | [], .literal chars => chars.head?.any fun c => last.lookup c == some chars.length
  | [], .either first second => boundBy last [] first && boundBy last [] second
  | [], .part _ body => boundBy last [] body
  | _, _ => false

def boundEnd (text : Array Char) (last : List (Char × Nat)) : List Char → Nat → Nat
  | mark :: marks, place => boundEnd text last marks (firstOf text [mark] place + 1)
  | [], place =>
      firstOf text (last.map Prod.fst) place +
        ((text[firstOf text (last.map Prod.fst) place]?.bind fun c => last.lookup c).getD 0)

theorem spanEnd_of_takes {accepts : Char → Bool} {start stop : Nat}
    (taken : Takes text accepts start stop) :
    spanEnd text accepts (text.size - start) start =
      spanEnd text accepts (text.size - stop) stop := by
  obtain ⟨length, same⟩ := Nat.exists_eq_add_of_le taken.1
  induction length generalizing start with
  | zero => rw [same, Nat.add_zero]
  | succ length ih =>
      have here := taken.2 start (Nat.le_refl _) (by omega)
      have inside := acceptedAt_lt here
      have fuel : text.size - start = (text.size - (start + 1)) + 1 := by omega
      rw [fuel, spanEnd_succ, if_pos here]
      exact ih ⟨by omega, fun place behind before => taken.2 place (by omega) before⟩ (by omega)

private theorem firstOf_of_ends {pattern : Pattern} {place stop : Nat}
    (ends : Ends text pattern place stop) {chars : List Char}
    (avoided : ∀ c ∈ chars, pattern.mayTake c = false) :
    firstOf text chars place = firstOf text chars stop := by
  apply spanEnd_of_takes
  apply ends.takes.mono
  intro c taken
  rw [Bool.not_eq_true']
  cases listed : chars.contains c with
  | false => rfl
  | true => cases (avoided c (List.contains_iff_mem.mp listed)).symm.trans taken

theorem firstOf_here {chars : List Char} {place : Nat} {c : Char} (read : text[place]? = some c)
    (listed : c ∈ chars) : firstOf text chars place = place := by
  unfold firstOf
  cases text.size - place with
  | zero => rfl
  | succ fuel =>
      have stops : acceptedAt text (fun c => !chars.contains c) place = false := by
        rw [acceptedAt, read]
        show (!chars.contains c) = false
        rw [List.contains_iff_mem.mpr listed]
        rfl
      rw [spanEnd_succ, stops, if_neg Bool.false_ne_true]

/-- A match that is bound ends at one place only. -/
theorem Ends.eq_boundEnd {last : List (Char × Nat)} {pattern : Pattern} {marks : List Char}
    (bound : boundBy last marks pattern = true) {place stop : Nat}
    (ends : Ends text pattern place stop) : stop = boundEnd text last marks place := by
  fun_induction boundBy last marks pattern generalizing place stop with
  | case1 mark marks first second single ih =>
      obtain ⟨middle, early, late⟩ := ends_seq.mp ends
      obtain ⟨read, same⟩ := ends_of_isChar single early
      rw [boundEnd, firstOf_here read List.mem_cons_self, ← same]
      exact ih bound late
  | case2 mark marks first second other ih =>
      obtain ⟨middle, early, late⟩ := ends_seq.mp ends
      rw [Bool.and_eq_true, Bool.not_eq_true'] at bound
      have avoided : ∀ c ∈ [mark], first.mayTake c = false := by
        intro c listed
        rw [List.mem_singleton.mp listed]
        exact bound.1
      rw [boundEnd, firstOf_of_ends early avoided]
      exact ih bound.2 late
  | case3 first second ih =>
      obtain ⟨middle, early, late⟩ := ends_seq.mp ends
      rw [Bool.and_eq_true, List.all_eq_true] at bound
      have avoided : ∀ c ∈ last.map Prod.fst, first.mayTake c = false := by
        intro c listed
        obtain ⟨each, member, same⟩ := List.mem_map.mp listed
        rw [← same]
        exact (Bool.not_eq_true' _).mp (bound.1 each member)
      rw [boundEnd, firstOf_of_ends early avoided]
      exact ih bound.2 late
  | case4 chars =>
      obtain ⟨here, same⟩ := ends_literal.mp ends
      cases chars with
      | nil => cases bound
      | cons c rest =>
          rw [hasAt, Bool.and_eq_true, beq_iff_eq] at here
          have known : last.lookup c = some (c :: rest).length := beq_iff_eq.mp bound
          have listed : c ∈ last.map Prod.fst := by
            obtain ⟨before, after, whole, _⟩ := List.lookup_eq_some_iff.mp known
            rw [whole]
            simp
          rw [boundEnd, firstOf_here here.1 listed, here.1, Option.bind_some, known]
          exact same
  | case5 first second firstBound secondBound =>
      rw [Bool.and_eq_true] at bound
      rcases ends_either.mp ends with left | right
      · exact firstBound bound.1 left
      · exact secondBound bound.2 right
  | case6 which body ih => exact ih bound (ends_part.mp ends)
  | case7 => cases bound

end

end SourceOutline.Pattern
