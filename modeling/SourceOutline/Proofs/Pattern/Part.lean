import SourceOutline.Proofs.Pattern.Scan

set_option autoImplicit false

/-! Where the parts of a match stand.

A pattern that has a part on its main line is split at it: what comes before the part, its body, and
what follows.  A match then takes the text in the same three pieces. -/

namespace SourceOutline.Pattern

def names (which : Part) : Pattern → Bool
  | .seq first second => names which first || names which second
  | .either first second => names which first || names which second
  | .many _ body => names which body
  | .part other body => other == which || names which body
  | _ => false

structure Split where
  before : Pattern
  body : Pattern
  after : Pattern

/-- A pattern split at the last part of a name. -/
def around? (which : Part) : Pattern → Option Split
  | .part other body => if other == which then some ⟨.nothing, body, .nothing⟩ else none
  | .seq first second =>
      match around? which second with
      | some split => some { split with before := .seq first split.before }
      | none =>
          if names which second then none
          else
            (around? which first).map fun split => { split with after := .seq split.after second }
  | _ => none

section

variable {text : Array Char}

/-! ### Parts of endings -/

theorem mem_endings_seq {first second : Pattern} {place stop : Nat} {parts : Parts} :
    (stop, parts) ∈ endings text (.seq first second) place ↔
      ∃ middle early late, (middle, early) ∈ endings text first place ∧
        (stop, late) ∈ endings text second middle ∧ parts = late ++ early := by
  simp only [endings, List.mem_flatMap, List.mem_map, Prod.exists, Prod.mk.injEq]
  constructor
  · rintro ⟨middle, early, inFirst, other, late, inSecond, same, parts⟩
    exact ⟨middle, early, late, inFirst, same ▸ inSecond, parts.symm⟩
  · rintro ⟨middle, early, late, inFirst, inSecond, parts⟩
    exact ⟨middle, early, inFirst, stop, late, inSecond, rfl, parts.symm⟩

theorem mem_endings_part {which : Part} {body : Pattern} {place stop : Nat} {parts : Parts} :
    (stop, parts) ∈ endings text (.part which body) place ↔
      ∃ inner, (stop, inner) ∈ endings text body place ∧
        parts = (which, place, stop) :: inner := by
  simp only [endings, List.mem_map, Prod.exists, Prod.mk.injEq]
  constructor
  · rintro ⟨other, inner, inside, same, parts⟩
    subst same
    exact ⟨inner, inside, parts.symm⟩
  · rintro ⟨inner, inside, parts⟩
    exact ⟨stop, inner, inside, rfl, parts.symm⟩

private theorem parts_of_stayIf {allowed : Bool} {place : Nat} {ending : Ending}
    (member : ending ∈ stayIf allowed place) : ending.2 = [] := by
  cases allowed with
  | false => cases member
  | true =>
      cases List.mem_singleton.mp member
      rfl

private theorem names_of_mem_repeated {step : Nat → List Ending} {body : Pattern}
    (steps : ∀ place, ∀ ending ∈ step place, ∀ entry ∈ ending.2, body.names entry.1 = true)
    {eager : Bool} {fuel place : Nat} {ending : Ending}
    (member : ending ∈ repeatedEndings step eager fuel place) :
    ∀ entry ∈ ending.2, body.names entry.1 = true := by
  induction fuel generalizing place ending with
  | zero =>
      cases List.mem_singleton.mp member
      intro entry impossible
      cases impossible
  | succ fuel ih =>
      rcases mem_repeatedEndings_succ member with here | ⟨first, inside, _, last, later, same⟩
      · subst here
        intro entry impossible
        cases impossible
      · subst same
        exact List.forall_mem_append.mpr ⟨ih later, steps place first inside⟩

/-- A match has only parts that its pattern names. -/
theorem names_of_mem {pattern : Pattern} {place : Nat} {ending : Ending}
    (member : ending ∈ endings text pattern place) :
    ∀ entry ∈ ending.2, pattern.names entry.1 = true := by
  intro entry inside
  induction pattern generalizing place ending entry with
  | nothing =>
      cases List.mem_singleton.mp member
      cases inside
  | literal | one =>
      rw [endings] at member
      split at member
      · cases List.mem_singleton.mp member
        cases inside
      · cases member
  | span eager accepts =>
      obtain ⟨other, _, same⟩ := List.mem_map.mp member
      cases same
      cases inside
  | seq first second inFirst inSecond =>
      obtain ⟨middle, early, late, before, behind, same⟩ := mem_endings_seq.mp member
      rw [same] at inside
      rw [names, Bool.or_eq_true]
      rcases List.mem_append.mp inside with later | earlier
      · exact Or.inr (inSecond behind _ later)
      · exact Or.inl (inFirst before _ earlier)
  | either first second inFirst inSecond =>
      rw [names, Bool.or_eq_true]
      rcases List.mem_append.mp member with left | right
      · exact Or.inl (inFirst left _ inside)
      · exact Or.inr (inSecond right _ inside)
  | many eager body inBody =>
      exact names_of_mem_repeated (fun _ _ step => inBody step) member entry inside
  | part which body inBody =>
      obtain ⟨inner, held, same⟩ := mem_endings_part.mp member
      rw [same] at inside
      rw [names, Bool.or_eq_true, beq_iff_eq]
      rcases List.mem_cons.mp inside with own | other
      · exact Or.inl (by rw [own])
      · exact Or.inr (inBody held _ other)
  | ahead | behind | lineStart | lineEnd | textEnd | wordEdge =>
      rw [parts_of_stayIf member] at inside
      cases inside

/-! ### Matches of a split pattern -/

/-- A part that a match has, and what was found behind it. -/
structure Split.Stands (split : Split) (text : Array Char) (which : Part) (place stop : Nat)
    (parts : Parts) (start finish : Nat) (late : Parts) : Prop where
  before : Ends text split.before place start
  body : Ends text split.body start finish
  after : (stop, late) ∈ endings text split.after finish
  last : ∀ entry ∈ late, entry.1 ≠ which
  found : ∃ early, parts = late ++ (which, start, finish) :: early

private theorem around?_stands {which : Part} {pattern : Pattern} {split : Split}
    (around : pattern.around? which = some split) {place stop : Nat} {parts : Parts}
    (member : (stop, parts) ∈ endings text pattern place) :
    ∃ start finish late, split.Stands text which place stop parts start finish late := by
  induction pattern generalizing split place stop parts with
  | part other body _ =>
      rw [around?] at around
      split at around
      · rename_i same
        cases around
        rw [beq_iff_eq] at same
        subst same
        obtain ⟨inner, inside, same⟩ := mem_endings_part.mp member
        refine ⟨place, stop, [], ⟨[], List.mem_singleton.mpr rfl⟩, ⟨inner, inside⟩,
          List.mem_singleton.mpr rfl, ?_, inner, same⟩
        intro entry impossible
        cases impossible
      · cases around
  | seq first second inFirst inSecond =>
      obtain ⟨middle, early, late, before, behind, same⟩ := mem_endings_seq.mp member
      rw [around?] at around
      -- the second half has the last part of the name, or it has none
      split at around
      · rename_i inner splitSecond
        cases around
        obtain ⟨start, finish, further, stands⟩ := inSecond splitSecond behind
        obtain ⟨between, found⟩ := stands.found
        refine ⟨start, finish, further, ?_, stands.body, stands.after, stands.last,
          between ++ early, ?_⟩
        · exact ends_seq.mpr ⟨middle, ⟨early, before⟩, stands.before⟩
        · rw [same, found, List.append_assoc]
          rfl
      · split at around
        · cases around
        · rename_i unnamed
          obtain ⟨inner, splitFirst, rfl⟩ := Option.map_eq_some_iff.mp around
          obtain ⟨start, finish, further, stands⟩ := inFirst splitFirst before
          obtain ⟨between, found⟩ := stands.found
          refine ⟨start, finish, late ++ further, stands.before, stands.body, ?_, ?_, between, ?_⟩
          · exact mem_endings_seq.mpr ⟨middle, further, late, stands.after, behind, rfl⟩
          · refine List.forall_mem_append.mpr ⟨fun entry inside same => ?_, stands.last⟩
            exact unnamed (same ▸ names_of_mem behind entry inside)
          · rw [same, found, List.append_assoc]
  | nothing | literal | one | span | either | many | ahead | behind | lineStart | lineEnd
  | textEnd | wordEdge => cases around

private theorem Split.Stands.lookup {split : Split} {which : Part} {place stop : Nat}
    {parts : Parts} {start finish : Nat} {late : Parts}
    (stands : split.Stands text which place stop parts start finish late) :
    parts.lookup which = some (start, finish) := by
  obtain ⟨early, same⟩ := stands.found
  refine List.lookup_eq_some_iff.mpr ⟨late, early, same, fun entry inside => ?_⟩
  rw [bne_iff_ne]
  exact (stands.last entry inside).symm

/-- What is found behind a part is found in the whole. -/
theorem Split.Stands.lookup_late {split : Split} {which : Part} {place stop : Nat} {parts : Parts}
    {start finish : Nat} {late : Parts}
    (stands : split.Stands text which place stop parts start finish late) {other : Part}
    {range : Nat × Nat} (found : late.lookup other = some range) :
    parts.lookup other = some range := by
  obtain ⟨early, same⟩ := stands.found
  obtain ⟨before, behind, listed, first⟩ := List.lookup_eq_some_iff.mp found
  refine List.lookup_eq_some_iff.mpr ⟨before, behind ++ (which, start, finish) :: early, ?_, first⟩
  rw [same, listed, List.append_assoc]
  rfl

theorem mem_endings_of_matchAt? {pattern : Pattern} {place : Nat} {found : Match}
    (matched : pattern.matchAt? text place = some found) :
    found.start = place ∧ (found.stop, found.parts) ∈ endings text pattern place := by
  rw [matchAt?_eq] at matched
  obtain ⟨ending, first, same⟩ := Option.map_eq_some_iff.mp matched
  subst same
  exact ⟨rfl, List.mem_of_head? first⟩

/-- Where a part of a match stands. -/
theorem part?_of_around? {which : Part} {pattern : Pattern} {split : Split}
    (around : pattern.around? which = some split) {place : Nat} {found : Match}
    (matched : pattern.matchAt? text place = some found) :
    ∃ start finish, found.part? which = some (start, finish) ∧
      Ends text split.body start finish ∧ Ends text split.after finish found.stop := by
  obtain ⟨start, finish, late, stands⟩ :=
    around?_stands around (mem_endings_of_matchAt? matched).2
  exact ⟨start, finish, stands.lookup, stands.body, late, stands.after⟩

private theorem Ends.plus {accepts : Char → Bool} {place stop : Nat}
    (ends : Ends text (plus accepts) place stop) : place < stop ∧ place < text.size := by
  obtain ⟨middle, first, rest⟩ := ends_seq.mp ends
  obtain ⟨accepted, same⟩ := ends_one.mp first
  have forward := rest.le
  exact ⟨by omega, acceptedAt_lt accepted⟩

/-! ### Where a declaration starts and where its place is read off -/

/-- Two places in a match: where the text of a declaration starts, and the mark by which it is
placed.  The text starts with a part or with the match; the mark is the start of a part behind that,
or directly behind it. -/
structure Footing where
  lead? : Option Part := none
  mark? : Option Part := none

namespace Footing

def start (footing : Footing) (found : Match) : Nat :=
  footing.lead?.elim found.start found.partStart

def mark (footing : Footing) (found : Match) : Nat :=
  footing.mark?.elim (footing.lead?.elim found.start found.partStop) found.partStart

def lead (footing : Footing) (pattern : Pattern) : Option (Pattern × Pattern) :=
  footing.lead?.elim (some (.nothing, pattern)) fun which =>
    (pattern.around? which).map fun split => (split.body, split.after)

/-- What a match takes between the two places, and what it takes from the mark on. -/
def pieces (footing : Footing) (pattern : Pattern) : Option (Pattern × Pattern) :=
  (footing.lead pattern).bind fun led =>
    footing.mark?.elim (some led) fun which =>
      (led.2.around? which).map fun split =>
        (.seq led.1 split.before, .seq split.body split.after)

private theorem lead_ends {footing : Footing} {pattern first rest : Pattern}
    (leads : footing.lead pattern = some (first, rest)) {place : Nat} {found : Match}
    (matched : pattern.matchAt? text place = some found) :
    ∃ late, Ends text first (footing.start found)
        (footing.lead?.elim found.start found.partStop) ∧
      (found.stop, late) ∈ endings text rest (footing.lead?.elim found.start found.partStop) ∧
      found.start ≤ footing.start found ∧
      ∀ part range, late.lookup part = some range → found.part? part = some range := by
  obtain ⟨starts, member⟩ := mem_endings_of_matchAt? matched
  unfold lead at leads
  unfold start
  cases leading : footing.lead? with
  | none =>
      rw [leading] at leads
      cases leads
      refine ⟨found.parts, ⟨[], List.mem_singleton.mpr rfl⟩, ?_, Nat.le_refl _, fun _ _ => id⟩
      rw [Option.elim_none, starts]
      exact member
  | some part =>
      rw [leading] at leads
      obtain ⟨split, around, same⟩ := Option.map_eq_some_iff.mp leads
      cases same
      obtain ⟨start, finish, late, stands⟩ := around?_stands around member
      have here : found.part? part = some (start, finish) := stands.lookup
      have startEq : found.partStart part = start := by rw [Match.partStart, here]; rfl
      have stopEq : found.partStop part = finish := by rw [Match.partStop, here]; rfl
      rw [Option.elim_some, Option.elim_some, startEq, stopEq, starts]
      exact ⟨late, stands.body, stands.after, stands.before.le,
        fun other range looked => stands.lookup_late looked⟩

/-- A match takes the pieces one behind the other. -/
theorem pieces_end {footing : Footing} {pattern lead tail : Pattern}
    (split : footing.pieces pattern = some (lead, tail)) {place : Nat} {found : Match}
    (matched : pattern.matchAt? text place = some found) :
    found.start ≤ footing.start found ∧
      Ends text lead (footing.start found) (footing.mark found) ∧
      Ends text tail (footing.mark found) found.stop := by
  obtain ⟨⟨first, rest⟩, leads, parted⟩ := Option.bind_eq_some_iff.mp split
  obtain ⟨late, early, member, behind, known⟩ := lead_ends leads matched
  unfold mark
  cases marked : footing.mark? with
  | none =>
      rw [marked] at parted
      cases parted
      exact ⟨behind, early, late, member⟩
  | some part =>
      rw [marked] at parted
      obtain ⟨split, around, same⟩ := Option.map_eq_some_iff.mp parted
      cases same
      obtain ⟨start, finish, further, stands⟩ := around?_stands around member
      have here : found.partStart part = start := by
        rw [Match.partStart, known part _ stands.lookup]
        rfl
      rw [Option.elim_some, here]
      exact ⟨behind, ends_seq.mpr ⟨_, early, stands.before⟩,
        ends_seq.mpr ⟨finish, stands.body, further, stands.after⟩⟩

end Footing

/-! ### How matches begin and end -/

def isStill : Pattern → Bool
  | .nothing | .ahead _ _ | .behind _ _ | .lineStart | .lineEnd | .textEnd | .wordEdge => true
  | _ => false

theorem Ends.eq_of_isStill {pattern : Pattern} (still : pattern.isStill = true) {place stop : Nat}
    (ends : Ends text pattern place stop) : stop = place := by
  cases pattern with
  | nothing =>
      obtain ⟨parts, member⟩ := ends
      cases List.mem_singleton.mp member
      rfl
  | ahead | behind | lineStart | lineEnd | textEnd | wordEdge => exact (ends_stayIf.mp ends).2
  | literal | one | span | seq | either | many | part => cases still

def isMark (c : Char) : Bool :=
  !Text.isBlank c && c != '{' && c != '}'

private theorem isBlank_of_isMark {c : Char} (mark : isMark c = true) : Text.isBlank c = false := by
  rw [isMark, Bool.and_eq_true, Bool.and_eq_true, Bool.not_eq_true'] at mark
  exact mark.1.1

theorem shown_of_marked {place : Nat} (marked : acceptedAt text isMark place = true) :
    acceptedAt text (fun c => !Text.isBlank c) place = true := by
  obtain ⟨c, read, mark⟩ := acceptedAt_iff.mp marked
  exact acceptedAt_iff.mpr ⟨c, read, by rw [isBlank_of_isMark mark]; rfl⟩

def opens : Pattern → Bool
  | .literal chars => chars.head?.any isMark
  | .one accepts => sparesBlanks accepts && !accepts '{' && !accepts '}'
  | .seq first second => opens first || (first.isStill && opens second)
  | .either first second => opens first && opens second
  | .part _ body => opens body
  | _ => false

theorem Ends.opens {pattern : Pattern} (opening : pattern.opens = true) {place stop : Nat}
    (ends : Ends text pattern place stop) :
    place < stop ∧ acceptedAt text isMark place = true := by
  induction pattern generalizing place stop with
  | literal chars =>
      obtain ⟨here, same⟩ := ends_literal.mp ends
      cases chars with
      | nil => cases opening
      | cons c rest =>
          rw [hasAt, Bool.and_eq_true, beq_iff_eq] at here
          refine ⟨?_, acceptedAt_iff.mpr ⟨c, here.1, opening⟩⟩
          rw [same, List.length_cons]
          omega
  | one accepts =>
      obtain ⟨here, same⟩ := ends_one.mp ends
      obtain ⟨c, read, accepted⟩ := acceptedAt_iff.mp here
      rw [Pattern.opens, Bool.and_eq_true, Bool.and_eq_true] at opening
      refine ⟨by omega, acceptedAt_iff.mpr ⟨c, read, ?_⟩⟩
      have visible := isBlank_of_sparesBlanks opening.1.1 accepted
      have unopened : c ≠ '{' := by
        rintro rfl
        rw [accepted] at opening
        exact absurd opening.1.2 (by decide)
      have unclosed : c ≠ '}' := by
        rintro rfl
        rw [accepted] at opening
        exact absurd opening.2 (by decide)
      simp [isMark, visible, unopened, unclosed]
  | seq first second inFirst inSecond =>
      obtain ⟨middle, early, late⟩ := ends_seq.mp ends
      have forward := late.le
      rw [Pattern.opens, Bool.or_eq_true, Bool.and_eq_true] at opening
      rcases opening with here | ⟨still, there⟩
      · obtain ⟨before, read⟩ := inFirst here early
        exact ⟨by omega, read⟩
      · rw [early.eq_of_isStill still] at late
        exact inSecond there late
  | either first second inFirst inSecond =>
      rw [Pattern.opens, Bool.and_eq_true] at opening
      rcases ends_either.mp ends with left | right
      · exact inFirst opening.1 left
      · exact inSecond opening.2 right
  | part which body inBody => exact inBody opening (ends_part.mp ends)
  | nothing | span | many | ahead | behind | lineStart | lineEnd | textEnd | wordEdge =>
      cases opening

theorem opens_seq {first : Pattern} (opening : first.opens = true) (second : Pattern) :
    (Pattern.seq first second).opens = true := by
  rw [Pattern.opens, opening, Bool.true_or]

theorem word_opens : word.opens = true := by decide +kernel

def closesWith (c : Char) : Pattern → Bool
  | .literal chars => isChar c (.literal chars)
  | .seq _ second => closesWith c second
  | _ => false

theorem Ends.closesWith {c : Char} {pattern : Pattern} (closing : pattern.closesWith c = true)
    {place stop : Nat} (ends : Ends text pattern place stop) :
    place < stop ∧ text[stop - 1]? = some c := by
  induction pattern generalizing place stop with
  | literal chars =>
      obtain ⟨read, same⟩ := ends_of_isChar closing ends
      rw [same]
      exact ⟨Nat.lt_succ_self _, read⟩
  | seq first second _ inSecond =>
      obtain ⟨middle, early, late⟩ := ends_seq.mp ends
      obtain ⟨before, read⟩ := inSecond closing late
      exact ⟨Nat.lt_of_le_of_lt early.le before, read⟩
  | _ => cases closing

/-- A match that goes up to the first of a character and ends with it tells where that one is. -/
theorem Ends.firstOf_eq {c : Char} {pattern : Pattern} (bound : boundBy [(c, 1)] [] pattern = true)
    (closing : pattern.closesWith c = true) {place stop : Nat}
    (ends : Ends text pattern place stop) :
    firstOf text [c] place = stop - 1 ∧ text[stop - 1]? = some c ∧ place < stop := by
  obtain ⟨forward, read⟩ := ends.closesWith closing
  refine ⟨?_, read, forward⟩
  have same := ends.eq_boundEnd bound
  rw [boundEnd, show [(c, 1)].map Prod.fst = [c] from rfl] at same
  -- the character ends the match, so it cannot stand before the first of its kind
  have reached : firstOf text [c] place < stop := by
    refine Nat.lt_of_not_le fun beyond => ?_
    have accepted := (takes_spanEnd _ _ place).2 (stop - 1) (by omega)
      (show stop - 1 < firstOf text [c] place by omega)
    obtain ⟨other, here, spared⟩ := acceptedAt_iff.mp accepted
    cases read.symm.trans here
    simp at spared
  have short : ∀ found : Option Char, (found.bind fun d => [(c, 1)].lookup d).getD 0 ≤ 1 := by
    intro found
    cases found with
    | none => exact Nat.zero_le 1
    | some d =>
        rw [Option.bind_some, List.lookup_cons]
        split
        · exact Nat.le_refl 1
        · exact Nat.zero_le 1
  have width := short text[firstOf text [c] place]?
  omega

/-! ### Marks in a stretch -/

/-- What is found in a stretch has both places of a footing in the stretch, if the mark begins with
a character. -/
theorem Footing.mem_findAllBetween {footing : Footing} {pattern lead tail : Pattern}
    (split : footing.pieces pattern = some (lead, tail)) (opening : tail.opens = true)
    {start stop : Nat} (inside : stop ≤ text.size) {found : Match}
    (member : found ∈ pattern.findAllBetween text start stop) :
    start ≤ footing.start found ∧ footing.start found ≤ footing.mark found ∧
      footing.mark found < found.stop ∧ found.stop ≤ stop ∧
      acceptedAt text isMark (footing.mark found) = true := by
  obtain ⟨behind, matched⟩ := mem_findAllFrom member
  obtain ⟨after, early, late⟩ := pieces_end split matched
  obtain ⟨forward, marked⟩ := late.opens opening
  have before := acceptedAt_lt marked
  have bound := late.le_size
  rw [size_extract inside] at before bound
  have order := early.le
  refine ⟨by omega, order, forward, by omega, ?_⟩
  rw [← acceptedAt_extract inside before isMark]
  exact marked

/-- A part that takes at least one character takes some text of the stretch it is found in. -/
theorem part?_of_plus {which : Part} {accepts : Char → Bool} {pattern before after : Pattern}
    (around : pattern.around? which = some ⟨before, plus accepts, after⟩) {start stop : Nat}
    (inside : stop ≤ text.size) {found : Match}
    (member : found ∈ pattern.findAllBetween text start stop) :
    ∃ first last, found.part? which = some (first, last) ∧ first < last ∧ last ≤ text.size := by
  obtain ⟨first, last, here, body, _⟩ := part?_of_around? around (mem_findAllFrom member).2
  obtain ⟨forward, early⟩ := body.plus
  have bound := body.le_size
  rw [size_extract inside] at early bound
  exact ⟨first, last, here, forward, by omega⟩

/-! ### The text of alternatives -/

theorem listed_of_hasAt {chars : List Char} {place : Nat} (here : hasAt text chars place = true) :
    chars <+: text.toList.drop place := by
  induction chars generalizing place with
  | nil => exact List.nil_prefix
  | cons c rest ih =>
      rw [hasAt, Bool.and_eq_true, beq_iff_eq] at here
      obtain ⟨inside, read⟩ := Array.getElem?_eq_some_iff.mp here.1
      have listed : place < text.toList.length := inside
      rw [List.drop_eq_getElem_cons listed, Array.getElem_toList, read]
      exact List.prefix_cons_inj c |>.mpr (ih here.2)

/-- What one of several texts takes is that text. -/
theorem extract_of_choiceOf {texts : List String} {place stop : Nat}
    (ends : Ends text (choiceOf texts) place stop) :
    ∃ word ∈ texts, (text.extract place stop).toList = word.toList := by
  have alternatives : ∀ texts : List String, Ends text (choice (texts.map lit)) place stop →
      ∃ word ∈ texts, Ends text (lit word) place stop := by
    intro texts
    induction texts with
    | nil =>
        intro ends
        obtain ⟨here, _⟩ := ends_one.mp ends
        obtain ⟨c, _, impossible⟩ := acceptedAt_iff.mp here
        cases impossible
    | cons first rest ih =>
        intro ends
        cases rest with
        | nil => exact ⟨first, List.mem_cons_self, ends⟩
        | cons second others =>
            rcases ends_either.mp ends with here | there
            · exact ⟨first, List.mem_cons_self, here⟩
            · obtain ⟨word, member, found⟩ := ih there
              exact ⟨word, List.mem_cons_of_mem _ member, found⟩
  obtain ⟨word, member, found⟩ := alternatives texts ends
  obtain ⟨here, same⟩ := ends_literal.mp found
  refine ⟨word, member, ?_⟩
  have taken := List.prefix_iff_eq_take.mp (listed_of_hasAt here)
  rw [same, Array.toList_extract, List.extract_eq_take_drop, Nat.add_sub_cancel_left]
  exact taken.symm

end

end SourceOutline.Pattern
