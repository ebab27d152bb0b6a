import SourceOutline.Proofs.Text.CommaList

set_option autoImplicit false

/-! Where a comma list is split.

A reader expects a list to be split at the commas that stand in no pair of brackets.  The split
counts brackets of all kinds together, and takes `<` and `>` for brackets also where they are signs
of comparison or part of an arrow.  So a comma is taken for a separator wherever the angle brackets
before it make up for the pairs that are open. -/

namespace SourceOutline.Text

/-! ### Nested brackets -/

/-- The brackets that are nothing but brackets. -/
def pairs : List (Char × Char) := [('(', ')'), ('[', ']'), ('{', '}')]

def anglePairs : List (Char × Char) := [('<', '>')]

def allPairs : List (Char × Char) := pairs ++ anglePairs

def opensIn (pairs : List (Char × Char)) (c : Char) : Bool :=
  pairs.any fun pair => pair.1 == c

def closesIn (pairs : List (Char × Char)) (c : Char) : Bool :=
  pairs.any fun pair => pair.2 == c

/-- A text in which brackets of some kinds are closed in the reverse order of their opening, each by
its own counterpart. -/
inductive Nested (pairs : List (Char × Char)) : List Char → Prop
  | nil : Nested pairs []
  | plain {c : Char} {rest : List Char} (unopened : opensIn pairs c = false)
      (unclosed : closesIn pairs c = false) (later : Nested pairs rest) : Nested pairs (c :: rest)
  | pair {opening closing : Char} {inner rest : List Char} (known : (opening, closing) ∈ pairs)
      (within : Nested pairs inner) (later : Nested pairs rest) :
      Nested pairs (opening :: (inner ++ closing :: rest))

/-- A place lies within a pair of brackets: behind the one that opens it and not behind the one that
closes it. -/
def Within (pairs : List (Char × Char)) (text : List Char) (place : Nat) : Prop :=
  ∃ before opening inner closing after, (opening, closing) ∈ pairs ∧ Nested pairs inner ∧
    text = before ++ opening :: (inner ++ closing :: after) ∧
    before.length < place ∧ place ≤ before.length + 1 + inner.length

def levelIn (pairs : List (Char × Char)) (text : List Char) : Int :=
  (text.countP (opensIn pairs) : Nat) - (text.countP (closesIn pairs) : Nat)

def AreApart (pairs : List (Char × Char)) : Prop :=
  ∀ one ∈ pairs, ∀ other ∈ pairs, one.1 ≠ other.2

private theorem pairs_apart : AreApart pairs := by
  unfold AreApart
  decide

private theorem allPairs_apart : AreApart allPairs := by
  unfold AreApart
  decide

section

variable {pairs : List (Char × Char)}

private theorem Nested.of_plain {text : List Char}
    (plain : (text.any fun c => opensIn pairs c || closesIn pairs c) = false) :
    Nested pairs text := by
  induction text with
  | nil => exact .nil
  | cons c rest ih =>
      obtain ⟨first, others⟩ := Bool.or_eq_false_iff.mp plain
      obtain ⟨unopened, unclosed⟩ := Bool.or_eq_false_iff.mp first
      exact .plain unopened unclosed (ih others)

private theorem Nested.append {left right : List Char} (first : Nested pairs left)
    (second : Nested pairs right) : Nested pairs (left ++ right) := by
  induction first with
  | nil => exact second
  | plain unopened unclosed _ ih => exact .plain unopened unclosed ih
  | @pair opening closing inner rest known within _ _ ih =>
      rw [List.cons_append, List.append_assoc, List.cons_append]
      exact .pair known within ih

/-- Brackets of some kinds are nested if they are nested with brackets of other kinds. -/
theorem Nested.restrict {kinds : List (Char × Char)} (fewer : ∀ pair ∈ kinds, pair ∈ pairs)
    (others : ∀ pair ∈ pairs, pair ∈ kinds ∨ ∀ c ∈ [pair.1, pair.2],
      opensIn kinds c = false ∧ closesIn kinds c = false)
    {text : List Char} (nested : Nested pairs text) : Nested kinds text := by
  induction nested with
  | nil => exact .nil
  | plain unopened unclosed _ ih =>
      refine .plain ?_ ?_ ih
      · exact List.any_eq_false.mpr fun pair member =>
          List.any_eq_false.mp unopened pair (fewer pair member)
      · exact List.any_eq_false.mpr fun pair member =>
          List.any_eq_false.mp unclosed pair (fewer pair member)
  | @pair opening closing inner rest known _ _ within later =>
      rcases others _ known with kept | plain
      · exact .pair kept within later
      · obtain ⟨opens, closes⟩ := List.forall_mem_cons.mp plain
        have closing := List.forall_mem_singleton.mp closes
        exact .plain opens.1 opens.2 (within.append (.plain closing.1 closing.2 later))

/-! ### Levels -/

theorem levelIn_append (left right : List Char) :
    levelIn pairs (left ++ right) = levelIn pairs left + levelIn pairs right := by
  unfold levelIn
  rw [List.countP_append, List.countP_append]
  omega

private theorem levelIn_plain {c : Char} (unopened : opensIn pairs c = false)
    (unclosed : closesIn pairs c = false) (rest : List Char) :
    levelIn pairs (c :: rest) = levelIn pairs rest := by
  simp [levelIn, unopened, unclosed]

variable (apart : AreApart pairs)

include apart

private theorem levelIn_opening {opening closing : Char} (known : (opening, closing) ∈ pairs)
    (rest : List Char) : levelIn pairs (opening :: rest) = levelIn pairs rest + 1 := by
  have opens : opensIn pairs opening = true :=
    List.any_eq_true.mpr ⟨_, known, beq_self_eq_true _⟩
  have closes : closesIn pairs opening = false := by
    refine List.any_eq_false.mpr fun other member same => ?_
    exact apart _ known other member (beq_iff_eq.mp same).symm
  unfold levelIn
  rw [List.countP_cons_of_pos opens, List.countP_cons_of_neg (Bool.eq_false_iff.mp closes)]
  omega

private theorem levelIn_closing {opening closing : Char} (known : (opening, closing) ∈ pairs)
    (rest : List Char) : levelIn pairs (closing :: rest) = levelIn pairs rest - 1 := by
  have closes : closesIn pairs closing = true :=
    List.any_eq_true.mpr ⟨_, known, beq_self_eq_true _⟩
  have opens : opensIn pairs closing = false := by
    refine List.any_eq_false.mpr fun other member same => ?_
    exact apart other member _ known (beq_iff_eq.mp same)
  unfold levelIn
  rw [List.countP_cons_of_pos closes, List.countP_cons_of_neg (Bool.eq_false_iff.mp opens)]
  omega

namespace Nested

variable {text : List Char}

/-- All that is opened in a nested text is closed, and nothing else is. -/
theorem level_eq_zero (nested : Nested pairs text) : levelIn pairs text = 0 := by
  induction nested with
  | nil => rfl
  | plain unopened unclosed later ih => rw [levelIn_plain unopened unclosed, ih]
  | pair known within later ihWithin ihLater =>
      rw [levelIn_opening apart known, levelIn_append, levelIn_closing apart known, ihWithin,
        ihLater]
      rfl

private theorem level_take_nonneg (nested : Nested pairs text) (place : Nat) :
    0 ≤ levelIn pairs (text.take place) := by
  induction nested generalizing place with
  | nil => rw [List.take_nil]; exact Int.le_refl 0
  | plain unopened unclosed later ih =>
      cases place with
      | zero => exact Int.le_refl 0
      | succ place =>
          rw [List.take_succ_cons, levelIn_plain unopened unclosed]
          exact ih place
  | @pair opening closing inner rest known within later ihWithin ihLater =>
      cases place with
      | zero => exact Int.le_refl 0
      | succ place =>
          have inside := ihWithin place
          rw [List.take_succ_cons, levelIn_opening apart known, List.take_append, levelIn_append]
          cases place - inner.length with
          | zero =>
              change 0 ≤ levelIn pairs (inner.take place) + 0 + 1
              omega
          | succ further =>
              have behind := ihLater further
              rw [List.take_succ_cons, levelIn_closing apart known]
              omega

/-- A place lies within a pair if and only if more brackets are opened before it than closed. -/
theorem within_iff (nested : Nested pairs text) (place : Nat) :
    Within pairs text place ↔ 0 < levelIn pairs (text.take place) := by
  constructor
  · rintro ⟨before, opening, inner, closing, after, known, within, rfl, behind, ahead⟩
    obtain ⟨further, rfl⟩ : ∃ further, place = before.length + (further + 1) :=
      ⟨place - (before.length + 1), by omega⟩
    have early := nested.level_take_nonneg apart before.length
    rw [List.take_left] at early
    have inside := within.level_take_nonneg apart further
    rw [List.take_length_add_append, List.take_succ_cons, List.take_append_of_le_length (by omega),
      levelIn_append, levelIn_opening apart known]
    omega
  · intro positive
    induction nested generalizing place with
    | nil =>
        rw [List.take_nil] at positive
        exact absurd positive (Int.lt_irrefl 0)
    | @plain c rest unopened unclosed later ih =>
        cases place with
        | zero => exact absurd positive (Int.lt_irrefl 0)
        | succ place =>
            rw [List.take_succ_cons, levelIn_plain unopened unclosed] at positive
            obtain ⟨before, opening, inner, closing, after, known, within, rfl, behind, ahead⟩ :=
              ih place positive
            refine ⟨c :: before, opening, inner, closing, after, known, within, rfl, ?_, ?_⟩
            · exact Nat.succ_lt_succ behind
            · rw [List.length_cons]
              omega
    | @pair opening closing inner rest known within later ihWithin ihLater =>
        cases place with
        | zero => exact absurd positive (Int.lt_irrefl 0)
        | succ place =>
            by_cases inside : place ≤ inner.length
            · refine ⟨[], opening, inner, closing, rest, known, within, rfl, Nat.succ_pos _, ?_⟩
              rw [List.length_nil]
              omega
            · -- behind the pair, what is open was opened behind it
              obtain ⟨further, rfl⟩ : ∃ further, place = inner.length + (further + 1) :=
                ⟨place - (inner.length + 1), by omega⟩
              rw [List.take_succ_cons, levelIn_opening apart known, List.take_length_add_append,
                levelIn_append, within.level_eq_zero apart, List.take_succ_cons,
                levelIn_closing apart known] at positive
              obtain ⟨before, left, middle, right, after, knownToo, inTheMiddle, rfl, behind,
                ahead⟩ := ihLater further (by omega)
              refine ⟨opening :: (inner ++ closing :: before), left, middle, right, after,
                knownToo, inTheMiddle, by simp, ?_, ?_⟩
              · simp only [List.length_cons, List.length_append]
                omega
              · simp only [List.length_cons, List.length_append]
                omega

/-- A nested text that is cut outside of all pairs is cut into nested texts. -/
theorem parts (nested : Nested pairs text) {left right : List Char} (cut : text = left ++ right)
    (outside : levelIn pairs left = 0) : Nested pairs left ∧ Nested pairs right := by
  induction nested generalizing left with
  | nil =>
      obtain ⟨rfl, rfl⟩ := List.nil_eq_append_iff.mp cut
      exact ⟨.nil, .nil⟩
  | @plain c rest unopened unclosed later ih =>
      cases left with
      | nil =>
          rw [List.nil_append] at cut
          exact ⟨.nil, cut ▸ .plain unopened unclosed later⟩
      | cons first others =>
          obtain ⟨rfl, same⟩ := List.cons.inj cut
          rw [levelIn_plain unopened unclosed] at outside
          obtain ⟨before, behind⟩ := ih same outside
          exact ⟨.plain unopened unclosed before, behind⟩
  | @pair opening closing inner rest known within later ihWithin ihLater =>
      cases left with
      | nil =>
          rw [List.nil_append] at cut
          exact ⟨.nil, cut ▸ .pair known within later⟩
      | cons first others =>
          obtain ⟨rfl, same⟩ := List.cons.inj cut
          rw [levelIn_opening apart known] at outside
          rcases List.append_eq_append_iff.mp same with ⟨more, rfl, tail⟩ | ⟨more, rfl, _⟩
          · cases more with
            | nil =>
                rw [List.append_nil, within.level_eq_zero apart] at outside
                cases outside
            | cons last more =>
                obtain ⟨rfl, further⟩ := List.cons.inj tail
                rw [levelIn_append, within.level_eq_zero apart, levelIn_closing apart known]
                  at outside
                obtain ⟨before, behind⟩ := ihLater further (by omega)
                exact ⟨.pair known within before, behind⟩
          · -- a cut inside the pair leaves it open
            have inside := within.level_take_nonneg apart others.length
            rw [List.take_left] at inside
            omega

end Nested

end

/-! ### Separators -/

/-- The brackets that a list counts are the pairs and the angle brackets. -/
theorem bracketLevel_eq (text : List Char) :
    bracketLevel text = levelIn allPairs text ∧
      levelIn allPairs text = levelIn pairs text + levelIn anglePairs text := by
  have shift : ∀ c, bracketShift c = levelIn allPairs [c] ∧
      levelIn allPairs [c] = levelIn pairs [c] + levelIn anglePairs [c] := by
    intro c
    by_cases known : c ∈ ['(', ')', '[', ']', '{', '}', '<', '>']
    · simp only [List.mem_cons, List.not_mem_nil, or_false] at known
      rcases known with rfl | rfl | rfl | rfl | rfl | rfl | rfl | rfl <;> decide
    · simp only [List.mem_cons, List.not_mem_nil, or_false, not_or] at known
      simp [bracketShift, opensBracket, closesBracket, levelIn, opensIn, closesIn, allPairs, pairs,
        anglePairs, known, Ne.symm]
  induction text with
  | nil => exact ⟨rfl, rfl⟩
  | cons c rest ih =>
      have whole : ∀ pairs, levelIn pairs (c :: rest) = levelIn pairs [c] + levelIn pairs rest :=
        fun pairs => levelIn_append [c] rest
      obtain ⟨counted, parted⟩ := shift c
      rw [bracketLevel, whole, whole, whole, ih.1]
      omega

def SplitsAt (text : List Char) (place : Nat) : Prop :=
  ∃ item ∈ commaItems text, item.offset = place + 1

private theorem offset_of_mem_commaItemsFrom {depth : Int} {offset : Nat} {opened text : List Char}
    {item : ListItem} (member : item ∈ commaItemsFrom depth offset opened text) :
    item.offset = offset ∨ offset + opened.length < item.offset := by
  induction text generalizing depth opened with
  | nil =>
      cases List.mem_singleton.mp member
      exact Or.inl rfl
  | cons c rest ih =>
      rw [commaItemsFrom_cons] at member
      split at member
      · rcases List.mem_cons.mp member with rfl | later
        · exact Or.inl rfl
        · have behind := (commaItemsFrom_pairwise _ _ _ _).2 item later
          exact Or.inr (by omega)
      · rcases ih member with same | behind
        · exact Or.inl same
        · rw [List.length_cons] at behind
          exact Or.inr (by omega)

private theorem exists_first_offset (depth : Int) (offset : Nat) (opened text : List Char) :
    ∃ item ∈ commaItemsFrom depth offset opened text, item.offset = offset := by
  induction text generalizing depth opened with
  | nil => exact ⟨_, List.mem_singleton.mpr rfl, rfl⟩
  | cons c rest ih =>
      rw [commaItemsFrom_cons]
      split
      · exact ⟨_, List.mem_cons_self, rfl⟩
      · exact ih _ _

/-- Behind some characters of the open item, the next one to start stands behind the first comma
before which no bracket is open. -/
theorem commaItemsFrom_starts_iff (depth : Int) (offset : Nat) (opened text : List Char)
    (place : Nat) :
    (∃ item ∈ commaItemsFrom depth offset opened text,
        item.offset = offset + opened.length + place + 1) ↔
      text[place]? = some ',' ∧ depth + bracketLevel (text.take place) = 0 := by
  induction text generalizing depth offset opened place with
  | nil =>
      constructor
      · rintro ⟨item, member, start⟩
        cases List.mem_singleton.mp member
        exact absurd start (by dsimp only; omega)
      · rintro ⟨impossible, _⟩
        cases impossible
  | cons c rest ih =>
      rw [commaItemsFrom_cons]
      split
      · rename_i comma
        cases place with
        | zero =>
            obtain ⟨item, member, start⟩ :=
              exists_first_offset 0 (offset + opened.length + 1) [] rest
            refine iff_of_true ⟨item, List.mem_cons_of_mem _ member, start⟩ ⟨?_, ?_⟩
            · rw [comma.1]
              rfl
            · rw [comma.2]
              rfl
        | succ place =>
            have further := ih 0 (offset + opened.length + 1) [] place
            have level : depth + bracketLevel ((c :: rest).take (place + 1)) =
                0 + bracketLevel (rest.take place) := by
              rw [List.take_succ_cons, bracketLevel, comma.1, comma.2, ← Int.add_assoc]
              rfl
            rw [List.getElem?_cons_succ, level, ← further]
            constructor
            · rintro ⟨item, member, start⟩
              rcases List.mem_cons.mp member with rfl | later
              · exact absurd start (by dsimp only; omega)
              · exact ⟨item, later, by rw [start, List.length_nil]; omega⟩
            · rintro ⟨item, member, start⟩
              refine ⟨item, List.mem_cons_of_mem _ member, ?_⟩
              rw [start, List.length_nil]
              omega
      · rename_i plain
        cases place with
        | zero =>
            refine iff_of_false ?_ ?_
            · rintro ⟨item, member, start⟩
              rcases offset_of_mem_commaItemsFrom member with same | behind
              · omega
              · rw [List.length_cons] at behind
                omega
            · rintro ⟨comma, level⟩
              exact plain ⟨Option.some.inj comma, by simpa [bracketLevel] using level⟩
        | succ place =>
            have further := ih (depth + bracketShift c) offset (c :: opened) place
            rw [List.length_cons, Int.add_assoc] at further
            rw [List.getElem?_cons_succ, List.take_succ_cons, bracketLevel, ← further,
              show offset + opened.length + (place + 1) + 1 =
                offset + (opened.length + 1) + place + 1 by omega]

theorem splitsAt_iff (text : List Char) (place : Nat) :
    SplitsAt text place ↔ text[place]? = some ',' ∧
      levelIn pairs (text.take place) + levelIn anglePairs (text.take place) = 0 := by
  have starts := commaItemsFrom_starts_iff 0 0 [] text place
  obtain ⟨counted, parted⟩ := bracketLevel_eq (text.take place)
  rw [List.length_nil, Nat.zero_add, Int.zero_add, counted, parted] at starts
  exact starts

section

variable {kinds : List (Char × Char)} (apart : AreApart kinds)
  (unopened : opensIn kinds ',' = false) (unclosed : closesIn kinds ',' = false)

include apart unopened unclosed

/-- If no pair is open at any separator, every item is nested. -/
theorem nested_of_mem_commaItemsFrom {depth : Int} {offset : Nat} {opened text : List Char}
    (nested : Nested kinds (opened.reverse ++ text))
    (outside : ∀ place, text[place]? = some ',' → depth + bracketLevel (text.take place) = 0 →
      levelIn kinds (opened.reverse ++ text.take place) = 0)
    {item : ListItem} (member : item ∈ commaItemsFrom depth offset opened text) :
    Nested kinds item.text := by
  induction text generalizing depth offset opened with
  | nil =>
      cases List.mem_singleton.mp member
      rwa [List.append_nil] at nested
  | cons c rest ih =>
      rw [commaItemsFrom_cons] at member
      split at member
      · rename_i comma
        obtain ⟨rfl, rfl⟩ := comma
        have level := outside 0 rfl rfl
        rw [List.take_zero, List.append_nil] at level
        obtain ⟨before, behind⟩ := nested.parts apart rfl level
        rcases List.mem_cons.mp member with rfl | later
        · exact before
        · refine @ih 0 _ [] ?_ ?_ later
          · exact (behind.parts apart (List.singleton_append ..).symm
              (levelIn_plain unopened unclosed [])).2
          · intro place comma closed
            have further := outside (place + 1) comma (by
              rwa [List.take_succ_cons, bracketLevel, show bracketShift ',' = 0 from rfl,
                Int.zero_add (bracketLevel _)])
            rwa [List.take_succ_cons, levelIn_append, level, levelIn_plain unopened unclosed,
              Int.zero_add] at further
      · refine ih ?_ ?_ member
        · rwa [List.reverse_cons, List.append_assoc]
        · intro place comma closed
          have further := outside (place + 1) comma (by
            rwa [List.take_succ_cons, bracketLevel, ← Int.add_assoc])
          rwa [List.reverse_cons, List.append_assoc]

private theorem nested_of_mem_commaItems {text : List Char} (nested : Nested kinds text)
    (outside : ∀ place, SplitsAt text place → levelIn kinds (text.take place) = 0) :
    ∀ item ∈ commaItems text, Nested kinds item.text := by
  intro item member
  refine @nested_of_mem_commaItemsFrom _ apart unopened unclosed _ _ [] _ nested ?_ _ member
  intro place comma closed
  obtain ⟨next, listed, start⟩ := (commaItemsFrom_starts_iff 0 0 [] text place).mpr ⟨comma, closed⟩
  refine outside place ⟨next, listed, ?_⟩
  rw [start, List.length_nil]
  omega

end

private theorem Nested.angles_nonneg {text : List Char} (nested : Nested allPairs text)
    (place : Nat) :
    0 ≤ levelIn anglePairs (text.take place) := by
  have angles : Nested anglePairs text := nested.restrict (by simp [anglePairs, allPairs])
    (by simp [anglePairs, allPairs, pairs, opensIn, closesIn])
  refine angles.level_take_nonneg ?_ place
  unfold AreApart
  decide

/-- The list of a nested text is never split within a pair if and only if the angle brackets before
a comma never make up for the pairs around it, and it is split at all other commas if and only if no
angle brackets are left over before them.  Where angle brackets are nested with the other ones, it
is split at the commas that stand in no brackets at all. -/
theorem commaItems_respect_pairs_iff {text : List Char} (nested : Nested pairs text) :
    (((∀ place, SplitsAt text place → ¬ Within pairs text place) ∧
        ∀ item ∈ commaItems text, Nested pairs item.text) ↔
      ∀ place, text[place]? = some ',' → Within pairs text place →
        levelIn anglePairs (text.take place) ≠ -levelIn pairs (text.take place)) ∧
    ((∀ place, text[place]? = some ',' → ¬ Within pairs text place → SplitsAt text place) ↔
      ∀ place, text[place]? = some ',' → ¬ Within pairs text place →
        levelIn anglePairs (text.take place) = 0) ∧
    (Nested allPairs text →
      (∀ place, SplitsAt text place ↔ text[place]? = some ',' ∧ ¬ Within allPairs text place) ∧
      (∀ place, Within pairs text place → Within allPairs text place) ∧
      ∀ item ∈ commaItems text, Nested allPairs item.text) := by
  have outside : ∀ place, ¬ Within pairs text place → levelIn pairs (text.take place) = 0 := by
    intro place none
    have nonneg := nested.level_take_nonneg pairs_apart place
    rw [nested.within_iff pairs_apart] at none
    omega
  refine ⟨⟨?_, ?_⟩, ⟨?_, ?_⟩, ?_⟩
  · rintro ⟨spared, _⟩ place comma within cancelled
    exact spared place ((splitsAt_iff text place).mpr ⟨comma, by omega⟩) within
  · intro kept
    have spared : ∀ place, SplitsAt text place → ¬ Within pairs text place := by
      intro place splits within
      obtain ⟨comma, level⟩ := (splitsAt_iff text place).mp splits
      exact kept place comma within (by omega)
    refine ⟨spared, fun item member => ?_⟩
    exact nested_of_mem_commaItems pairs_apart rfl rfl nested
      (fun place splits => outside place (spared place splits)) item member
  · intro splits place comma none
    have level := ((splitsAt_iff text place).mp (splits place comma none)).2
    have zero := outside place none
    omega
  · intro left place comma none
    have zero := outside place none
    have angles := left place comma none
    exact (splitsAt_iff text place).mpr ⟨comma, by omega⟩
  · intro all
    have splits : ∀ place, SplitsAt text place ↔
        text[place]? = some ',' ∧ levelIn allPairs (text.take place) = 0 := by
      intro place
      rw [splitsAt_iff, (bracketLevel_eq (text.take place)).2]
    refine ⟨fun place => ?_, fun place inside => ?_, ?_⟩
    · have nonneg := all.level_take_nonneg allPairs_apart place
      rw [splits, all.within_iff allPairs_apart]
      exact and_congr_right fun _ => by omega
    · have angles := all.angles_nonneg place
      rw [nested.within_iff pairs_apart] at inside
      rw [all.within_iff allPairs_apart, (bracketLevel_eq (text.take place)).2]
      omega
    · exact nested_of_mem_commaItems allPairs_apart rfl rfl all
        fun place here => ((splits place).mp here).2

/-- An item with type arguments and arguments, and a second item. -/
theorem typeArguments_respect_pairs :
    let text := "a<(b, c)>(d, e), f".toList
    Nested pairs text ∧ Nested allPairs text ∧
      (∀ place, SplitsAt text place ↔ text[place]? = some ',' ∧ ¬ Within allPairs text place) ∧
      (∀ item ∈ commaItems text, Nested allPairs item.text) ∧
      commaItems text = [⟨0, "a<(b, c)>(d, e)".toList⟩, ⟨16, " f".toList⟩] := by
  intro text
  have types : Nested allPairs "(b, c)".toList :=
    @Nested.pair _ '(' ')' "b, c".toList [] (by decide) (.of_plain rfl) .nil
  have others : Nested allPairs "(d, e), f".toList :=
    @Nested.pair _ '(' ')' "d, e".toList ", f".toList (by decide) (.of_plain rfl) (.of_plain rfl)
  have all : Nested allPairs text :=
    .plain rfl rfl (@Nested.pair _ '<' '>' _ _ (by decide) types others)
  have nested : Nested pairs text := all.restrict (by simp [pairs, allPairs])
    (by simp [pairs, allPairs, anglePairs, opensIn, closesIn])
  obtain ⟨splits, _, items⟩ := (commaItems_respect_pairs_iff nested).2.2 all
  exact ⟨nested, all, splits, items, by decide⟩

/-- An arrow within a pair of brackets lets a list be split in the pair, and keeps it from being
split behind the pair. -/
theorem arrow_breaks_list :
    let text := "a(() => 1, 2), b".toList
    Nested pairs text ∧
      (∀ place, text[place]? ∈ [some '<', some '>'] → Within pairs text place) ∧
      (SplitsAt text 9 ∧ Within pairs text 9) ∧
      (∃ item ∈ commaItems text, ¬ Nested pairs item.text) ∧
      text[13]? = some ',' ∧ ¬ Within pairs text 13 ∧ ¬ SplitsAt text 13 := by
  intro text
  have inner : Nested pairs "() => 1, 2".toList :=
    @Nested.pair _ '(' ')' [] " => 1, 2".toList (by decide) .nil (.of_plain rfl)
  have nested : Nested pairs text :=
    .plain rfl rfl (@Nested.pair _ '(' ')' _ ", b".toList (by decide) inner (.of_plain rfl))
  refine ⟨nested, fun place angle => ?_, ⟨?_, ?_⟩, ⟨⟨0, "a(() => 1".toList⟩, by decide, ?_⟩,
    rfl, ?_, ?_⟩
  · have only : ∀ place < 16, text[place]? ∈ [some '<', some '>'] → place = 6 := by decide
    have here : place < 16 := by
      refine Nat.lt_of_not_le fun beyond => ?_
      have none : text[place]? = none := List.getElem?_eq_none beyond
      rw [none] at angle
      exact absurd angle (by decide)
    rw [only place here angle, nested.within_iff pairs_apart]
    decide
  · rw [splitsAt_iff]
    decide
  · rw [nested.within_iff pairs_apart]
    decide
  · intro nestedToo
    exact absurd (nestedToo.level_eq_zero pairs_apart) (by decide)
  · rw [nested.within_iff pairs_apart]
    decide
  · rw [splitsAt_iff]
    decide

end SourceOutline.Text
