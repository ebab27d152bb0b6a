import SourceOutline.Proofs.Source.Block

set_option autoImplicit false

/-! Which braces are open at a place of a text.

Open braces are kept as a reader keeps them: an opening brace is put on top of those that are open,
and a closing brace takes the top away.  In a text that never closes more braces than it has opened,
there are as many of them as the depth says, and the one on top is the last from which on the depth
stays higher. -/

namespace SourceOutline

def openStep (opened : List Nat) (offset : Nat) (c : Char) : List Nat :=
  if c == '{' then offset :: opened else if c == '}' then opened.tail else opened

/-- The open braces behind some characters that follow an offset, the innermost first. -/
def openFrom (opened : List Nat) (offset : Nat) : List Char → List Nat
  | [] => opened
  | c :: rest => openFrom (openStep opened offset c) (offset + 1) rest

/-- The offsets of the braces that are open before an offset, the innermost first. -/
def openBraces (content : String) (offset : Nat) : List Nat :=
  openFrom [] 0 (content.toList.take offset)

def NeverOverclosed (content : String) : Prop :=
  ∀ front, front <+: content.toList → front.count '}' ≤ front.count '{'

theorem neverOverclosed_iff {content : String} :
    (∀ length < content.toList.length + 1,
      (content.toList.take length).count '}' ≤ (content.toList.take length).count '{') ↔
      NeverOverclosed content := by
  constructor
  · intro checked front begins
    have short := checked front.length (Nat.lt_succ_of_le begins.length_le)
    rwa [← List.prefix_iff_eq_take.mp begins] at short
  · intro balanced length _
    exact balanced _ (List.take_prefix _ _)

instance (content : String) : Decidable (NeverOverclosed content) :=
  decidable_of_iff _ neverOverclosed_iff

theorem openFrom_append (opened : List Nat) (offset : Nat) (left right : List Char) :
    openFrom opened offset (left ++ right) =
      openFrom (openFrom opened offset left) (offset + left.length) right := by
  induction left generalizing opened offset with
  | nil => rfl
  | cons c rest ih =>
      rw [List.cons_append, openFrom, openFrom, ih, List.length_cons, Nat.add_assoc,
        Nat.add_comm 1]

/-! ### Depth as a count -/

def braceLevel (text : List Char) : Int :=
  (text.count '{' : Nat) - (text.count '}' : Nat)

theorem braceLevel_nil : braceLevel [] = 0 := rfl

theorem braceLevel_cons (c : Char) (rest : List Char) :
    braceLevel (c :: rest) = braceShift c + braceLevel rest := by
  unfold braceLevel braceShift
  rw [List.count_cons, List.count_cons]
  by_cases opens : c = '{'
  · subst opens
    simp
    omega
  · by_cases closes : c = '}'
    · subst closes
      simp
      omega
    · simp [opens, closes]

theorem braceLevel_append (left right : List Char) :
    braceLevel (left ++ right) = braceLevel left + braceLevel right := by
  induction left with
  | nil => rw [List.nil_append, braceLevel_nil, Int.zero_add]
  | cons c rest ih =>
      rw [List.cons_append, braceLevel_cons, braceLevel_cons, ih]
      omega

namespace Source

variable {source : Source}

theorem text_toList (source : Source) : source.text.toList = source.content.toList := by
  rw [source.text_eq]

theorem getElem?_text (source : Source) (offset : Nat) :
    source.text[offset]? = source.content.toList[offset]? := by
  rw [source.text_eq, List.getElem?_toArray]

theorem depthAt_eq_braceLevel (source : Source) (offset : Nat) :
    source.depthAt offset = braceLevel (source.content.toList.take offset) := by
  induction offset with
  | zero => exact source.depthAt_zero
  | succ offset ih =>
      rw [depthAt_next, ih, List.take_add_one, braceLevel_append, getElem?_text]
      cases source.content.toList[offset]? with
      | none => rfl
      | some c =>
          change _ = _ + braceLevel [c]
          rw [braceLevel_cons, braceLevel_nil, Int.add_zero]
          rfl

private theorem depthAt_nonneg (balanced : NeverOverclosed source.content) (offset : Nat) :
    0 ≤ source.depthAt offset := by
  have front := balanced _ (List.take_prefix offset source.content.toList)
  rw [depthAt_eq_braceLevel, braceLevel]
  omega

theorem depthAt_min (offset : Nat) :
    source.depthAt (min offset source.size) = source.depthAt offset := by
  have length : source.size = source.content.toList.length := by
    rw [← text_toList]
    rfl
  rw [depthAt_eq_braceLevel, depthAt_eq_braceLevel, length, ← List.take_eq_take_min]

/-! ### What is open -/

private theorem openBraces_succ {offset : Nat} {c : Char} (read : source.text[offset]? = some c) :
    openBraces source.content (offset + 1) =
      openStep (openBraces source.content offset) offset c := by
  have listed : source.content.toList[offset]? = some c := by
    rw [← read, source.text_eq, List.getElem?_toArray]
  obtain ⟨inside, _⟩ := List.getElem?_eq_some_iff.mp listed
  unfold openBraces
  rw [List.take_add_one, listed, openFrom_append, List.length_take,
    Nat.min_eq_left (Nat.le_of_lt inside), Nat.zero_add]
  rfl

theorem openBraces_min (offset : Nat) :
    openBraces source.content (min offset source.size) = openBraces source.content offset := by
  have length : source.size = source.content.toList.length := by
    unfold size
    rw [source.text_eq, List.size_toArray]
  unfold openBraces
  rcases Nat.le_total offset source.size with inside | beyond
  · rw [Nat.min_eq_left inside]
  · rw [Nat.min_eq_right beyond, length, List.take_length, List.take_of_length_le (by omega)]

/-- A brace that stands before a place and from which on the depth stays higher. -/
structure OpenAt (source : Source) (brace offset : Nat) : Prop where
  opens : source.text[brace]? = some '{'
  before : brace < offset
  inside : ∀ place, brace < place → place ≤ offset →
    source.depthAt brace < source.depthAt place

/-- The depth before each open brace is the number of those around it. -/
def Nested (source : Source) (offset : Nat) (opened : List Nat) : Prop :=
  ∀ brace outer, brace :: outer <:+ opened →
    source.OpenAt brace offset ∧ source.depthAt brace = outer.length

private theorem OpenAt.succ {brace offset : Nat} (isOpen : source.OpenAt brace offset)
    (higher : source.depthAt brace < source.depthAt (offset + 1)) :
    source.OpenAt brace (offset + 1) := by
  refine ⟨isOpen.opens, Nat.lt_succ_of_lt isOpen.before, fun place behind within => ?_⟩
  rcases Nat.lt_or_eq_of_le within with early | last
  · exact isOpen.inside place behind (Nat.le_of_lt_succ early)
  · rw [last]
    exact higher

private theorem OpenAt.lt_depthAt {brace offset : Nat} (isOpen : source.OpenAt brace offset) :
    source.depthAt brace < source.depthAt offset :=
  isOpen.inside offset isOpen.before (Nat.le_refl _)

/-- One more character keeps the account of open braces. -/
theorem nested_succ {offset : Nat} {c : Char} (read : source.text[offset]? = some c)
    {opened : List Nat} (nested : source.Nested offset opened)
    (depth : source.depthAt offset = opened.length) (higher : 0 ≤ source.depthAt (offset + 1)) :
    source.Nested (offset + 1) (openStep opened offset c) ∧
      source.depthAt (offset + 1) = (openStep opened offset c).length := by
  have next := depthAt_succ read
  unfold openStep
  by_cases opens : c = '{'
  · subst opens
    rw [shift_brace] at next
    rw [if_pos (BEq.refl _)]
    refine ⟨fun brace outer part => ?_, by rw [List.length_cons]; omega⟩
    rcases List.suffix_cons_iff.mp part with whole | earlier
    · obtain ⟨rfl, rfl⟩ := List.cons.inj whole
      refine ⟨⟨read, Nat.lt_succ_self _, fun place behind within => ?_⟩, depth⟩
      rw [show place = brace + 1 by omega]
      omega
    · obtain ⟨isOpen, level⟩ := nested brace outer earlier
      have above := isOpen.lt_depthAt
      exact ⟨isOpen.succ (by omega), level⟩
  · rw [if_neg (mt beq_iff_eq.mp opens)]
    by_cases closes : c = '}'
    · subst closes
      have fall : braceShift '}' = -1 := rfl
      rw [fall] at next
      rw [if_pos (BEq.refl _)]
      -- the text does not close more than it opened, so there is a brace to be closed
      have shorter : opened.tail.length = opened.length - 1 := List.length_tail
      refine ⟨fun brace outer part => ?_, by omega⟩
      obtain ⟨isOpen, level⟩ := nested brace outer (part.trans (List.tail_suffix _))
      have bound := part.length_le
      rw [List.length_cons] at bound
      exact ⟨isOpen.succ (by omega), level⟩
    · have still : braceShift c = 0 := by
        simp [braceShift, opens, closes]
      rw [still, Int.add_zero] at next
      rw [if_neg (mt beq_iff_eq.mp closes), next]
      refine ⟨fun brace outer part => ?_, depth⟩
      obtain ⟨isOpen, level⟩ := nested brace outer part
      have above := isOpen.lt_depthAt
      exact ⟨isOpen.succ (by omega), level⟩

private theorem openBraces_nested (balanced : NeverOverclosed source.content) {offset : Nat}
    (inside : offset ≤ source.size) :
    source.Nested offset (openBraces source.content offset) ∧
      source.depthAt offset = (openBraces source.content offset).length := by
  induction offset with
  | zero =>
      refine ⟨fun brace outer part => ?_, ?_⟩
      · have empty : openBraces source.content 0 = [] := rfl
        rw [empty, List.suffix_nil] at part
        cases part
      · exact source.depthAt_zero
  | succ offset ih =>
      obtain ⟨nested, depth⟩ := ih (Nat.le_of_lt inside)
      obtain ⟨c, read⟩ := exists_read inside
      rw [openBraces_succ read]
      exact nested_succ read nested depth (depthAt_nonneg balanced _)

/-- Braces are open just where the depth is not zero. -/
theorem openBraces_eq_nil_iff (balanced : NeverOverclosed source.content) (offset : Nat) :
    openBraces source.content offset = [] ↔ source.depthAt offset = 0 := by
  have depth := (openBraces_nested balanced (Nat.min_le_right offset source.size)).2
  rw [depthAt_min, openBraces_min] at depth
  rw [depth, Int.natCast_eq_zero, List.length_eq_zero_iff]

/-- The innermost open brace is the one that is open with a depth of one less before it. -/
theorem head_openBraces_iff (balanced : NeverOverclosed source.content) {offset : Nat}
    (inside : offset ≤ source.size) {brace : Nat} :
    (openBraces source.content offset).head? = some brace ↔
      source.OpenAt brace offset ∧ source.depthAt offset = source.depthAt brace + 1 := by
  obtain ⟨nested, depth⟩ := openBraces_nested balanced inside
  cases opened : openBraces source.content offset with
  | nil =>
      rw [opened] at depth
      refine iff_of_false (fun impossible => by cases impossible) fun ⟨isOpen, level⟩ => ?_
      have above := depthAt_nonneg balanced brace
      rw [List.length_nil] at depth
      omega
  | cons top outer =>
      rw [opened] at nested depth
      obtain ⟨isOpen, level⟩ := nested top outer (List.suffix_refl _)
      rw [List.length_cons] at depth
      constructor
      · intro same
        cases same
        exact ⟨isOpen, by omega⟩
      · rintro ⟨other, otherLevel⟩
        -- of two braces with the same depth the later one would lie below the earlier one
        rcases Nat.lt_trichotomy brace top with before | same | behind
        · have := other.inside top before (Nat.le_of_lt isOpen.before)
          omega
        · rw [same]
          rfl
        · have := isOpen.inside brace behind (Nat.le_of_lt other.before)
          omega

/-- A brace is open at a place behind it just if its block is not closed before the place. -/
theorem openAt_iff_blockEnd? {brace offset : Nat} (opens : source.text[brace]? = some '{')
    (inside : offset ≤ source.size) :
    source.OpenAt brace offset ↔
      brace < offset ∧ ∀ close ∈ source.blockEnd? brace, offset ≤ close := by
  constructor
  · intro isOpen
    refine ⟨isOpen.before, fun close ended => Nat.le_of_not_lt fun beyond => ?_⟩
    have block := block_of_blockEnd? opens ended
    have level := block.level
    have forward := block.forward
    have := isOpen.inside (close + 1) (by omega) beyond
    omega
  · rintro ⟨before, unclosed⟩
    refine ⟨opens, before, fun place behind within => ?_⟩
    cases ended : source.blockEnd? brace with
    | some close =>
        have bound := unclosed close ended
        exact (block_of_blockEnd? opens ended).inside place behind (by omega)
    | none =>
        -- a fall to the old depth would close the block
        refine Int.lt_of_not_ge fun low => ?_
        have start : source.depthAt (brace + 1) = source.depthAt brace + 1 := depthAt_succ opens
        obtain ⟨fall, after, early, here⟩ := @exists_depthAt source (brace + 1) place
          (source.depthAt brace) (by omega) (by omega) low behind
        rw [blockEnd?_eq opens] at ended
        obtain ⟨found, reached, _⟩ := @reaches?_isSome source (source.depthAt brace)
          (source.size - (brace + 1)) (brace + 1) fall after (by omega) here
        cases ended.symm.trans reached

end Source

end SourceOutline
