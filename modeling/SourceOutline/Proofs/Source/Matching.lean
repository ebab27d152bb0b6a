import SourceOutline.Proofs.Source.Body

set_option autoImplicit false

/-! Which brace closes which.

The depth at an offset counts the braces before it, so a stretch of the text opens as many braces as
it closes just if the depth is the same at both its ends.  The brace that closes a block is the
first at which that is so, and blocks lie in one another or apart. -/

namespace SourceOutline

theorem braceLevel_eq_zero_iff {chars : List Char} :
    braceLevel chars = 0 ↔ chars.count '{' = chars.count '}' := by
  unfold braceLevel
  omega

theorem braceLevel_pos_iff {chars : List Char} :
    0 < braceLevel chars ↔ chars.count '}' < chars.count '{' := by
  unfold braceLevel
  omega

namespace Source

variable {source : Source}

/-! ### Depths of stretches -/

private theorem braceLevel_slice {start stop : Nat} (forward : start ≤ stop) :
    braceLevel (source.slice start stop) = source.depthAt stop - source.depthAt start := by
  have whole : source.content.toList.take stop =
      source.content.toList.take start ++ source.slice start stop := by
    obtain ⟨length, rfl⟩ := Nat.exists_eq_add_of_le forward
    rw [slice_eq, text_toList, Nat.add_sub_cancel_left, ← List.take_add]
  rw [depthAt_eq_braceLevel, depthAt_eq_braceLevel, whole, braceLevel_append]
  omega

/-! ### Closing braces -/

/-- From a place up to a later one, both included, as many braces are opened as are closed. -/
structure Evens (source : Source) (opening close : Nat) : Prop where
  forward : opening < close
  inside : close < source.size
  even : (source.slice opening (close + 1)).count '{' = (source.slice opening (close + 1)).count '}'

theorem evens_iff {opening close : Nat} :
    source.Evens opening close ↔
      opening < close ∧ close < source.size ∧
        source.depthAt (close + 1) = source.depthAt opening := by
  have level (forward : opening < close) :
      source.depthAt (close + 1) = source.depthAt opening ↔
        (source.slice opening (close + 1)).count '{' =
          (source.slice opening (close + 1)).count '}' := by
    have stretch := @braceLevel_slice source opening (close + 1) (by omega)
    rw [← braceLevel_eq_zero_iff, stretch]
    omega
  constructor
  · rintro ⟨forward, inside, even⟩
    exact ⟨forward, inside, (level forward).mpr even⟩
  · rintro ⟨forward, inside, same⟩
    exact ⟨forward, inside, (level forward).mp same⟩

private theorem evens_of_blockEnd? {opening close : Nat} (opens : source.text[opening]? = some '{')
    (ended : source.blockEnd? opening = some close) : source.Evens opening close := by
  have block := block_of_blockEnd? opens ended
  exact evens_iff.mpr ⟨block.forward, lt_size_of_read block.closes, block.level⟩

/-- Where a block is evened out, it is closed there or before. -/
theorem Evens.blockEnd?_le {opening close : Nat} (opens : source.text[opening]? = some '{')
    (evens : source.Evens opening close) :
    ∃ first, source.blockEnd? opening = some first ∧ first ≤ close := by
  obtain ⟨forward, inside, level⟩ := evens_iff.mp evens
  rw [blockEnd?_eq opens]
  exact reaches?_isSome forward (by omega) level

/-- A block is closed at the first place where as many braces are closed as were opened. -/
theorem blockEnd?_eq_some_iff {opening : Nat} (opens : source.text[opening]? = some '{')
    (close : Nat) :
    source.blockEnd? opening = some close ↔
      source.Evens opening close ∧ ∀ other, source.Evens opening other → close ≤ other := by
  constructor
  · intro ended
    refine ⟨evens_of_blockEnd? opens ended, fun other evens => ?_⟩
    obtain ⟨first, found, early⟩ := evens.blockEnd?_le opens
    cases ended.symm.trans found
    exact early
  · rintro ⟨evens, least⟩
    obtain ⟨first, found, early⟩ := evens.blockEnd?_le opens
    have late := least first (evens_of_blockEnd? opens found)
    rw [found, Nat.le_antisymm early late]

theorem blockEnd?_eq_none_iff {opening : Nat} (opens : source.text[opening]? = some '{') :
    source.blockEnd? opening = none ↔ ∀ close, ¬ source.Evens opening close := by
  constructor
  · intro missing close evens
    obtain ⟨first, found, _⟩ := evens.blockEnd?_le opens
    cases missing.symm.trans found
  · intro never
    cases ended : source.blockEnd? opening with
    | none => rfl
    | some close => exact absurd (evens_of_blockEnd? opens ended) (never close)

/-- Short of the brace that closes it, a block has more braces opened than closed. -/
theorem Block.count_lt {opening close : Nat} (block : Block source opening close)
    {front : List Char} (begun : front ≠ [])
    (begins : front <+: source.slice opening (close + 1))
    (proper : front ≠ source.slice opening (close + 1)) : front.count '}' < front.count '{' := by
  have size := lt_size_of_read block.closes
  have forward := block.forward
  have whole : (source.slice opening (close + 1)).length = close + 1 - opening := by
    rw [slice_eq, List.length_take, List.length_drop]
    change min _ (source.size - opening) = _
    omega
  have positive : 0 < front.length := List.length_pos_iff.mpr begun
  have short : front.length < close + 1 - opening := by
    rw [← whole]
    exact Nat.lt_of_le_of_ne begins.length_le fun same => proper (begins.eq_of_length same)
  -- a front of the stretch is the stretch up to some place in the block
  have stretch : front = source.slice opening (opening + front.length) := by
    have cut := List.prefix_iff_eq_take.mp begins
    rw [slice_eq, List.take_take, Nat.min_eq_left (Nat.le_of_lt short)] at cut
    rw [slice_eq, Nat.add_sub_cancel_left]
    exact cut
  have level := @braceLevel_slice source opening (opening + front.length) (by omega)
  rw [← stretch] at level
  have higher := block.inside (opening + front.length) (by omega) (by omega)
  exact braceLevel_pos_iff.mp (by omega)

/-- Depth and the ends of blocks, told by counting braces: the depth is the excess of opening over
closing braces before an offset; a block ends at the first place up to which it opens as many braces
as it closes, with a closing brace, and nowhere if there is no such place; and a block that is
opened in another one is closed in it. -/
theorem blocks_match_braces (source : Source) :
    (∀ offset, source.depthAt offset =
      ((source.content.toList.take offset).count '{' : Int) -
        ((source.content.toList.take offset).count '}' : Int)) ∧
    (∀ opening, source.content.toList[opening]? = some '{' →
      (∀ close, source.blockEnd? opening = some close ↔
        source.Evens opening close ∧ ∀ other, source.Evens opening other → close ≤ other) ∧
      (source.blockEnd? opening = none ↔ ∀ close, ¬ source.Evens opening close) ∧
      ∀ close, source.blockEnd? opening = some close →
        source.content.toList[close]? = some '}' ∧
        ∀ front, front ≠ [] → front <+: source.slice opening (close + 1) →
          front ≠ source.slice opening (close + 1) → front.count '}' < front.count '{') ∧
    ∀ outer inner close, source.content.toList[outer]? = some '{' →
      source.content.toList[inner]? = some '{' → source.blockEnd? outer = some close →
      outer < inner → inner < close →
      ∃ last, source.blockEnd? inner = some last ∧ last < close := by
  simp only [← getElem?_text]
  refine ⟨depthAt_eq_braceLevel source, fun opening opens => ?_, ?_⟩
  · refine ⟨blockEnd?_eq_some_iff opens, blockEnd?_eq_none_iff opens, fun close ended => ?_⟩
    have block := block_of_blockEnd? opens ended
    exact ⟨block.closes, fun front begun begins proper => block.count_lt begun begins proper⟩
  · intro outer inner close opens innerOpens ended behind before
    exact (block_of_blockEnd? opens ended).blockEnd?_lt innerOpens behind before

/-- In a text that closes too much at first, the inner of two blocks is closed in the outer one. -/
theorem inner_block_closed :
    (Source.ofContent "\x7da\x7bb\x7bc\x7d\x7d\x7b").blockEnd? 2 = some 7 ∧
      ∃ last, (Source.ofContent "\x7da\x7bb\x7bc\x7d\x7d\x7b").blockEnd? 4 = some last ∧
        last < 7 := by
  have outer : (Source.ofContent "\x7da\x7bb\x7bc\x7d\x7d\x7b").blockEnd? 2 = some 7 := by
    decide +kernel
  have nested := (blocks_match_braces (Source.ofContent "\x7da\x7bb\x7bc\x7d\x7d\x7b")).2.2
  exact ⟨outer, nested 2 4 7 rfl rfl outer (by omega) (by omega)⟩

end Source

end SourceOutline
