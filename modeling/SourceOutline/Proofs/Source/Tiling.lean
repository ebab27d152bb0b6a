import SourceOutline.Proofs.Source.Chunk

set_option autoImplicit false

/-! Going through a text from cut to cut.

Each cut is behind the one before it, so the way comes to the end of the text.  The chunks on the
way fill the text, and two braces that a chunk could have taken, the later one of which closes, are
both in the chunk. -/

namespace SourceOutline

variable {text : Array Char}

/-! ### From cut to cut -/

/-- Where one is after some cuts, each made from where the last one was. -/
def afterCuts (text : Array Char) (size : Nat) : Nat → Nat → Nat
  | 0, start => start
  | number + 1, start => afterCuts text size number (chunkStop text start size)

private theorem chunksFrom_eq_map {size : Nat} (positive : 0 < size) {fuel start : Nat}
    (inside : start ≤ text.size) (enough : text.size ≤ start + fuel) :
    ∃ count ≤ fuel,
      afterCuts text size count start = text.size ∧
      (∀ number < count, afterCuts text size number start < text.size) ∧
      chunksFrom text size fuel start = (List.range count).map fun number =>
        (afterCuts text size number start, afterCuts text size (number + 1) start) := by
  induction fuel generalizing start with
  | zero =>
      refine ⟨0, Nat.le_refl 0, Nat.le_antisymm inside enough, ?_, rfl⟩
      intro number impossible
      cases impossible
  | succ fuel ih =>
      rw [chunksFrom]
      split
      · rename_i more
        obtain ⟨forward, within⟩ := chunkStop_bounds more positive
        obtain ⟨count, bound, ends, earlier, listed⟩ := ih within (by omega)
        refine ⟨count + 1, Nat.succ_le_succ bound, ends, ?_, ?_⟩
        · intro number before
          cases number with
          | zero => exact more
          | succ number => exact earlier number (Nat.lt_of_succ_lt_succ before)
        · rw [List.range_succ_eq_map, List.map_cons, List.map_map]
          exact congrArg ((start, chunkStop text start size) :: ·) listed
      · rename_i finished
        refine ⟨0, Nat.zero_le _, Nat.le_antisymm inside (Nat.le_of_not_lt finished), ?_, rfl⟩
        intro number impossible
        cases impossible

private theorem stop_of_mem_chunksFrom {size fuel start : Nat} {chunk : Nat × Nat}
    (member : chunk ∈ chunksFrom text size fuel start) :
    chunk.2 = chunkStop text chunk.1 size := by
  induction fuel generalizing start with
  | zero => cases member
  | succ fuel ih =>
      rw [chunksFrom] at member
      split at member
      · rcases List.mem_cons.mp member with first | later
        · rw [first]
        · exact ih later
      · cases member

/-! ### Tiles -/

namespace Tiles

variable {start stop : Nat} {chunks : List (Nat × Nat)}

private theorem forward (tiles : Tiles start chunks stop) {chunk : Nat × Nat}
    (member : chunk ∈ chunks) :
    chunk.1 < chunk.2 := by
  induction chunks generalizing start with
  | nil => cases member
  | cons first rest ih =>
      obtain ⟨here, forward, others⟩ := tiles
      rcases List.mem_cons.mp member with same | later
      · rw [same, here]
        exact forward
      · exact ih others later

private theorem stop_lt (tiles : Tiles start chunks stop) {chunk : Nat × Nat}
    (member : chunk ∈ chunks.dropLast) : chunk.2 < stop := by
  induction chunks generalizing start with
  | nil => cases member
  | cons first rest ih =>
      obtain ⟨here, forward, others⟩ := tiles
      cases rest with
      | nil => cases member
      | cons second rest =>
          rw [List.dropLast_cons_cons] at member
          rcases List.mem_cons.mp member with same | later
          · rw [same]
            exact Nat.lt_of_lt_of_le others.2.1 others.2.2.le
          · exact ih others later

/-- What stands in the chunks is together what stands between the two places. -/
theorem flatMap_extract (tiles : Tiles start chunks stop) (text : Array Char) :
    (chunks.flatMap fun chunk => (text.extract chunk.1 chunk.2).toList) =
      (text.extract start stop).toList := by
  induction chunks generalizing start with
  | nil =>
      rw [show start = stop from tiles]
      simp
  | cons first rest ih =>
      obtain ⟨here, forward, others⟩ := tiles
      have behind := others.le
      rw [List.flatMap_cons, ih others, here, ← Array.toList_append, Array.extract_append_extract,
        Nat.min_eq_left (Nat.le_of_lt forward), Nat.max_eq_right behind]

end Tiles

/-- Going on from cut to cut comes to the end of the text, and the chunks on the way fill the text.
Each has a character and no more than are allowed; each but the last ends behind a closing brace or
has none behind its first character; and an opening brace and a closing one behind it, be they a
pair or not, are both in the chunk if they are both among the characters it was allowed to take. -/
theorem chunks_fill_text (text : Array Char) {size : Nat} (positive : 0 < size) :
    (∃ count ≤ text.size,
      afterCuts text size count 0 = text.size ∧
      (∀ number < count, afterCuts text size number 0 < text.size) ∧
      chunks text size = (List.range count).map fun number =>
        (afterCuts text size number 0, afterCuts text size (number + 1) 0)) ∧
    (chunks text size).flatMap (fun chunk => (text.extract chunk.1 chunk.2).toList) =
      text.toList ∧
    (∀ chunk ∈ chunks text size, chunk.1 < chunk.2 ∧ chunk.2 ≤ chunk.1 + size) ∧
    (∀ chunk ∈ (chunks text size).dropLast,
      text[chunk.2 - 1]? = some '}' ∨
        ∀ place, chunk.1 < place → place < chunk.2 → text[place]? ≠ some '}') ∧
    ∀ chunk ∈ chunks text size, ∀ opening close,
      text[opening]? = some '{' → text[close]? = some '}' → opening < close →
      chunk.1 ≤ opening → close < min (chunk.1 + size) text.size →
      opening < chunk.2 ∧ close < chunk.2 := by
  have tiles := chunks_tile text positive
  have cuts : ∀ chunk ∈ chunks text size,
      CutsAt text chunk.1 (min (chunk.1 + size) text.size) chunk.2 := by
    intro chunk member
    rw [stop_of_mem_chunksFrom member]
    exact chunkStop_cutsAt text chunk.1 size
  refine ⟨chunksFrom_eq_map positive (Nat.zero_le _) (by omega), ?_, ?_, ?_, ?_⟩
  · rw [tiles.flatMap_extract, Array.extract_size]
  · intro chunk member
    exact ⟨tiles.forward member, Nat.le_trans (cuts chunk member).le_window (Nat.min_le_left _ _)⟩
  · intro chunk member
    apply (cuts chunk (List.dropLast_subset _ member)).closes_or_plain
    exact Nat.ne_of_lt (tiles.stop_lt member)
  · intro chunk member opening close _opens closes forward _behind before
    have inside := (cuts chunk member).lt_of_closes closes before
    exact ⟨Nat.lt_trans forward inside, inside⟩

/-- A first brace that is no place to cut, a pair behind which a window is cut, and the end. -/
theorem chunks_fill_braces :
    let text := "\x7dabc\x7bd\x7de\x7bf\x7d".toList.toArray
    0 < 4 ∧ chunks text 4 = [(0, 4), (4, 7), (7, 11)] ∧
      (chunks text 4).flatMap (fun chunk => (text.extract chunk.1 chunk.2).toList) = text.toList ∧
      ∀ chunk ∈ (chunks text 4).dropLast,
        text[chunk.2 - 1]? = some '}' ∨
          ∀ place, chunk.1 < place → place < chunk.2 → text[place]? ≠ some '}' := by
  intro text
  obtain ⟨_, filled, _, ended, _⟩ := @chunks_fill_text text 4 (by decide)
  exact ⟨by decide, rfl, filled, ended⟩

end SourceOutline
