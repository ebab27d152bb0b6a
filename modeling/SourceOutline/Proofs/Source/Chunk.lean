import SourceOutline.Proofs.Pattern.Scan
import SourceOutline.Source.Chunk

set_option autoImplicit false

/-! The chunks of a text fill it from the first character to the last, one right behind the other.

A chunk may take a window of the text.  It ends with the window if the window reaches the end of the
text or has no closing brace behind its first character, and right behind the last closing brace of
the window otherwise.  Searches in all chunks find together what one search finds, as long as every
match of the one lies in a chunk. -/

namespace SourceOutline

/-! ### The last closing brace -/

variable {text : Array Char}

private theorem lastClosing?_eq_some {start length cut : Nat}
    (found : lastClosing? text start length = some cut) :
    text[cut]? = some '}' ∧ start ≤ cut ∧ cut < start + length := by
  induction length with
  | zero => cases found
  | succ length ih =>
      rw [lastClosing?] at found
      split at found
      · rename_i closes
        cases found
        exact ⟨beq_iff_eq.mp closes, by omega⟩
      · obtain ⟨closes, behind, before⟩ := ih found
        exact ⟨closes, behind, Nat.lt_succ_of_lt before⟩

private theorem le_lastClosing? {start length place : Nat} (closes : text[place]? = some '}')
    (behind : start ≤ place) (before : place < start + length) :
    ∃ cut, lastClosing? text start length = some cut ∧ place ≤ cut := by
  induction length with
  | zero => omega
  | succ length ih =>
      rw [lastClosing?]
      split
      · exact ⟨start + length, rfl, Nat.le_of_lt_succ before⟩
      · rename_i other
        apply ih
        apply Nat.lt_of_le_of_ne (Nat.le_of_lt_succ before)
        intro here
        rw [here] at closes
        exact other (beq_iff_eq.mpr closes)

/-! ### One cut -/

/-- Where a chunk that may take the text from `start` up to `window` is cut. -/
inductive CutsAt (text : Array Char) (start window : Nat) : Nat → Prop
  | atEnd (reaches : window = text.size) : CutsAt text start window window
  | behindBrace {brace : Nat} (closes : text[brace]? = some '}') (behind : start < brace)
      (before : brace < window)
      (last : ∀ place, brace < place → place < window → text[place]? ≠ some '}') :
      CutsAt text start window (brace + 1)
  | unbraced (plain : ∀ place, start < place → place < window → text[place]? ≠ some '}') :
      CutsAt text start window window

theorem chunkStop_cutsAt (text : Array Char) (start size : Nat) :
    CutsAt text start (min (start + size) text.size) (chunkStop text start size) := by
  unfold chunkStop
  dsimp only
  generalize short : min (start + size) text.size = window
  split
  · rename_i reaches
    exact .atEnd reaches
  · have length : start + (window - start) = window := by omega
    have met : ∀ place, start < place → place < window → text[place]? = some '}' →
        ∃ cut, lastClosing? text start (window - start) = some cut ∧ place ≤ cut := by
      intro place behind before closes
      exact le_lastClosing? closes (Nat.le_of_lt behind) (by omega)
    split
    · rename_i cut found
      obtain ⟨closes, begins, inside⟩ := lastClosing?_eq_some found
      have last : ∀ place, start < place → place < window → text[place]? = some '}' →
          place ≤ cut := by
        intro place behind before closes
        obtain ⟨other, same, early⟩ := met place behind before closes
        cases found.symm.trans same
        exact early
      split
      · rename_i behind
        refine .behindBrace closes behind (by omega) ?_
        intro place later before closes
        exact Nat.not_le.mpr later (last place (Nat.lt_trans behind later) before closes)
      · -- the only closing brace is the first character, and cutting there would take no step
        refine .unbraced fun place behind before closes => ?_
        have early := last place behind before closes
        omega
    · rename_i missing
      refine .unbraced fun place behind before closes => ?_
      obtain ⟨cut, found, _⟩ := met place behind before closes
      cases missing.symm.trans found

namespace CutsAt

variable {start window stop : Nat}

theorem le_window (cut : CutsAt text start window stop) : stop ≤ window := by
  cases cut with
  | atEnd _ => exact Nat.le_refl _
  | behindBrace _ _ before _ => exact before
  | unbraced _ => exact Nat.le_refl _

theorem lt_of_closes (cut : CutsAt text start window stop) {place : Nat}
    (closes : text[place]? = some '}') (before : place < window) : place < stop := by
  cases cut with
  | atEnd _ => exact before
  | behindBrace _ _ _ last =>
      apply Nat.lt_succ_of_le
      apply Nat.le_of_not_lt
      intro later
      exact last place later before closes
  | unbraced _ => exact before

theorem closes_or_plain (cut : CutsAt text start window stop) (short : stop ≠ text.size) :
    text[stop - 1]? = some '}' ∨
      ∀ place, start < place → place < stop → text[place]? ≠ some '}' := by
  cases cut with
  | atEnd reaches => exact absurd reaches short
  | behindBrace closes _ _ _ => exact Or.inl closes
  | unbraced plain => exact Or.inr plain

end CutsAt

/-- The last closing brace among the characters that a chunk may take ends the chunk. -/
theorem chunkStop_eq_of_last {start size brace : Nat} (short : start + size < text.size)
    (closes : text[brace]? = some '}') (behind : start < brace) (before : brace < start + size)
    (last : ∀ place, brace < place → place < start + size → text[place]? ≠ some '}') :
    chunkStop text start size = brace + 1 := by
  have cut := chunkStop_cutsAt text start size
  rw [Nat.min_eq_left (Nat.le_of_lt short)] at cut
  generalize chunkStop text start size = stop at cut ⊢
  cases cut with
  | atEnd reaches => omega
  | behindBrace otherCloses otherBehind otherBefore otherLast =>
      rename_i other
      rcases Nat.lt_trichotomy brace other with earlier | same | later
      · exact absurd otherCloses (last other earlier otherBefore)
      · rw [same]
      · exact absurd closes (otherLast brace later before)
  | unbraced plain => exact absurd closes (plain brace behind before)

theorem chunkStop_bounds {start size : Nat} (inside : start < text.size) (positive : 0 < size) :
    start < chunkStop text start size ∧ chunkStop text start size ≤ text.size := by
  have cut := chunkStop_cutsAt text start size
  refine ⟨?_, Nat.le_trans cut.le_window (Nat.min_le_right _ _)⟩
  generalize chunkStop text start size = stop at cut
  cases cut with
  | atEnd _ => omega
  | behindBrace _ behind _ _ => exact Nat.lt_succ_of_lt behind
  | unbraced _ => omega

/-! ### All chunks -/

/-- Chunks with at least one character, one right behind the other, between two places. -/
def Tiles : Nat → List (Nat × Nat) → Nat → Prop
  | start, [], stop => start = stop
  | start, chunk :: rest, stop => chunk.1 = start ∧ start < chunk.2 ∧ Tiles chunk.2 rest stop

private theorem chunksFrom_tile {size : Nat} (positive : 0 < size) {fuel start : Nat}
    (inside : start ≤ text.size) (enough : text.size ≤ start + fuel) :
    Tiles start (chunksFrom text size fuel start) text.size := by
  induction fuel generalizing start with
  | zero => exact Nat.le_antisymm inside enough
  | succ fuel ih =>
      rw [chunksFrom]
      split
      · rename_i more
        obtain ⟨forward, within⟩ := chunkStop_bounds more positive
        exact ⟨rfl, forward, ih within (by omega)⟩
      · exact Nat.le_antisymm inside (by omega)

theorem chunks_tile (text : Array Char) {size : Nat} (positive : 0 < size) :
    Tiles 0 (chunks text size) text.size :=
  chunksFrom_tile positive (Nat.zero_le _) (by omega)

namespace Tiles

theorem le {start stop : Nat} {chunks : List (Nat × Nat)} (tiles : Tiles start chunks stop) :
    start ≤ stop := by
  induction chunks generalizing start with
  | nil => exact Nat.le_of_eq tiles
  | cons chunk rest ih =>
      have := ih tiles.2.2
      have := tiles.2.1
      omega

theorem start_le {start stop : Nat} {chunks : List (Nat × Nat)} (tiles : Tiles start chunks stop)
    {chunk : Nat × Nat} (member : chunk ∈ chunks) : start ≤ chunk.1 := by
  induction chunks generalizing start with
  | nil => cases member
  | cons first rest ih =>
      obtain ⟨here, forward, others⟩ := tiles
      rcases List.mem_cons.mp member with same | later
      · exact Nat.le_of_eq (by rw [same, here])
      · have := ih others later
        omega

theorem stop_le {start stop : Nat} {chunks : List (Nat × Nat)} (tiles : Tiles start chunks stop)
    {chunk : Nat × Nat} (member : chunk ∈ chunks) : chunk.2 ≤ stop := by
  induction chunks generalizing start with
  | nil => cases member
  | cons first rest ih =>
      obtain ⟨here, forward, others⟩ := tiles
      rcases List.mem_cons.mp member with same | later
      · rw [same]
        exact others.le
      · exact ih others later

theorem pairwise {start stop : Nat} {chunks : List (Nat × Nat)} (tiles : Tiles start chunks stop) :
    chunks.Pairwise fun chunk later => chunk.2 ≤ later.1 := by
  induction chunks generalizing start with
  | nil => exact List.Pairwise.nil
  | cons first rest ih =>
      obtain ⟨here, forward, others⟩ := tiles
      exact List.pairwise_cons.mpr ⟨fun _ later => others.start_le later, ih others⟩

theorem nodup {start stop : Nat} {chunks : List (Nat × Nat)} (tiles : Tiles start chunks stop) :
    (chunks.map Prod.fst).Nodup := by
  induction chunks generalizing start with
  | nil => exact List.nodup_nil
  | cons first rest ih =>
      obtain ⟨here, forward, others⟩ := tiles
      rw [List.map_cons, List.nodup_cons]
      refine ⟨?_, ih others⟩
      intro member
      obtain ⟨chunk, later, same⟩ := List.mem_map.mp member
      have := others.start_le later
      omega

end Tiles

/-! ### Searching chunk by chunk -/

def InOneOf (chunks : List (Nat × Nat)) (found : Match) : Prop :=
  ∃ chunk ∈ chunks, chunk.1 ≤ found.start ∧ found.stop ≤ chunk.2

theorem Tiles.findAllFrom_eq {pattern : Pattern} (ahead : pattern.forward = true)
    (leading : pattern.leads = true) {text : Array Char} {chunks : List (Nat × Nat)} {start : Nat}
    (tiles : Tiles start chunks text.size)
    (uncut : ∀ found ∈ pattern.findAllFrom text start, InOneOf chunks found) :
    pattern.findAllFrom text start =
      chunks.flatMap fun chunk => pattern.findAllBetween text chunk.1 chunk.2 := by
  induction chunks generalizing start with
  | nil =>
      rw [show start = text.size from tiles]
      exact Pattern.findAllFrom_size leading
  | cons chunk rest ih =>
      obtain ⟨here, forward, others⟩ := tiles
      have spared : ∀ found ∈ pattern.findAllFrom text start,
          found.start < chunk.2 → found.stop ≤ chunk.2 := by
        intro found member before
        obtain ⟨around, listed, behind, within⟩ := uncut found member
        rcases List.mem_cons.mp listed with same | later
        · rwa [same] at within
        · have := others.start_le later
          omega
      have halves := Pattern.findAllFrom_cut ahead leading others.le (Nat.le_of_lt forward) spared
      have remaining : ∀ found ∈ pattern.findAllFrom text chunk.2, InOneOf rest found := by
        intro found member
        have known : found ∈ pattern.findAllFrom text start := by
          rw [halves]
          exact List.mem_append_right _ member
        obtain ⟨around, listed, behind, within⟩ := uncut found known
        rcases List.mem_cons.mp listed with same | later
        · -- a match from the cut on cannot end before the cut
          obtain ⟨after, matched⟩ := Pattern.mem_findAllFrom member
          have := ((Pattern.matchAt?_ends matched).2.leads leading).lt
          rw [same] at within
          omega
        · exact ⟨around, later, behind, within⟩
      rw [halves, List.flatMap_cons, ← ih others remaining, here]
      rfl

end SourceOutline
