import Mathlib.Algebra.Group.Nat.Defs
import SourceOutline.Proofs.Cache.Recency

set_option autoImplicit false

/-! Rounding keeps the order of numbers.

Of two times, the later one is therefore at least as far behind a third, although the distances are
rounded. -/

namespace SourceOutline.Binary64

/-! ### Magnitudes -/

/-- A number rounded to a multiple of a power of two, a half going to the even neighbour. -/
def roundAt (excess number : Nat) : Nat :=
  let step := Nat.pow 2 excess
  let quotient := number / step
  let remainder := number % step
  let rounded :=
    if 2 * remainder < step then quotient
    else if step < 2 * remainder then quotient + 1
    else quotient + quotient % 2
  rounded * step

private theorem roundRatio_one (number : Nat) :
    roundRatio number 1 = roundAt (number.log2 + 1 - 53) number := by
  unfold roundRatio roundAt
  simp only [Nat.div_one, Nat.one_mul]

/-- A rounded number is one of the two neighbouring multiples. -/
theorem roundAt_eq (excess number : Nat) :
    ∃ up, up ≤ 1 ∧ roundAt excess number = (number / 2 ^ excess + up) * 2 ^ excess := by
  unfold roundAt
  dsimp only
  split
  · exact ⟨0, Nat.zero_le _, rfl⟩
  · split
    · exact ⟨1, Nat.le_refl _, rfl⟩
    · exact ⟨_, Nat.le_of_lt_succ (Nat.mod_lt _ Nat.two_pos), rfl⟩

private theorem roundAt_mono (excess : Nat) {left right : Nat} (atMost : left ≤ right) :
    roundAt excess left ≤ roundAt excess right := by
  have quotients : left / 2 ^ excess ≤ right / 2 ^ excess := Nat.div_le_div_right atMost
  rcases Nat.lt_or_eq_of_le quotients with below | same
  · obtain ⟨leftUp, leftSmall, leftRounded⟩ := roundAt_eq excess left
    obtain ⟨rightUp, _rightSmall, rightRounded⟩ := roundAt_eq excess right
    rw [leftRounded, rightRounded]
    exact Nat.mul_le_mul_right _ (by omega)
  · -- Between the same neighbours, the remainder decides.
    have remainders : left % 2 ^ excess ≤ right % 2 ^ excess := by
      have leftParts := Nat.div_add_mod left (2 ^ excess)
      have rightParts := Nat.div_add_mod right (2 ^ excess)
      rw [same] at leftParts
      omega
    unfold roundAt
    apply Nat.mul_le_mul_right
    change (if 2 * (left % 2 ^ excess) < 2 ^ excess then left / 2 ^ excess
        else if 2 ^ excess < 2 * (left % 2 ^ excess) then left / 2 ^ excess + 1
        else left / 2 ^ excess + left / 2 ^ excess % 2) ≤
      (if 2 * (right % 2 ^ excess) < 2 ^ excess then right / 2 ^ excess
        else if 2 ^ excess < 2 * (right % 2 ^ excess) then right / 2 ^ excess + 1
        else right / 2 ^ excess + right / 2 ^ excess % 2)
    rw [same]
    split_ifs <;> omega

private theorem roundAt_le_pow {excess exponent number : Nat} (coarse : excess ≤ exponent)
    (below : number < 2 ^ exponent) : roundAt excess number ≤ 2 ^ exponent := by
  obtain ⟨up, small, rounded⟩ := roundAt_eq excess number
  have split : 2 ^ exponent = 2 ^ (exponent - excess) * 2 ^ excess := by
    rw [← Nat.pow_add, Nat.sub_add_cancel coarse]
  rw [split] at below
  have quotient : number / 2 ^ excess < 2 ^ (exponent - excess) :=
    Nat.div_lt_of_lt_mul (by rwa [Nat.mul_comm])
  rw [rounded, split]
  exact Nat.mul_le_mul_right _ (by omega)

private theorem pow_le_roundAt {excess exponent number : Nat} (coarse : excess ≤ exponent)
    (above : 2 ^ exponent ≤ number) : 2 ^ exponent ≤ roundAt excess number := by
  obtain ⟨up, _small, rounded⟩ := roundAt_eq excess number
  have split : 2 ^ exponent = 2 ^ (exponent - excess) * 2 ^ excess := by
    rw [← Nat.pow_add, Nat.sub_add_cancel coarse]
  rw [split] at above
  have quotient : 2 ^ (exponent - excess) ≤ number / 2 ^ excess :=
    (Nat.le_div_iff_mul_le (Nat.two_pow_pos excess)).mpr above
  rw [rounded, split]
  exact Nat.mul_le_mul_right _ (by omega)

private theorem roundRatio_mono {left right : Nat} (atMost : left ≤ right) :
    roundRatio left 1 ≤ roundRatio right 1 := by
  rw [roundRatio_one, roundRatio_one]
  rcases Nat.eq_zero_or_pos left with nothing | positive
  · subst nothing
    exact Nat.le_trans (Nat.le_of_eq (by decide +kernel)) (Nat.zero_le _)
  · have rightNonzero : right ≠ 0 := by omega
    have logs : left.log2 ≤ right.log2 :=
      (Nat.le_log2 rightNonzero).mpr
        (Nat.le_trans (Nat.log2_self_le (Nat.pos_iff_ne_zero.mp positive)) atMost)
    rcases Nat.lt_or_eq_of_le logs with shorter | same
    · -- A power of two lies between the two numbers.
      calc roundAt (left.log2 + 1 - 53) left
          ≤ 2 ^ (left.log2 + 1) := roundAt_le_pow (by omega) Nat.lt_log2_self
        _ ≤ 2 ^ right.log2 := Nat.pow_le_pow_right Nat.two_pos shorter
        _ ≤ roundAt (right.log2 + 1 - 53) right :=
            pow_le_roundAt (by omega) (Nat.log2_self_le rightNonzero)
    · rw [same]
      exact roundAt_mono _ atMost

/-! ### Signed numbers -/

/-- The number nearest to a signed number of ticks. -/
def nearest (ticks : Int) : Binary64 :=
  ofRatio (ticks < 0) ticks.natAbs 1

def nearestTicks (ticks : Int) : Int :=
  signed (ticks < 0) (roundRatio ticks.natAbs 1)

private theorem nearestTicks_mono {left right : Int} (atMost : left ≤ right) :
    nearestTicks left ≤ nearestTicks right := by
  unfold nearestTicks signed
  by_cases leftNegative : left < 0
  · by_cases rightNegative : right < 0
    · have magnitudes : roundRatio right.natAbs 1 ≤ roundRatio left.natAbs 1 :=
        roundRatio_mono (by omega)
      simp only [leftNegative, rightNegative, decide_true, if_true]
      omega
    · simp only [leftNegative, rightNegative, decide_true, decide_false, Bool.false_eq_true,
        if_true, if_false]
      omega
  · have magnitudes : roundRatio left.natAbs 1 ≤ roundRatio right.natAbs 1 :=
      roundRatio_mono (by omega)
    have rightNegative : ¬ right < 0 := by omega
    simp only [leftNegative, rightNegative, decide_false, Bool.false_eq_true, if_false]
    omega

/-- What lies below the number nearest to some ticks, by the rounded ticks: a number too large to be
finite is infinite. -/
theorem lt_nearest_iff (number : Binary64) (ticks : Int) :
    number.lt (nearest ticks) = true ↔
      match number with
      | .undefined => False
      | .infinite negative => negative = true ∧ -(limit : Int) < nearestTicks ticks
      | .finite negative own =>
          -(limit : Int) < nearestTicks ticks ∧
            (signed negative own < nearestTicks ticks ∨ (limit : Int) ≤ nearestTicks ticks) := by
  have room : 0 < limit := by decide +kernel
  unfold nearest nearestTicks ofRatio
  dsimp only
  generalize roundRatio ticks.natAbs 1 = rounded
  generalize limit = most at *
  by_cases negative : ticks < 0 <;> by_cases small : rounded < most <;>
    cases number with
    | undefined => simp [lt]
    | infinite sign => cases sign <;> simp [negative, small, lt, signed] <;> omega
    | finite sign own => cases sign <;> simp [negative, small, lt, signed] <;> omega

private theorem lt_nearest_mono {number : Binary64} {left right : Int} (atMost : left ≤ right)
    (above : number.lt (nearest left) = true) : number.lt (nearest right) = true := by
  have rounded := nearestTicks_mono atMost
  rw [lt_nearest_iff] at above ⊢
  cases number with
  | undefined => exact above
  | infinite negative => exact ⟨above.1, by omega⟩
  | finite negative own => exact ⟨by omega, by omega⟩

/-! ### Distances -/

theorem le_trans {first second third : Binary64} (start : first.le second = true)
    (rest : second.le third = true) : first.le third = true := by
  simp only [le, Bool.and_eq_true, bne_iff_ne, Bool.not_eq_true'] at start rest ⊢
  refine ⟨⟨start.1.1, rest.1.2⟩, ?_⟩
  cases first <;> cases second <;> cases third <;> simp_all [lt]
  omega

/-- A sum of finite numbers is the nearest number, up to the sign of zero. -/
theorem lt_add_finite (number : Binary64) (leftNegative rightNegative : Bool)
    (left right : Nat) :
    number.lt ((finite leftNegative left).add (finite rightNegative right)) =
      number.lt (nearest (signed leftNegative left + signed rightNegative right)) := by
  unfold add
  dsimp only
  split
  · rename_i nothing
    have zero : nearest 0 = .finite false 0 := by decide +kernel
    rw [nothing, zero]
    cases number with
    | finite negative ticks => cases leftNegative <;> cases rightNegative <;> rfl
    | _ => rfl
  · rfl

private theorem lt_infinite_of_lt {number other : Binary64} (below : number.lt other = true) :
    number.lt (.infinite false) = true := by
  cases number with
  | undefined => cases below
  | finite negative ticks => rfl
  | infinite negative =>
      cases negative with
      | true => rfl
      | false => cases other <;> cases below

/-- Nothing lies below negative infinity, nor below an undefined number. -/
theorem not_lt_least (number : Binary64) :
    number.lt (.infinite true) = false ∧ number.lt .undefined = false := by
  rcases number with _ | (_ | _) | _ <;> exact ⟨rfl, rfl⟩

/-- The later of two times is at least as far behind a third. -/
theorem lt_sub_mono {distance earlier later start : Binary64} (order : earlier.le later = true)
    (above : distance.lt (earlier - start) = true) : distance.lt (later - start) = true := by
  change distance.lt (earlier.add start.neg) = true at above
  change distance.lt (later.add start.neg) = true
  have reached := lt_infinite_of_lt above
  have least := not_lt_least distance
  simp only [le, Bool.and_eq_true, bne_iff_ne, Bool.not_eq_true'] at order
  obtain ⟨⟨_earlierDefined, laterDefined⟩, order⟩ := order
  cases start with
  | undefined => cases earlier <;> simp_all [add, neg]
  | infinite negative =>
      cases negative <;> rcases earlier with _ | (_ | _) | _ <;>
        rcases later with _ | (_ | _) | _ <;> simp_all [add, neg, lt]
  | finite negative ticks =>
      cases earlier with
      | undefined => cases above.symm.trans least.2
      | infinite side =>
          rcases later with _ | (_ | _) | _ <;> cases side <;> simp_all [add, neg, lt]
      | finite earlierNegative earlierTicks =>
          cases later with
          | undefined => exact absurd rfl laterDefined
          | infinite side => cases side <;> simp_all [add, neg, lt]
          | finite laterNegative laterTicks =>
              change distance.lt ((finite _ _).add (finite _ _)) = true at above
              change distance.lt ((finite _ _).add (finite _ _)) = true
              rw [lt_add_finite] at above ⊢
              refine lt_nearest_mono ?_ above
              simp only [lt, decide_eq_false_iff_not] at order
              omega

end SourceOutline.Binary64
