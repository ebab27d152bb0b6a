set_option autoImplicit false

/-! Binary64 numbers in exact arithmetic.

Every finite binary64 number is a whole multiple of the smallest positive one, 2^-1074, so a sign
and a natural number of such ticks describe it.  Sums are computed exactly and then rounded to 53
significant bits, a half going to the even neighbour; order is the order of the integers. -/

namespace SourceOutline

/-- A binary64 number.  A finite one is `ticks` times 2^-1074, with a sign that zero has too. -/
inductive Binary64 where
  | finite (negative : Bool) (ticks : Nat)
  | infinite (negative : Bool)
  | undefined
deriving DecidableEq, Repr

namespace Binary64

/-- How many ticks make one. -/
def unit : Nat := Nat.pow 2 1074

/-- From this number of ticks on, a magnitude is infinite. -/
def limit : Nat := Nat.pow 2 2098

/-- The quotient of two numbers as a multiple of a power of two with 53 significant bits, a half
going to the even neighbour. -/
def roundRatio (numerator denominator : Nat) : Nat :=
  let excess := (numerator / denominator).log2 + 1 - 53
  let step := denominator * Nat.pow 2 excess
  let quotient := numerator / step
  let remainder := numerator % step
  let rounded :=
    if 2 * remainder < step then quotient
    else if step < 2 * remainder then quotient + 1
    else quotient + quotient % 2
  rounded * Nat.pow 2 excess

def ofRatio (negative : Bool) (numerator denominator : Nat) : Binary64 :=
  let ticks := roundRatio numerator denominator
  if ticks < limit then .finite negative ticks else .infinite negative

def ofInt (value : Int) : Binary64 :=
  ofRatio (value < 0) (value.natAbs * unit) 1

/-- The number nearest to `mantissa` times ten to the power `exponent`.  Powers far outside the
range of finite numbers are decided by their size alone. -/
def ofDecimal (negative : Bool) (mantissa : Nat) (exponent : Int) : Binary64 :=
  if mantissa = 0 then .finite negative 0
  else if 400 < exponent then .infinite negative
  else if exponent < -400 - (Nat.toDigits 10 mantissa).length then .finite negative 0
  else if 0 ≤ exponent then ofRatio negative (mantissa * Nat.pow 10 exponent.toNat * unit) 1
  else ofRatio negative (mantissa * unit) (Nat.pow 10 (-exponent).toNat)

def zero : Binary64 := .finite false 0

def one : Binary64 := .finite false unit

def neg : Binary64 → Binary64
  | .finite negative ticks => .finite (!negative) ticks
  | .infinite negative => .infinite (!negative)
  | .undefined => .undefined

def signed (negative : Bool) (ticks : Nat) : Int :=
  if negative then -(ticks : Int) else ticks

def add : Binary64 → Binary64 → Binary64
  | .undefined, _ => .undefined
  | _, .undefined => .undefined
  | .infinite left, .infinite right => if left == right then .infinite left else .undefined
  | .infinite left, .finite _ _ => .infinite left
  | .finite _ _, .infinite right => .infinite right
  | .finite leftNegative left, .finite rightNegative right =>
      let sum := signed leftNegative left + signed rightNegative right
      if sum = 0 then .finite (leftNegative && rightNegative) 0
      else ofRatio (sum < 0) sum.natAbs 1

def sub (left right : Binary64) : Binary64 :=
  left.add right.neg

instance : Add Binary64 := ⟨add⟩

instance : Sub Binary64 := ⟨sub⟩

/-- Whether one number is below another; never so when one of them is undefined. -/
def lt : Binary64 → Binary64 → Bool
  | .undefined, _ => false
  | _, .undefined => false
  | .infinite left, .infinite right => left && !right
  | .infinite left, .finite _ _ => left
  | .finite _ _, .infinite right => !right
  | .finite leftNegative left, .finite rightNegative right =>
      signed leftNegative left < signed rightNegative right

def isPositive (number : Binary64) : Bool :=
  zero.lt number

def toInt? : Binary64 → Option Int
  | .finite negative ticks =>
      if ticks % unit = 0 then some (signed negative (ticks / unit)) else none
  | _ => none

/-- The number nearest to a given one with at most `places` decimal places, a half going to the
even neighbour. -/
def roundPlaces (places : Nat) : Binary64 → Binary64
  | .finite negative ticks =>
      let scaled := ticks * Nat.pow 10 places
      let quotient := scaled / unit
      let remainder := scaled % unit
      let rounded :=
        if 2 * remainder < unit then quotient
        else if unit < 2 * remainder then quotient + 1
        else quotient + quotient % 2
      ofDecimal negative rounded (-places)
  | number => number

end Binary64

end SourceOutline
