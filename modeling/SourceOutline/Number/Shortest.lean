import SourceOutline.Number.Decimal

set_option autoImplicit false

/-! The shortest decimal that reads back as a given binary64 number, and how it is written. -/

namespace SourceOutline.Number

structure Scaled where
  digits : Nat
  power : Int
deriving DecidableEq, Repr

def digitCount (number : Nat) : Nat :=
  (Nat.toDigits 10 number).length

/-- How many places to the right the point of `numerator / denominator`, a number below one, has to
move until the number is at least one. -/
def leadingZeros (numerator denominator : Nat) : Nat → Nat
  | 0 => 0
  | fuel + 1 =>
      if denominator ≤ numerator then 0
      else leadingZeros (numerator * 10) denominator fuel + 1

/-- The power of ten of the first digit of a positive number of ticks.  The smallest positive
number is above 10^-324. -/
def leadingPower (ticks : Nat) : Int :=
  if Binary64.unit ≤ ticks then (digitCount (ticks / Binary64.unit) : Int) - 1
  else -(leadingZeros ticks Binary64.unit 324 : Int)

def inPowers (ticks : Nat) (power : Int) : Nat × Nat :=
  if 0 ≤ power then (ticks, Binary64.unit * Nat.pow 10 power.toNat)
  else (ticks * Nat.pow 10 (-power).toNat, Binary64.unit)

def readsBack (ticks digits : Nat) (power : Int) : Bool :=
  Binary64.ofDecimal false digits power == .finite false ticks

/-- Of the two neighbours of a number on a decimal grid, the nearer one that reads back as it. -/
def onGrid? (ticks : Nat) (power : Int) : Option Scaled :=
  let (numerator, denominator) := inPowers ticks power
  let below := numerator / denominator
  let above := below + 1
  match readsBack ticks below power, readsBack ticks above power with
  | true, true =>
      if 2 * numerator ≤ (2 * below + 1) * denominator then some ⟨below, power⟩
      else some ⟨above, power⟩
  | true, false => some ⟨below, power⟩
  | false, true => some ⟨above, power⟩
  | false, false => none

/-- Try finer and finer grids.  Seventeen digits always read back. -/
def shortestFrom (ticks : Nat) (power : Int) : Nat → Scaled
  | 0 =>
      let (numerator, denominator) := inPowers ticks power
      ⟨numerator / denominator, power⟩
  | fuel + 1 =>
      match onGrid? ticks power with
      | some scaled => scaled
      | none => shortestFrom ticks (power - 1) fuel

def shortest (ticks : Nat) : Scaled :=
  shortestFrom ticks (leadingPower ticks) 17

/-- How a number is written: which powers of the first digit are written without an exponent, how
many digits an exponent has at least, and the names of the numbers that have no digits. -/
structure Style where
  lowestPositional : Int
  lowestExponential : Int
  exponentWidth : Nat
  infinity : String
  undefined : String

/-- Powers from -4 to 15 are positional and keep a point; exponents have two digits. -/
def standard : Style := ⟨-4, 16, 2, "inf", "nan"⟩

def padded (width : Nat) (digits : List Char) : List Char :=
  List.replicate (width - digits.length) '0' ++ digits

def positional (digits : List Char) (places : Int) : List Char :=
  if places ≤ 0 then ['0', '.'] ++ List.replicate (-places).toNat '0' ++ digits
  else if digits.length ≤ places.toNat then
    digits ++ List.replicate (places.toNat - digits.length) '0' ++ ['.', '0']
  else digits.take places.toNat ++ '.' :: digits.drop places.toNat

def exponential (style : Style) (digits : List Char) (power : Int) : List Char :=
  let fraction := digits.drop 1
  let sign := if power < 0 then '-' else '+'
  digits.take 1 ++ (if fraction.isEmpty then [] else '.' :: fraction) ++
    'e' :: sign :: padded style.exponentWidth (Nat.toDigits 10 power.natAbs)

def writePositive (style : Style) (ticks : Nat) : List Char :=
  let scaled := shortest ticks
  let all := Nat.toDigits 10 scaled.digits
  let digits := (all.reverse.dropWhile (· == '0')).reverse
  let power := scaled.power + all.length - 1
  if style.lowestPositional ≤ power ∧ power < style.lowestExponential then
    positional digits (power + 1)
  else exponential style digits power

def write (style : Style) : Binary64 → String
  | .finite negative ticks =>
      let digits := if ticks = 0 then ['0', '.', '0'] else writePositive style ticks
      String.ofList (if negative then '-' :: digits else digits)
  | .infinite negative => if negative then "-" ++ style.infinity else style.infinity
  | .undefined => style.undefined

end SourceOutline.Number

def SourceOutline.Binary64.text (number : Binary64) : String :=
  Number.write Number.standard number
