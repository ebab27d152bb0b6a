import SourceOutline.Number.Binary64

set_option autoImplicit false

/-! Numbers written in decimal: a sign, digits with a point among them, and a power of ten. -/

namespace SourceOutline.Number

structure Decimal where
  negative : Bool
  mantissa : Nat
  exponent : Int
deriving DecidableEq, Repr

def Decimal.toBinary64 (decimal : Decimal) : Binary64 :=
  .ofDecimal decimal.negative decimal.mantissa decimal.exponent

def isDigit (c : Char) : Bool :=
  '0' ≤ c && c ≤ '9'

def digitValue (c : Char) : Nat :=
  c.toNat - '0'.toNat

def ofDigits (digits : List Char) : Nat :=
  digits.foldl (fun value c => 10 * value + digitValue c) 0

/-- A sign and the text behind it; no sign stands for plus. -/
def readSign : List Char → Bool × List Char
  | '-' :: rest => (true, rest)
  | '+' :: rest => (false, rest)
  | text => (false, text)

/-- A power of ten behind an exponent mark, which must end the text; no mark stands for zero. -/
def readExponent? : List Char → Option Int
  | [] => some 0
  | mark :: rest =>
      if mark == 'e' || mark == 'E' then
        let (negative, digits) := readSign rest
        if digits.isEmpty || !digits.all isDigit then none
        else if negative then some (-(ofDigits digits : Int)) else some (ofDigits digits)
      else none

/-- Digits with an optional point among them and an optional power of ten.  At least one digit
stands before or after the point. -/
def readUnsigned? (negative : Bool) (text : List Char) : Option Decimal :=
  let whole := text.takeWhile isDigit
  let rest := text.dropWhile isDigit
  let (fraction, rest) :=
    match rest with
    | '.' :: tail => (tail.takeWhile isDigit, tail.dropWhile isDigit)
    | _ => ([], rest)
  if whole.isEmpty && fraction.isEmpty then none
  else
    (readExponent? rest).map fun power =>
      ⟨negative, ofDigits (whole ++ fraction), power - fraction.length⟩

def readDecimal? (text : List Char) : Option Decimal :=
  let (negative, rest) := readSign text
  readUnsigned? negative rest

/-- The number a text spells: in decimal, or as a word for infinity or for an undefined number. -/
def readBinary64? (text : List Char) : Option Binary64 :=
  let (negative, rest) := readSign text
  let name := String.ofList (rest.map Char.toLower)
  if name == "inf" || name == "infinity" then some (.infinite negative)
  else if name == "nan" then some .undefined
  else (readUnsigned? negative rest).map Decimal.toBinary64

end SourceOutline.Number
