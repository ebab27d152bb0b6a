import SourceOutline.Config.Basic
import SourceOutline.Number.Decimal
import SourceOutline.Text.Blank
import SourceOutline.Text.Piece

set_option autoImplicit false

/-! Reading single settings.  Values of a neighbouring type are taken where nothing is lost: whole
reals and texts for integers, integers and texts for reals, zero, one and a few words for
booleans. -/

namespace SourceOutline.Config

inductive Reason where
  | notInteger
  | notIntegerText
  | fractional
  | oversized
  | notFinite
  | notNumber
  | notNumberText
  | notBoolean
  | notBooleanWord
  | notLevel
  | notGroup (group : String)
deriving DecidableEq, Repr

def Reason.message : Reason → String
  | notInteger => "Input should be a valid integer"
  | notIntegerText => "Input should be a valid integer, unable to parse string as an integer"
  | fractional => "Input should be a valid integer, got a number with a fractional part"
  | oversized => "Unable to parse input string as an integer, exceeded maximum size"
  | notFinite => "Input should be a finite number"
  | notNumber => "Input should be a valid number"
  | notNumberText => "Input should be a valid number, unable to parse string as a number"
  | notBoolean => "Input should be a valid boolean"
  | notBooleanWord => "Input should be a valid boolean, unable to interpret input"
  | notLevel => "Input should be 'debug', 'info', 'warn' or 'error'"
  | notGroup group => "Input should be a valid dictionary or instance of " ++ group

/-- White space around a number in a text; the information separators are not part of it. -/
def isMargin (c : Char) : Bool :=
  Text.isBlank c && !('\x1c' ≤ c && c ≤ '\x1f')

def trimMargin (text : List Char) : List Char :=
  Text.dropEnd isMargin (text.dropWhile isMargin)

/-- Digits in groups with one underscore between neighbouring groups. -/
def readGroups? (text : List Char) : Option Nat :=
  let groups := Text.splitAt '_' text
  if groups.all fun group => !group.isEmpty && group.all Number.isDigit then
    some (Number.ofDigits groups.flatten)
  else none

/-- A point and zeros at the end of a number change nothing. -/
def dropZeroFraction (text : List Char) : List Char :=
  match Text.after? '.' text with
  | some fraction => if fraction.all (· == '0') then Text.before '.' text else text
  | none => text

def readInteger? (text : List Char) : Option Int :=
  let (negative, digits) := Number.readSign (dropZeroFraction (trimMargin text))
  (readGroups? digits).map fun value => if negative then -(value : Int) else value

/-- The number a text spells, also with single underscores between its characters. -/
def readReal? (text : List Char) : Option Binary64 :=
  match Number.readBinary64? (trimMargin text) with
  | some value => some value
  | none =>
      let groups := Text.splitAt '_' text
      if groups.all fun group => !group.isEmpty then Number.readBinary64? groups.flatten else none

/-- The first number that does not fit into 64 bits with a sign. -/
def wordLimit : Int := 0x8000000000000000

def integerOfReal (value : Binary64) : Except Reason Int :=
  match value with
  | .infinite _ | .undefined => .error .notFinite
  | .finite _ _ =>
      match value.toInt? with
      | none => .error .fractional
      | some whole =>
          if whole < -wordLimit || wordLimit < whole then .error .oversized
          else .ok (min whole (wordLimit - 1))

def toInteger : Value → Except Reason Int
  | .integer value => .ok value
  | .bool value => .ok (if value then 1 else 0)
  | .real value => integerOfReal value
  | .text text =>
      match readInteger? text.toList with
      | some value => .ok value
      | none => .error .notIntegerText
  | _ => .error .notInteger

def toReal : Value → Except Reason Binary64
  | .real value => .ok value
  | .bool value => .ok (if value then .one else .zero)
  | .integer value =>
      match Binary64.ofInt value with
      | .infinite _ => .error .notNumber
      | number => .ok number
  | .text text =>
      match readReal? text.toList with
      | some value => .ok value
      | none => .error .notNumberText
  | _ => .error .notNumber

def booleanOfInteger (value : Int) : Except Reason Bool :=
  if value = 0 then .ok false else if value = 1 then .ok true else .error .notBooleanWord

def falseWords : List String := ["0", "off", "f", "false", "n", "no"]

def trueWords : List String := ["1", "on", "t", "true", "y", "yes"]

def toBoolean : Value → Except Reason Bool
  | .bool value => .ok value
  | .integer value =>
      if value < -wordLimit || wordLimit ≤ value then .error .notBoolean
      else booleanOfInteger value
  | .real value =>
      match integerOfReal value with
      | .ok whole => booleanOfInteger whole
      | .error _ => .error .notBoolean
  | .text text =>
      let word := String.ofList (text.toList.map Char.toLower)
      if falseWords.contains word then .ok false
      else if trueWords.contains word then .ok true
      else .error .notBooleanWord
  | _ => .error .notBoolean

def toLevel : Value → Except Reason Log.Level
  | .text text =>
      match levelOfWord? text with
      | some level => .ok level
      | none => .error .notLevel
  | _ => .error .notLevel

end SourceOutline.Config
