import SourceOutline.Pattern.Build

set_option autoImplicit false

/-! Where the lines of a text start and where its braces stand.

Both are kept as sorted tables of offsets, which count characters, and are searched by bisection.
Braces in strings and comments count like any others. -/

namespace SourceOutline

/-! ### Bisection -/

/-- Half of what is left of a table is given up in each step, so that its size is fuel enough. -/
def bisectFrom (passes : Nat → Bool) (table : Array Nat) : Nat → Nat → Nat → Nat
  | 0, low, _ => low
  | fuel + 1, low, high =>
      if low < high then
        let middle := (low + high) / 2
        if passes (table.getD middle 0) then bisectFrom passes table fuel (middle + 1) high
        else bisectFrom passes table fuel low middle
      else low

/-- How many entries of a sorted table are not above a bound. -/
def bisectRight (table : Array Nat) (bound : Nat) : Nat :=
  bisectFrom (fun entry => decide (entry ≤ bound)) table table.size 0 table.size

/-- How many entries of a sorted table are below a bound. -/
def bisectLeft (table : Array Nat) (bound : Nat) : Nat :=
  bisectFrom (fun entry => decide (entry < bound)) table table.size 0 table.size

/-! ### Occurrences -/

def nextOccurrence? (text : Array Char) (accepts : Char → Bool) (offset : Nat) : Option Nat :=
  let next := Pattern.spanEnd text (fun c => !accepts c) (text.size - offset) offset
  if next < text.size then some next else none

def occurrencesFrom (text : Array Char) (accepts : Char → Bool) :
    Nat → Nat → Array Nat → Array Nat
  | 0, _, found => found
  | fuel + 1, offset, found =>
      match nextOccurrence? text accepts offset with
      | some next => occurrencesFrom text accepts fuel (next + 1) (found.push next)
      | none => found

/-- The offsets of the accepted characters, each searched for behind the one before it. -/
def occurrences (text : Array Char) (accepts : Char → Bool) : Array Nat :=
  occurrencesFrom text accepts text.size 0 #[]

/-! ### Lines -/

structure LineIndex where
  starts : Array Nat
deriving DecidableEq, Repr, Inhabited

namespace LineIndex

def ofText (text : Array Char) : LineIndex :=
  ⟨(occurrences text (· == '\n')).foldl (fun starts feed => starts.push (feed + 1)) #[0]⟩

def lineOf (lines : LineIndex) (offset : Nat) : Nat :=
  bisectRight lines.starts offset

def lineStart (lines : LineIndex) (offset : Nat) : Nat :=
  lines.starts.getD (lines.lineOf offset - 1) 0

end LineIndex

/-! ### Braces -/

def braceShift (c : Char) : Int :=
  if c == '{' then 1 else if c == '}' then -1 else 0

def isBrace (c : Char) : Bool :=
  c == '{' || c == '}'

/-- The offsets of braces, and beside each how many more were opened than closed up to it. -/
structure BraceMap where
  positions : Array Nat
  depths : Array Int
deriving DecidableEq, Repr, Inhabited

namespace BraceMap

def empty : BraceMap := ⟨#[], #[]⟩

def add (text : Array Char) (braces : BraceMap) (offset : Nat) : BraceMap :=
  ⟨braces.positions.push offset,
    braces.depths.push (braces.depths.back?.getD 0 + braceShift (text.getD offset ' '))⟩

def ofText (text : Array Char) : BraceMap :=
  (occurrences text isBrace).foldl (add text) empty

def depthBehind (braces : BraceMap) : Nat → Int
  | 0 => 0
  | index + 1 => braces.depths.getD index 0

def depthAt (braces : BraceMap) (offset : Nat) : Int :=
  braces.depthBehind (bisectLeft braces.positions offset)

/-- The first of the next `fuel` braces behind which the depth is `outer`. -/
def fallFrom? (braces : BraceMap) (outer : Int) : Nat → Nat → Option Nat
  | 0, _ => none
  | fuel + 1, index =>
      if braces.depths[index]? = some outer then braces.positions[index]?
      else fallFrom? braces outer fuel (index + 1)

def blockEnd? (braces : BraceMap) (offset : Nat) : Option Nat :=
  let index := bisectLeft braces.positions offset
  if braces.positions[index]? = some offset then
    braces.fallFrom? (braces.depths.getD index 0 - 1) (braces.positions.size - (index + 1))
      (index + 1)
  else none

end BraceMap

end SourceOutline
