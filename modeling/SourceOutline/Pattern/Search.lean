import SourceOutline.Pattern.Basic

set_option autoImplicit false

/-! Matches of a pattern in a text: at a place, the first one from a place on, and all of them from
left to right. -/

namespace SourceOutline

structure Match where
  start : Nat
  stop : Nat
  parts : Parts
deriving DecidableEq, Repr

namespace Match

/-- Where a part stands, if it took part in the match. -/
def part? (found : Match) (part : Part) : Option (Nat × Nat) :=
  found.parts.lookup part

/-- Where a part starts; a part that took no part starts with the match. -/
def partStart (found : Match) (part : Part) : Nat :=
  (found.part? part).elim found.start Prod.fst

def partStop (found : Match) (part : Part) : Nat :=
  (found.part? part).elim found.start Prod.snd

end Match

namespace Pattern

def matchAt? (pattern : Pattern) (text : Array Char) (place : Nat) : Option Match :=
  (run text pattern place [] fun stop parts => some (stop, parts)).map
    fun (stop, parts) => ⟨place, stop, parts⟩

/-- The first match at one of the next `fuel` places. -/
def findWithin? (pattern : Pattern) (text : Array Char) : Nat → Nat → Option Match
  | 0, _ => none
  | fuel + 1, place =>
      match pattern.matchAt? text place with
      | some found => some found
      | none => findWithin? pattern text fuel (place + 1)

def findFrom? (pattern : Pattern) (text : Array Char) (place : Nat) : Option Match :=
  findWithin? pattern text (text.size + 1 - place) place

def occursIn (pattern : Pattern) (text : Array Char) : Bool :=
  (pattern.findFrom? text 0).isSome

/-- Where to look for the next match: behind this one, and further on if it took no text. -/
def resume (found : Match) : Nat :=
  if found.start < found.stop then found.stop else found.stop + 1

def collectFrom (pattern : Pattern) (text : Array Char) :
    Nat → Nat → Array Match → Array Match
  | 0, _, found => found
  | fuel + 1, place, found =>
      match pattern.findFrom? text place with
      | some next => collectFrom pattern text fuel (resume next) (found.push next)
      | none => found

/-- All matches that start at or behind a place, from left to right and without overlap. -/
def findAllFrom (pattern : Pattern) (text : Array Char) (place : Nat) : List Match :=
  (collectFrom pattern text (text.size + 1 - place) place #[]).toList

def findAll (pattern : Pattern) (text : Array Char) : List Match :=
  pattern.findAllFrom text 0

/-- All matches between two places, as if the text ended at the second. -/
def findAllBetween (pattern : Pattern) (text : Array Char) (start stop : Nat) : List Match :=
  pattern.findAllFrom (text.extract 0 stop) start

def count (pattern : Pattern) (text : Array Char) : Nat :=
  (pattern.findAll text).length

def blankOut (pattern : Pattern) (text : Array Char) : Array Char :=
  let found := pattern.findAll text
  text.mapIdx fun place c =>
    if found.any fun each => each.start ≤ place && place < each.stop then ' ' else c

end Pattern

end SourceOutline
