set_option autoImplicit false

/-! Sets of code points, kept as the increasing list of places where membership changes.

A code point belongs to the set exactly when an odd number of those places lie at or below it, so
one binary search answers a membership question. -/

namespace SourceOutline.Text

/-- The places, in increasing order, where a code point and its predecessor differ in membership. -/
structure CodeSet where
  switches : Array Nat

namespace CodeSet

/-- Binary search between `low` and `high` for the first place above `code`.  The fuel is the
length of the table, which is more than the search needs. -/
def firstAbove (switches : Array Nat) (code : Nat) : Nat → Nat → Nat → Nat
  | 0, low, _ => low
  | fuel + 1, low, high =>
      if low < high then
        let middle := (low + high) / 2
        if switches.getD middle 0 ≤ code then
          firstAbove switches code fuel (middle + 1) high
        else
          firstAbove switches code fuel low middle
      else low

def rank (set : CodeSet) (code : Nat) : Nat :=
  firstAbove set.switches code set.switches.size 0 set.switches.size

def contains (set : CodeSet) (code : Nat) : Bool :=
  set.rank code % 2 == 1

end CodeSet

end SourceOutline.Text
