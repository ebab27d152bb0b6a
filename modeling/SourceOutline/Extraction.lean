import SourceOutline.Recovery

set_option autoImplicit false

/-! Collecting declarations under a limit.

A declaration has a weight, which counts against the limit.  Declarations are taken as long as the
limit is not reached; the last one taken may overshoot it. -/

namespace SourceOutline

/-- The items that are taken from the front of a list when `count` is reached already, and the
count reached then. -/
def takeWithin {α : Type} (limit : Nat) (weight : α → Nat) : Nat → List α → List α × Nat
  | count, [] => ([], count)
  | count, item :: rest =>
      if limit ≤ count then ([], count)
      else
        let (taken, count) := takeWithin limit weight (count + weight item) rest
        (item :: taken, count)

structure Extraction (α : Type) where
  items : List α := []
  /-- The weight of all items. -/
  count : Nat := 0
  problems : List String := []
  log : List Log.Entry := []

namespace Extraction

variable {α : Type}

def isFull (limit : Nat) (extraction : Extraction α) : Bool :=
  limit ≤ extraction.count

def take (limit : Nat) (weight : α → Nat) (items : List α) (extraction : Extraction α) :
    Extraction α :=
  let (taken, count) := takeWithin limit weight extraction.count items
  { extraction with items := extraction.items ++ taken, count := count }

def fail (step : String) (crash : Crash) (context : Option Context) (extraction : Extraction α) :
    Extraction α :=
  { extraction with
    problems := extraction.problems ++ [step ++ ": " ++ (crash.toError step context).message]
    log := extraction.log ++ [crash.logEntry step context] }

def problemFields (extraction : Extraction α) : Fields :=
  [("has_errors", .bool (!extraction.problems.isEmpty)),
    ("error_count", .count extraction.problems.length)] ++
  Fields.when (!extraction.problems.isEmpty) "extraction_errors" (.texts extraction.problems)

end Extraction

end SourceOutline
