import SourceOutline.Source.Basic

set_option autoImplicit false

/-! Cutting a long text into chunks.  A chunk ends right behind its last closing brace, so that no
block that fits is split, unless it has no such brace behind its first character or reaches the
end of the text. -/

namespace SourceOutline

/-- The last of the first `length` offsets behind `start` that holds a closing brace. -/
def lastClosing? (text : Array Char) (start : Nat) : Nat → Option Nat
  | 0 => none
  | length + 1 =>
      if text[start + length]? == some '}' then some (start + length)
      else lastClosing? text start length

def chunkStop (text : Array Char) (start size : Nat) : Nat :=
  let stop := min (start + size) text.size
  if stop = text.size then stop
  else
    match lastClosing? text start (stop - start) with
    | some cut => if start < cut then cut + 1 else stop
    | none => stop

def chunksFrom (text : Array Char) (size : Nat) : Nat → Nat → List (Nat × Nat)
  | 0, _ => []
  | fuel + 1, start =>
      if start < text.size then
        let stop := chunkStop text start size
        (start, stop) :: chunksFrom text size fuel stop
      else []

/-- All chunks of a text.  Every chunk has a character, so there are no more chunks than
characters. -/
def chunks (text : Array Char) (size : Nat) : List (Nat × Nat) :=
  chunksFrom text size text.size 0

end SourceOutline
