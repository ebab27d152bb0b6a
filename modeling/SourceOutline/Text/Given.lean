import SourceOutline.Error

set_option autoImplicit false

/-! Texts as callers give them.

A text may be given with surrogates that belong to no pair.  UTF-8 has no bytes for these, and work
that asks for the bytes of such a text stops. -/

namespace SourceOutline

structure Surrogate where
  code : Nat
  low : 0xd800 ≤ code
  high : code < 0xe000
deriving DecidableEq, Repr

inductive CodePoint where
  | char (c : Char)
  | surrogate (half : Surrogate)
deriving DecidableEq, Repr

/-- Characters alone, or some characters, a first surrogate and whatever follows it. -/
inductive GivenText where
  | plain (text : String)
  | broken (front : String) (first : Surrogate) (rest : List CodePoint)
deriving DecidableEq, Repr

namespace GivenText

instance : Coe String GivenText := ⟨.plain⟩

/-- The characters before the first surrogate. -/
def text : GivenText → String
  | plain text => text
  | broken front _ _ => front

def leadingSurrogates : List CodePoint → Nat
  | .surrogate _ :: rest => leadingSurrogates rest + 1
  | _ => 0

/-- What stops the work on a text when its bytes are asked for. -/
def fault? : GivenText → Option Crash
  | plain _ => none
  | broken front first rest =>
      let start := front.length
      match leadingSurrogates rest with
      | 0 =>
          let digits := String.ofList (Nat.toDigits 16 first.code)
          some (.unencodable ("character '\\u" ++ digits ++ "' in position " ++ toString start))
      | more =>
          some (.unencodable
            ("characters in position " ++ toString start ++ "-" ++ toString (start + more)))

end GivenText

end SourceOutline
