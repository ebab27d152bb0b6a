set_option autoImplicit false

/-! Reading bytes as UTF-8.  A byte that cannot continue a well-formed sequence ends it: the bytes
read so far, which form the longest start of a well-formed sequence, become one replacement
character, and reading goes on at the byte that did not fit. -/

namespace SourceOutline.Text

def replacement : Char := '�'

/-- What may follow a lead byte: the bits it contributes, the bounds on the next byte, and how many
further continuation bytes come after that one. -/
structure Lead where
  bits : Nat
  low : Nat
  high : Nat
  more : Nat
deriving DecidableEq, Repr

/-- The sequence a lead byte opens, if it opens one of more than one byte. -/
def lead? (byte : Nat) : Option Lead :=
  if 0xc2 ≤ byte ∧ byte ≤ 0xdf then some ⟨byte - 0xc0, 0x80, 0xbf, 0⟩
  else if byte = 0xe0 then some ⟨0, 0xa0, 0xbf, 1⟩
  else if byte = 0xed then some ⟨0xd, 0x80, 0x9f, 1⟩
  else if 0xe1 ≤ byte ∧ byte ≤ 0xef then some ⟨byte - 0xe0, 0x80, 0xbf, 1⟩
  else if byte = 0xf0 then some ⟨0, 0x90, 0xbf, 2⟩
  else if 0xf1 ≤ byte ∧ byte ≤ 0xf3 then some ⟨byte - 0xf0, 0x80, 0xbf, 2⟩
  else if byte = 0xf4 then some ⟨4, 0x80, 0x8f, 2⟩
  else none

/-- Decode bytes into characters, newest first.  `pending` is the open sequence, if any. -/
def decodeFrom (read : List Char) (pending : Option Lead) : List UInt8 → List Char
  | [] => if pending.isSome then replacement :: read else read
  | byte :: rest =>
      let code := byte.toNat
      match pending with
      | some begun =>
          if begun.low ≤ code ∧ code ≤ begun.high then
            let bits := begun.bits * 64 + code % 64
            match begun.more with
            | 0 => decodeFrom (Char.ofNat bits :: read) none rest
            | more + 1 => decodeFrom read (some ⟨bits, 0x80, 0xbf, more⟩) rest
          else if code < 0x80 then
            decodeFrom (Char.ofNat code :: replacement :: read) none rest
          else
            match lead? code with
            | some opened => decodeFrom (replacement :: read) (some opened) rest
            | none => decodeFrom (replacement :: replacement :: read) none rest
      | none =>
          if code < 0x80 then decodeFrom (Char.ofNat code :: read) none rest
          else
            match lead? code with
            | some opened => decodeFrom read (some opened) rest
            | none => decodeFrom (replacement :: read) none rest

/-- The text that bytes spell as UTF-8, with replacement characters for what is malformed. -/
def decodeUtf8 (bytes : List UInt8) : List Char :=
  (decodeFrom [] none bytes).reverse

end SourceOutline.Text
