set_option autoImplicit false

/-! The SHA-256 digest of a text, in hexadecimal. -/

namespace SourceOutline

namespace Digest

/-- The first 32 bits of the fractional parts of the cube roots of the first 64 primes. -/
def roundConstants : Array UInt32 := #[
  0x428a2f98, 0x71374491, 0xb5c0fbcf, 0xe9b5dba5, 0x3956c25b, 0x59f111f1, 0x923f82a4, 0xab1c5ed5,
  0xd807aa98, 0x12835b01, 0x243185be, 0x550c7dc3, 0x72be5d74, 0x80deb1fe, 0x9bdc06a7, 0xc19bf174,
  0xe49b69c1, 0xefbe4786, 0x0fc19dc6, 0x240ca1cc, 0x2de92c6f, 0x4a7484aa, 0x5cb0a9dc, 0x76f988da,
  0x983e5152, 0xa831c66d, 0xb00327c8, 0xbf597fc7, 0xc6e00bf3, 0xd5a79147, 0x06ca6351, 0x14292967,
  0x27b70a85, 0x2e1b2138, 0x4d2c6dfc, 0x53380d13, 0x650a7354, 0x766a0abb, 0x81c2c92e, 0x92722c85,
  0xa2bfe8a1, 0xa81a664b, 0xc24b8b70, 0xc76c51a3, 0xd192e819, 0xd6990624, 0xf40e3585, 0x106aa070,
  0x19a4c116, 0x1e376c08, 0x2748774c, 0x34b0bcb5, 0x391c0cb3, 0x4ed8aa4a, 0x5b9cca4f, 0x682e6ff3,
  0x748f82ee, 0x78a5636f, 0x84c87814, 0x8cc70208, 0x90befffa, 0xa4506ceb, 0xbef9a3f7, 0xc67178f2]

structure State where
  a : UInt32
  b : UInt32
  c : UInt32
  d : UInt32
  e : UInt32
  f : UInt32
  g : UInt32
  h : UInt32

/-- The first 32 bits of the fractional parts of the square roots of the first 8 primes. -/
def initial : State :=
  ⟨0x6a09e667, 0xbb67ae85, 0x3c6ef372, 0xa54ff53a, 0x510e527f, 0x9b05688c, 0x1f83d9ab, 0x5be0cd19⟩

@[inline] def rotate (word amount : UInt32) : UInt32 :=
  (word >>> amount) ||| (word <<< (32 - amount))

/-- The byte at a place of the padded message: the message, a one bit, zeros, and the length of
the message in bits as a 64-bit number that ends the last block. -/
@[inline] def paddedByte (message : ByteArray) (total : Nat) (place : Nat) : UInt8 :=
  if inside : place < message.size then message[place]
  else if place = message.size then 0x80
  else if place + 8 < total then 0
  else ((message.size * 8) >>> (8 * (total - 1 - place))).toUInt8

@[inline] def paddedWord (message : ByteArray) (total : Nat) (place : Nat) : UInt32 :=
  ((paddedByte message total place).toUInt32 <<< 24) |||
    ((paddedByte message total (place + 1)).toUInt32 <<< 16) |||
    ((paddedByte message total (place + 2)).toUInt32 <<< 8) |||
    (paddedByte message total (place + 3)).toUInt32

def blockWords (message : ByteArray) (total start : Nat) : Nat → Array UInt32 → Array UInt32
  | 0, words => words
  | left + 1, words =>
      blockWords message total start left
        (words.push (paddedWord message total (start + 4 * (15 - left))))

def extendWords : Nat → Array UInt32 → Array UInt32
  | 0, words => words
  | left + 1, words =>
      let place := words.size
      let old := words.getD (place - 15) 0
      let recent := words.getD (place - 2) 0
      let first := rotate old 7 ^^^ rotate old 18 ^^^ (old >>> 3)
      let second := rotate recent 17 ^^^ rotate recent 19 ^^^ (recent >>> 10)
      extendWords left
        (words.push (words.getD (place - 16) 0 + first + words.getD (place - 7) 0 + second))

def rounds (words : Array UInt32) : Nat → State → State
  | 0, state => state
  | left + 1, state =>
      let place := 63 - left
      let ⟨a, b, c, d, e, f, g, h⟩ := state
      let chosen := (e &&& f) ^^^ (~~~e &&& g)
      let fromE := rotate e 6 ^^^ rotate e 11 ^^^ rotate e 25
      let first := h + fromE + chosen + roundConstants.getD place 0 + words.getD place 0
      let majority := (a &&& b) ^^^ (a &&& c) ^^^ (b &&& c)
      let fromA := rotate a 2 ^^^ rotate a 13 ^^^ rotate a 22
      rounds words left ⟨first + fromA + majority, a, b, c, d + first, e, f, g⟩

def State.add (left right : State) : State :=
  ⟨left.a + right.a, left.b + right.b, left.c + right.c, left.d + right.d,
    left.e + right.e, left.f + right.f, left.g + right.g, left.h + right.h⟩

def foldBlocks (message : ByteArray) (blocks : Nat) : Nat → State → State
  | 0, state => state
  | left + 1, state =>
      let start := 64 * (blocks - 1 - left)
      let words := extendWords 48 (blockWords message (64 * blocks) start 16 #[])
      foldBlocks message blocks left (state.add (rounds words 64 state))

def wordDigits (word : UInt32) : List Char :=
  [28, 24, 20, 16, 12, 8, 4, 0].map fun shift => Nat.digitChar ((word.toNat >>> shift) % 16)

def hex (state : State) : String :=
  String.ofList ([state.a, state.b, state.c, state.d, state.e, state.f, state.g, state.h].flatMap
    wordDigits)

end Digest

def digest (text : String) : String :=
  let message := text.toUTF8
  let blocks := (message.size + 9 + 63) / 64
  Digest.hex (Digest.foldBlocks message blocks blocks Digest.initial)

end SourceOutline
