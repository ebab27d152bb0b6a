import SourceOutline.Text.Utf8

set_option autoImplicit false

/-! Reading UTF-8 gives back what was written.

The first byte of a character opens a sequence that takes just the bytes that follow it, and the
bits collected on the way are those of the character.  So reading goes through the bytes of a text
one character at a time, whatever follows them. -/

namespace SourceOutline.Text

/-- A byte opens a sequence with some bits, which takes a next byte and some more behind it. -/
def Opens (byte bits next more : Nat) : Prop :=
  ∃ low high, lead? byte = some ⟨bits, low, high, more⟩ ∧ low ≤ next ∧ next ≤ high

private theorem opens_two {code : Nat} (large : 0x80 ≤ code) (small : code ≤ 0x7ff) :
    Opens (code / 64 + 192) (code / 64) (code % 64 + 128) 0 := by
  refine ⟨0x80, 0xbf, ?_, by omega, by omega⟩
  rw [lead?, if_pos (by omega), Nat.add_sub_cancel]

/-- Three bytes are no character of fewer bytes, and no surrogate. -/
theorem opens_three {code : Nat} (large : 0x800 ≤ code) (small : code ≤ 0xffff)
    (scalar : code < 0xd800 ∨ 0xdfff < code) :
    Opens (code / 4096 + 224) (code / 4096) (code / 64 % 64 + 128) 1 := by
  by_cases first : code / 4096 = 0
  · refine ⟨0xa0, 0xbf, ?_, by omega, by omega⟩
    rw [first]
    rfl
  · by_cases surrogates : code / 4096 = 13
    · refine ⟨0x80, 0x9f, ?_, by omega, by omega⟩
      rw [surrogates]
      rfl
    · refine ⟨0x80, 0xbf, ?_, by omega, by omega⟩
      rw [lead?, if_neg (by omega), if_neg (by omega), if_neg (by omega), if_pos (by omega),
        Nat.add_sub_cancel]

private theorem opens_four {code : Nat} (large : 0x10000 ≤ code) (small : code < 0x110000) :
    Opens (code / 262144 + 240) (code / 262144) (code / 4096 % 64 + 128) 2 := by
  by_cases first : code / 262144 = 0
  · refine ⟨0x90, 0xbf, ?_, by omega, by omega⟩
    rw [first]
    rfl
  · by_cases last : code / 262144 = 4
    · refine ⟨0x80, 0x8f, ?_, by omega, by omega⟩
      rw [last]
      rfl
    · refine ⟨0x80, 0xbf, ?_, by omega, by omega⟩
      rw [lead?, if_neg (by omega), if_neg (by omega), if_neg (by omega), if_neg (by omega),
        if_neg (by omega), if_pos (by omega), Nat.add_sub_cancel]

/-! ### One byte -/

section

variable (read : List Char) (rest : List UInt8)

private theorem decodeFrom_ascii {code : Nat} (small : code < 0x80) :
    decodeFrom read none (UInt8.ofNat code :: rest) =
      decodeFrom (Char.ofNat code :: read) none rest := by
  have byte : (UInt8.ofNat code).toNat = code :=
    UInt8.toNat_ofNat_of_lt' (Nat.lt_trans small (by decide))
  simp only [decodeFrom, byte, if_pos small]

private theorem decodeFrom_lead {code : Nat} {opened : Lead} (opens : lead? code = some opened)
    (large : 0x80 ≤ code) (small : code < 0x100) :
    decodeFrom read none (UInt8.ofNat code :: rest) = decodeFrom read (some opened) rest := by
  have byte : (UInt8.ofNat code).toNat = code := UInt8.toNat_ofNat_of_lt' small
  simp only [decodeFrom, byte, if_neg (Nat.not_lt.mpr large), opens]

/-- A byte that is taken gives the sequence six more bits. -/
theorem decodeFrom_taken {bits low high more code : Nat} (above : low ≤ code + 128)
    (below : code + 128 ≤ high) (small : code < 64) :
    decodeFrom read (some ⟨bits, low, high, more⟩) (UInt8.ofNat (code + 128) :: rest) =
      if more = 0 then decodeFrom (Char.ofNat (bits * 64 + code) :: read) none rest
      else decodeFrom read (some ⟨bits * 64 + code, 0x80, 0xbf, more - 1⟩) rest := by
  have byte : (UInt8.ofNat (code + 128)).toNat = code + 128 :=
    UInt8.toNat_ofNat_of_lt' (Nat.lt_trans (Nat.add_lt_add_right small 128) (by decide))
  have last : (code + 128) % 64 = code := by omega
  have taken : low ≤ code + 128 ∧ code + 128 ≤ high := ⟨above, below⟩
  cases more with
  | zero => simp only [decodeFrom, byte, last, if_pos taken, if_pos]
  | succ more =>
      simp only [decodeFrom, byte, last, if_pos taken, if_neg (Nat.succ_ne_zero more),
        Nat.add_sub_cancel]

/-! ### One character -/

private theorem decodeFrom_two {code : Nat} (large : 0x80 ≤ code) (small : code ≤ 0x7ff) :
    decodeFrom read none
        (UInt8.ofNat (code / 64 + 192) :: UInt8.ofNat (code % 64 + 128) :: rest) =
      decodeFrom (Char.ofNat code :: read) none rest := by
  obtain ⟨low, high, opens, above, below⟩ := opens_two large small
  have bits : code / 64 * 64 + code % 64 = code := by omega
  rw [decodeFrom_lead read _ opens (by omega) (by omega),
    decodeFrom_taken read rest above below (by omega), if_pos rfl, bits]

private theorem decodeFrom_three {code : Nat} (large : 0x800 ≤ code) (small : code ≤ 0xffff)
    (scalar : code < 0xd800 ∨ 0xdfff < code) :
    decodeFrom read none
        (UInt8.ofNat (code / 4096 + 224) :: UInt8.ofNat (code / 64 % 64 + 128) ::
          UInt8.ofNat (code % 64 + 128) :: rest) =
      decodeFrom (Char.ofNat code :: read) none rest := by
  obtain ⟨low, high, opens, above, below⟩ := opens_three large small scalar
  have bits : (code / 4096 * 64 + code / 64 % 64) * 64 + code % 64 = code := by omega
  rw [decodeFrom_lead read _ opens (by omega) (by omega),
    decodeFrom_taken read _ above below (by omega), if_neg (by decide),
    decodeFrom_taken read rest (by omega) (by omega) (by omega), if_pos rfl, bits]

private theorem decodeFrom_four {code : Nat} (large : 0x10000 ≤ code) (small : code < 0x110000) :
    decodeFrom read none
        (UInt8.ofNat (code / 262144 + 240) :: UInt8.ofNat (code / 4096 % 64 + 128) ::
          UInt8.ofNat (code / 64 % 64 + 128) :: UInt8.ofNat (code % 64 + 128) :: rest) =
      decodeFrom (Char.ofNat code :: read) none rest := by
  obtain ⟨low, high, opens, above, below⟩ := opens_four large small
  have bits : ((code / 262144 * 64 + code / 4096 % 64) * 64 + code / 64 % 64) * 64 +
      code % 64 = code := by omega
  rw [decodeFrom_lead read _ opens (by omega) (by omega),
    decodeFrom_taken read _ above below (by omega), if_neg (by decide),
    decodeFrom_taken read _ (by omega) (by omega) (by omega), if_neg (by decide),
    decodeFrom_taken read rest (by omega) (by omega) (by omega), if_pos rfl, bits]

private theorem decodeFrom_utf8EncodeChar (c : Char) :
    decodeFrom read none (String.utf8EncodeChar c ++ rest) = decodeFrom (c :: read) none rest := by
  have scalar : c.val.toNat < 0xd800 ∨ 0xdfff < c.val.toNat ∧ c.val.toNat < 0x110000 := c.valid
  have back : Char.ofNat c.val.toNat = c := Char.ofNat_toNat c
  unfold String.utf8EncodeChar
  dsimp only
  generalize c.val.toNat = code at scalar back ⊢
  rw [← back]
  split
  · exact decodeFrom_ascii read rest (by omega)
  · split
    · rw [Nat.mod_eq_of_lt (show code / 64 < 32 by omega)]
      exact decodeFrom_two read rest (by omega) (by omega)
    · split
      · rw [Nat.mod_eq_of_lt (show code / 4096 < 16 by omega)]
        exact decodeFrom_three read rest (by omega) (by omega) (by omega)
      · rw [Nat.mod_eq_of_lt (show code / 262144 < 8 by omega)]
        exact decodeFrom_four read rest (by omega) (by omega)

private theorem decodeFrom_flatMap (chars : List Char) :
    decodeFrom read none (chars.flatMap String.utf8EncodeChar ++ rest) =
      decodeFrom (chars.reverse ++ read) none rest := by
  induction chars generalizing read with
  | nil => rfl
  | cons c others ih =>
      rw [List.flatMap_cons, List.append_assoc, decodeFrom_utf8EncodeChar, ih, List.reverse_cons,
        List.append_assoc, List.singleton_append]

end

/-- The bytes of a text spell the text. -/
theorem decodeUtf8_toUTF8 (text : String) : decodeUtf8 text.toUTF8.data.toList = text.toList := by
  have bytes : text.toUTF8.data.toList = text.toList.flatMap String.utf8EncodeChar ++ [] := by
    rw [String.toUTF8_eq_toByteArray, ← String.utf8Encode_toList, List.utf8Encode,
      List.toList_data_toByteArray, List.append_nil]
  rw [decodeUtf8, bytes, decodeFrom_flatMap, decodeFrom]
  simp

end SourceOutline.Text
