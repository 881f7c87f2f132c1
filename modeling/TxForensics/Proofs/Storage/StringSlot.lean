import Mathlib.Data.List.Induction
import TxForensics.Proofs.Storage.Packing

/-!
# The slot of a string

A string of at most 31 bytes stands in its slot, in front of zeros and of a tag with twice its
length. Of a longer one the slot has a number only, twice the length and one more, so the lowest bit
tells which of them it is (`Word.ofString`).

A word that is not zero need not come from a string. A tag of zero, an odd one and one above 62 are
no length of a short string, so such a word counts as the slot of a long one
(`shortString?_eq_none_iff`). Any other tag is taken for a length, and from the slot of a short
string just that string is read (`shortString?_ofString`):

    string ──ofString──▶ word ──shortString?──▶ string, if it was short ──showString──▶ text
-/

namespace TxForensics

namespace Word

theorem numberOfBytes_concat (bs : Bytes) (b : UInt8) :
    numberOfBytes (bs ++ [b]) = numberOfBytes bs * 256 + b.toNat := by
  rw [numberOfBytes, List.foldl_append]
  rfl

/-- The bytes of a number that bytes denote are these bytes. -/
theorem bigEndian_numberOfBytes (bs : Bytes) : bigEndian bs.length (numberOfBytes bs) = bs := by
  -- from the back, since the last byte is the lowest of the number
  induction bs using List.reverseRecOn with
  | nil => rfl
  | append_singleton bs b ih =>
    have hb : b.toNat < 256 := b.toNat_lt
    have hrest : (numberOfBytes bs * 256 + b.toNat) / 256 = numberOfBytes bs := by omega
    have hlow : (numberOfBytes bs * 256 + b.toNat) % 256 = b.toNat := by omega
    rw [numberOfBytes_concat, List.length_append, List.length_singleton, bigEndian, hrest, hlow, ih,
      Nat.toUInt8_eq, UInt8.ofNat_toNat]

/-- A word made of 32 bytes has these bytes. -/
theorem bytes_ofBytes {bs : Bytes} (h : bs.length = wordSize) : (ofBytes bs).bytes = bs := by
  have hlt : numberOfBytes bs < 2 ^ 256 := by
    rw [← weight_wordSize, ← h]
    exact numberOfBytes_lt bs
  rw [bytes_eq_bigEndian, ofBytes, toNat_ofNat, Nat.mod_eq_of_lt hlt, ← h, bigEndian_numberOfBytes]

theorem getLast?_bytes (w : Word) : w.bytes.getLast? = some (w.byte 0) := by
  rw [bytes, List.getLast?_map, List.getLast?_reverse]
  rfl

/-- The word in the slot of a string. -/
def ofString (s : Bytes) : Word :=
  if s.length < wordSize then
    ofBytes (s ++ List.replicate (wordSize - 1 - s.length) 0 ++ [(2 * s.length).toUInt8])
  else ofNat (2 * s.length + 1)

variable {s : Bytes}

theorem bytes_ofString (h : s.length < wordSize) :
    (ofString s).bytes =
      s ++ List.replicate (wordSize - 1 - s.length) 0 ++ [(2 * s.length).toUInt8] := by
  rw [ofString, if_pos h, bytes_ofBytes]
  simp only [List.length_append, List.length_replicate, List.length_singleton]
  omega

/-- The tag of a short string is twice its length. -/
theorem tag_ofString (h : s.length < wordSize) :
    ((ofString s).byte 0).toNat = 2 * s.length := by
  have hlast := (ofString s).getLast?_bytes
  rw [bytes_ofString h, List.getLast?_concat, Option.some.injEq] at hlast
  rw [wordSize] at h
  rw [← hlast, Nat.toUInt8_eq, UInt8.toNat_ofNat']
  omega

theorem firstBytes_ofString (h : s.length < wordSize) : (ofString s).firstBytes s.length = s := by
  rw [firstBytes, bytes_ofString h, List.append_assoc, List.take_left]

/-- The word of a long string is odd, so its tag is none of a short one. -/
theorem toNat_ofString (h : wordSize ≤ s.length) :
    (ofString s).toNat = (2 * s.length + 1) % 2 ^ 256 := by
  rw [ofString, if_neg (Nat.not_lt.mpr h), toNat_ofNat]

end Word

namespace ValueType

variable {s : Bytes} {w : Word} {declared : String}

/-- A word other than zero is read by its tag. -/
theorem shortString?_of_ne_zero (h : w ≠ .zero) :
    shortString? w =
      if (w.byte 0).toNat = 0 ∨ (w.byte 0).toNat % 2 = 1 ∨
          2 * (wordSize - 1) < (w.byte 0).toNat then none
      else some (w.firstBytes ((w.byte 0).toNat / 2)) := by
  have hzero : ¬ w.isZero = true := by
    rw [Word.isZero, beq_iff_eq]
    exact fun hnat => h (Word.ext hnat)
  exact if_neg hzero

/-- The tags that are no length of a string in the slot. -/
theorem shortString?_eq_none_iff (h : w ≠ .zero) :
    shortString? w = none ↔
      (w.byte 0).toNat = 0 ∨ (w.byte 0).toNat % 2 = 1 ∨
        2 * (wordSize - 1) < (w.byte 0).toNat := by
  rw [shortString?_of_ne_zero h]
  simp only [ite_eq_left_iff, reduceCtorEq, imp_false, Decidable.not_not]

/-- A string that is short is read back. -/
theorem shortString?_ofString (h : s.length < wordSize) : shortString? (.ofString s) = some s := by
  -- the tag of the empty string is none of a string, but its word is the word zero
  by_cases hempty : s.length = 0
  · obtain rfl := List.eq_nil_of_length_eq_zero hempty
    rfl
  · have htag := Word.tag_ofString h
    have hword : Word.ofString s ≠ .zero := by
      intro hzero
      rw [hzero, Word.toNat_byte, Word.toNat_zero] at htag
      omega
    have hlength :
        ¬ (2 * s.length = 0 ∨ 2 * s.length % 2 = 1 ∨ 2 * (wordSize - 1) < 2 * s.length) := by
      omega
    rw [shortString?_of_ne_zero hword, htag, if_neg hlength, Nat.mul_div_cancel_left _ (by decide),
      Word.firstBytes_ofString h]

/-- Of a long string no bytes are read. -/
theorem shortString?_ofString_long (h : wordSize ≤ s.length) :
    shortString? (.ofString s) = none := by
  have hodd : (Word.ofString s).toNat % 2 = 1 := by
    rw [Word.toNat_ofString h]
    omega
  have hzero : Word.ofString s ≠ .zero := by
    intro heq
    rw [heq, Word.toNat_zero] at hodd
    omega
  rw [shortString?_eq_none_iff hzero, Word.toNat_byte]
  omega

/-- Bytes that encode a text are shown as the text between quotes. -/
theorem showString_of_encode {cs : List Char} (h : Text.Utf8.encode cs = s) :
    showString (some s) = "\"" ++ .ofList cs ++ "\"" := by
  rw [showString, ← h, Text.Utf8.decode?_encode]

theorem showString_of_not_encode (h : ∀ cs, Text.Utf8.encode cs ≠ s) :
    showString (some s) = Hex.prefixed s := by
  cases hdecode : Text.Utf8.decode? s with
  | none => rw [showString, hdecode]
  | some cs => exact absurd (Text.Utf8.encode_of_decode? hdecode) (h cs)

/-- **What is shown of strings.** In the slot of a string of at most 31 bytes the string is shown,
between quotes if it is UTF-8 and as its bytes otherwise; a longer one is shown as the long string.
A word that is not zero is shown as that exactly when its tag is zero, odd or above 62. -/
theorem renderStorageValue_of_string (h : parse declared = .string) :
    (∀ s : Bytes, s.length < wordSize →
      (∀ cs, Text.Utf8.encode cs = s →
        renderStorageValue (.ofString s) declared = "\"" ++ .ofList cs ++ "\"") ∧
      ((∀ cs, Text.Utf8.encode cs ≠ s) →
        renderStorageValue (.ofString s) declared = Hex.prefixed s)) ∧
    (∀ s : Bytes, wordSize ≤ s.length →
      renderStorageValue (.ofString s) declared = longString) ∧
    ∀ w, w ≠ .zero →
      (renderStorageValue w declared = longString ↔
        (w.byte 0).toNat = 0 ∨ (w.byte 0).toNat % 2 = 1 ∨
          2 * (wordSize - 1) < (w.byte 0).toNat) := by
  have hrender (w : Word) : renderStorageValue w declared = showString (shortString? w) := by
    rw [renderStorageValue, h]
    exact renderString_eq w
  refine ⟨fun s hs => ?_, fun s hs => ?_, fun w hw => ?_⟩
  · rw [hrender, shortString?_ofString hs]
    exact ⟨fun cs => showString_of_encode, showString_of_not_encode⟩
  · rw [hrender, shortString?_ofString_long hs]
    rfl
  · rw [hrender, ← shortString?_eq_none_iff hw]
    show showString (shortString? w) = showString none ↔ _
    rw [showString_inj]

/-- A string of four characters, and a word that begins like the word of a string. -/
theorem renderStorageValue_of_string_spelled :
    parse "t_string_storage" = .string ∧
      renderStorageValue (.ofString [0x70, 0x6f, 0x73, 0x74]) "t_string_storage" = "\"post\"" ∧
      renderStorageValue (.ofBytes (0x70 :: List.replicate 30 0 ++ [0x40])) "t_string_storage" =
        longString := by
  have hparse : parse "t_string_storage" = .string := by decide +kernel
  obtain ⟨hshort, -, htag⟩ := renderStorageValue_of_string hparse
  refine ⟨hparse, ?_, ?_⟩
  · exact (hshort _ (by decide)).1 "post".toList (by decide)
  · exact (htag _ (by decide)).mpr (.inr (.inr (by decide)))

end ValueType

end TxForensics
