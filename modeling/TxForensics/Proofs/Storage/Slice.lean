import TxForensics.Storage.Annotation

/-!
# Parts of words

A word is fixed by its bytes, and so is each part of it: `slice offset size` is fixed by the bytes
from `offset` up to `offset + size`, and the lowest `count` bytes by the number modulo their weight.
-/

namespace TxForensics.Word

theorem byte_eq_iff {v w : Word} {k : Nat} :
    v.byte k = w.byte k ↔ v.toNat / 256 ^ k % 256 = w.toNat / 256 ^ k % 256 := by
  rw [← UInt8.toNat_inj, toNat_byte, toNat_byte]

/-- A byte below `count` places is one of the number modulo the weight of these places. -/
theorem mod_div_mod {n count k : Nat} (h : k < count) :
    n % 256 ^ count / 256 ^ k % 256 = n / 256 ^ k % 256 := by
  obtain ⟨more, rfl⟩ : ∃ more, count = k + (1 + more) := ⟨count - k - 1, by omega⟩
  rw [Nat.pow_add, Nat.mod_mul_right_div_self, Nat.pow_add, Nat.pow_one, Nat.mod_mul_right_mod]

/-- Numbers agree in their lowest bytes exactly when they agree modulo the weight of these. -/
theorem mod_pow_eq_iff {v w : Word} {count : Nat} :
    v.toNat % 256 ^ count = w.toNat % 256 ^ count ↔ ∀ k < count, v.byte k = w.byte k := by
  constructor
  · intro h k hk
    rw [byte_eq_iff, ← mod_div_mod hk, h, mod_div_mod hk]
  · intro h
    rw [← numberOfBytes_lowest, ← numberOfBytes_lowest]
    refine congrArg numberOfBytes (List.map_congr_left fun k hk => h k ?_)
    exact List.mem_range.mp (List.mem_reverse.mp hk)

theorem weight_wordSize : 256 ^ wordSize = 2 ^ 256 := by
  rw [wordSize, ← Nat.pow_mul 2 8 32]

/-- A word is fixed by its bytes. -/
theorem ext_byte {v w : Word} (h : ∀ k < wordSize, v.byte k = w.byte k) : v = w := by
  have hmod := mod_pow_eq_iff.mpr h
  rw [weight_wordSize, Nat.mod_eq_of_lt v.lt, Nat.mod_eq_of_lt w.lt] at hmod
  exact ext hmod

/-! ## Slices -/

variable {v w : Word} {offset size : Nat}

/-- A slice is the number of the word, moved down and cut off. -/
theorem toNat_slice (h : size ≤ wordSize) :
    (w.slice offset size).toNat = w.toNat / 256 ^ offset % 256 ^ size := by
  have hfits : w.toNat / 256 ^ offset % 256 ^ size < 2 ^ 256 := by
    rw [← weight_wordSize]
    exact Nat.lt_of_lt_of_le (Nat.mod_lt _ (Nat.pow_pos (by decide)))
      (Nat.pow_le_pow_right (by decide) h)
  rw [slice, toNat_ofNat, Nat.shiftRight_eq_div_pow, Nat.pow_mul]
  exact Nat.mod_eq_of_lt hfits

/-- The bytes of a slice are those of the word from the offset on, and zero beyond its size. -/
theorem byte_slice (h : size ≤ wordSize) (k : Nat) :
    (w.slice offset size).byte k = if k < size then w.byte (offset + k) else 0 := by
  rw [← UInt8.toNat_inj, toNat_byte, toNat_slice h]
  split
  · next hk => rw [mod_div_mod hk, toNat_byte, Nat.div_div_eq_div_mul, ← Nat.pow_add]
  · next hk =>
    rw [Nat.div_eq_of_lt]
    · rfl
    · exact Nat.lt_of_lt_of_le (Nat.mod_lt _ (Nat.pow_pos (by decide)))
        (Nat.pow_le_pow_right (by decide) (by omega))

/-- Two slices are the same exactly when the words agree in the bytes of the range. -/
theorem slice_eq_iff (h : size ≤ wordSize) :
    v.slice offset size = w.slice offset size ↔
      ∀ place, offset ≤ place → place < offset + size → v.byte place = w.byte place := by
  constructor
  · intro heq place hle hlt
    -- the place in the word is the same place in the slice, counted from the offset
    have hbyte := congrArg (fun u : Word => u.byte (place - offset)) heq
    simp only [byte_slice h] at hbyte
    rwa [if_pos (by omega), if_pos (by omega), Nat.add_sub_cancel' hle] at hbyte
  · intro hbytes
    refine ext_byte fun k _ => ?_
    rw [byte_slice h, byte_slice h]
    split
    · next hk => exact hbytes (offset + k) (by omega) (by omega)
    · rfl

/-! ## The lowest bytes -/

theorem byte_of_wordSize_le {k : Nat} (h : wordSize ≤ k) : w.byte k = 0 := by
  have hlt : w.toNat < 256 ^ k := by
    refine Nat.lt_of_lt_of_le w.lt ?_
    rw [← weight_wordSize]
    exact Nat.pow_le_pow_right (by decide) h
  rw [← UInt8.toNat_inj, toNat_byte, Nat.div_eq_of_lt hlt]
  rfl

/-- The lowest bytes are those at the places, the lowest place last. -/
theorem lastBytes_eq (w : Word) (count : Nat) :
    w.lastBytes count = (List.range (min count wordSize)).reverse.map w.byte := by
  have hcount : wordSize - (wordSize - count) = min count wordSize := by omega
  rw [lastBytes, bytes, ← List.map_drop, List.drop_reverse, List.length_range, List.take_range,
    hcount]
  congr 3
  omega

/-- The last bytes of two words are the same exactly when the words agree in the lowest places. -/
theorem lastBytes_eq_iff {count : Nat} :
    v.lastBytes count = w.lastBytes count ↔ ∀ place < count, v.byte place = w.byte place := by
  rw [lastBytes_eq, lastBytes_eq, List.map_inj_left]
  simp only [List.mem_reverse, List.mem_range]
  constructor
  · intro h place hplace
    by_cases hlt : place < wordSize
    · exact h place (by omega)
    · rw [byte_of_wordSize_le (by omega), byte_of_wordSize_le (by omega)]
  · intro h place hplace
    exact h place (by omega)

end TxForensics.Word
