import TxForensics.Hex
import TxForensics.Text.Blank

/-!
# Words

The 32-byte words of the machine: stack items, storage slots and storage values.

A word is a number below `2 ^ 256`; its bytes, most significant first, are a view of that number
(`bytes`, `ofBytes`). Tracers write words in many spellings of one number: with or without `0x`,
short or filled up with zeros. `Word.parse` reads them all and `Word.hex` writes the full form, so
two spellings of one slot become one key; the full form spells the word itself (`parse_hex`).
-/

namespace TxForensics

def wordSize : Nat := 32

/-- A number below `2 ^ 256`. -/
structure Word where
  toNat : Nat
  lt : toNat < 2 ^ 256
deriving DecidableEq

inductive WordError where
  /-- The text has more digits than a word. -/
  | tooLong (text : String)
  /-- The text is no hexadecimal number. -/
  | notHex (text : String) (cause : HexError)
deriving DecidableEq, Repr

def WordError.message : WordError → String
  | .tooLong text => "word `" ++ text ++ "` is longer than 32 bytes"
  | .notHex text cause => "word `" ++ text ++ "` is not valid hex: " ++ cause.message

namespace Word

theorem ext {v w : Word} (h : v.toNat = w.toNat) : v = w := by
  cases v; cases w; simp_all

theorem ext_iff {v w : Word} : v = w ↔ v.toNat = w.toNat := ⟨fun h => h ▸ rfl, ext⟩

/-- The word of a number, as far as it fits. -/
def ofNat (n : Nat) : Word := ⟨n % 2 ^ 256, Nat.mod_lt _ (by decide)⟩

def zero : Word := ofNat 0

instance : Inhabited Word := ⟨zero⟩

@[simp] theorem toNat_ofNat (n : Nat) : (ofNat n).toNat = n % 2 ^ 256 := rfl

@[simp] theorem toNat_zero : zero.toNat = 0 := rfl

@[simp] theorem ofNat_toNat (w : Word) : ofNat w.toNat = w := ext (Nat.mod_eq_of_lt w.lt)

def isZero (w : Word) : Bool := w.toNat == 0

/-! ### Bytes -/

/-- The byte at `place`, counted from the least significant end. -/
def byte (w : Word) (place : Nat) : UInt8 := (w.toNat / 256 ^ place).toUInt8

/-- The bytes, most significant first. -/
def bytes (w : Word) : List UInt8 := (List.range wordSize).reverse.map w.byte

/-- The number that bytes denote, most significant first. -/
def numberOfBytes (bs : List UInt8) : Nat := bs.foldl (fun n b => n * 256 + b.toNat) 0

/-- The word of at most 32 bytes, most significant first. -/
def ofBytes (bs : List UInt8) : Word := ofNat (numberOfBytes bs)

@[simp] theorem length_bytes (w : Word) : w.bytes.length = wordSize := by simp [bytes]

theorem foldl_bytes (bs : List UInt8) (n : Nat) :
    bs.foldl (fun n b => n * 256 + b.toNat) n = n * 256 ^ bs.length + numberOfBytes bs := by
  induction bs generalizing n with
  | nil => simp [numberOfBytes]
  | cons b bs ih =>
    simp only [numberOfBytes, List.foldl_cons, List.length_cons, Nat.zero_mul, Nat.zero_add] at ih ⊢
    rw [ih, ih b.toNat, Nat.pow_succ, Nat.add_mul, Nat.mul_assoc, Nat.mul_comm 256, Nat.add_assoc]

theorem numberOfBytes_cons (b : UInt8) (bs : List UInt8) :
    numberOfBytes (b :: bs) = b.toNat * 256 ^ bs.length + numberOfBytes bs := by
  rw [numberOfBytes, List.foldl_cons, foldl_bytes, Nat.zero_mul, Nat.zero_add]

theorem numberOfBytes_lt (bs : List UInt8) : numberOfBytes bs < 256 ^ bs.length := by
  induction bs with
  | nil => decide
  | cons b bs ih =>
    have hb : b.toNat < 256 := b.toNat_lt
    have : b.toNat * 256 ^ bs.length ≤ 255 * 256 ^ bs.length := Nat.mul_le_mul_right _ (by omega)
    rw [numberOfBytes_cons, List.length_cons, Nat.pow_succ]
    omega

theorem toNat_byte (w : Word) (place : Nat) : (w.byte place).toNat = w.toNat / 256 ^ place % 256 :=
  rfl

/-- The lowest bytes of a word denote what the number leaves modulo their weight. -/
theorem numberOfBytes_lowest (w : Word) (count : Nat) :
    numberOfBytes ((List.range count).reverse.map w.byte) = w.toNat % 256 ^ count := by
  induction count with
  | zero => simp [numberOfBytes, Nat.mod_one]
  | succ count ih =>
    rw [List.range_succ, List.reverse_append, List.reverse_singleton, List.singleton_append,
      List.map_cons, numberOfBytes_cons, ih, toNat_byte]
    simp only [List.length_map, List.length_reverse, List.length_range]
    rw [Nat.pow_succ, Nat.mod_mul, Nat.mul_comm, Nat.add_comm]

/-- All bytes of a word denote its number. -/
theorem numberOfBytes_bytes (w : Word) : numberOfBytes w.bytes = w.toNat := by
  rw [bytes, numberOfBytes_lowest]
  exact Nat.mod_eq_of_lt w.lt

@[simp] theorem ofBytes_bytes (w : Word) : ofBytes w.bytes = w := by
  rw [ofBytes, numberOfBytes_bytes, ofNat_toNat]

def lastBytes (w : Word) (count : Nat) : List UInt8 := w.bytes.drop (wordSize - count)

def firstBytes (w : Word) (count : Nat) : List UInt8 := w.bytes.take count

/-! ### Spellings -/

/-- The full form: `0x` and 64 lower-case digits. -/
def hex (w : Word) : String := Hex.prefixed w.bytes

/-- The word that a text spells. Blank characters around it and a mark in front do not count, and
missing leading digits are zeros. -/
def parse (text : String) : Except WordError Word :=
  let ds := Hex.stripMark (Text.trim text.toList)
  if Text.Utf8.size ds > 2 * wordSize then .error (.tooLong text)
  else
    match Hex.decodeExactly wordSize (List.replicate (2 * wordSize - ds.length) '0' ++ ds) with
    | .ok bs => .ok (ofBytes bs)
    | .error cause => .error (.notHex text cause)

/-- The full form of a word spells it. -/
theorem parse_hex (w : Word) : parse w.hex = .ok w := by
  have htrim : Text.trim w.hex.toList = w.hex.toList := by
    apply Text.trim_eq_self
    intro c hc
    simp only [hex, Hex.prefixed, String.toList_ofList, List.mem_cons] at hc
    rcases hc with rfl | rfl | hc
    · decide
    · decide
    · exact Hex.not_isBlank_of_mem_encode hc
  have hdigits : Hex.stripMark w.hex.toList = Hex.encode w.bytes := by
    simp [hex, Hex.prefixed, Hex.stripMark]
  have hsize : Text.Utf8.size (Hex.encode w.bytes) = 2 * wordSize := by
    rw [← Text.Utf8.length_encode, Hex.length_utf8_encode, length_bytes]
  have hread := Hex.decodeExactly_encode w.bytes
  rw [length_bytes] at hread
  simp [parse, htrim, hdigits, hsize, Hex.length_encode, hread]

theorem hex_inj {v w : Word} : v.hex = w.hex ↔ v = w := by
  constructor
  · intro h
    have hread := parse_hex v
    rw [h, parse_hex] at hread
    exact (Except.ok.inj hread).symm
  · rintro rfl
    rfl

end Word

end TxForensics
