import TxForensics.Text.Blank
import TxForensics.Text.Numeral
import TxForensics.Text.Quoted
import TxForensics.Text.Utf8

/-!
# Hexadecimal bytes

Bytes written as two lower-case digits each, behind `0x`, and read with digits of either case and
with or without that mark.

Reading works on the octets of the text. An odd number of them is reported before anything else;
then the first octet that is no digit, at its position behind the mark. Reading takes back what
writing produced, with the mark and without it (`decode_prefixed`, `decode_encode`).
-/

namespace TxForensics

/-- Why a text is no hexadecimal form of bytes. -/
inductive HexError where
  /-- The digits do not come in pairs. -/
  | oddLength
  /-- The digits are not as many as the target holds. -/
  | wrongLength
  /-- The octet at `position` is no digit. -/
  | invalidDigit (octet : UInt8) (position : Nat)
deriving DecidableEq, Repr

/-- The wording of a hex error; the octet is shown as the character with its number. -/
def HexError.message : HexError → String
  | .oddLength => "odd number of digits"
  | .wrongLength => "invalid string length"
  | .invalidDigit octet position =>
    "invalid character " ++ Text.Quoted.char (.ofNat octet.toNat) ++ " at position " ++
      Text.Numeral.decimal position

namespace Hex

def digit (n : Nat) : Char := Nat.digitChar n

def encodeByte (b : UInt8) : List Char := [digit (b.toNat / 16), digit (b.toNat % 16)]

def encode (bs : List UInt8) : List Char := bs.flatMap encodeByte

def prefixed (bs : List UInt8) : String := .ofList ('0' :: 'x' :: encode bs)

def nibble? (octet : UInt8) : Option Nat := Text.Numeral.digit? 16 (.ofNat octet.toNat)

/-- Reads pairs of digits; `position` counts the octets already read. -/
def decodePairs (position : Nat) : List UInt8 → Except HexError (List UInt8)
  | [] => .ok []
  | [_] => .error .oddLength
  | a :: b :: rest =>
    match nibble? a, nibble? b with
    | none, _ => .error (.invalidDigit a position)
    | _, none => .error (.invalidDigit b (position + 1))
    | some hi, some lo =>
      match decodePairs (position + 2) rest with
      | .ok bs => .ok ((hi * 16 + lo).toUInt8 :: bs)
      | .error e => .error e

/-- The text behind one leading `0x` or `0X`. -/
def stripMark : List Char → List Char
  | '0' :: 'x' :: cs => cs
  | '0' :: 'X' :: cs => cs
  | cs => cs

def decode (cs : List Char) : Except HexError (List UInt8) :=
  let octets := Text.Utf8.encode (stripMark cs)
  if octets.length % 2 = 1 then .error .oddLength else decodePairs 0 octets

def decodeExactly (size : Nat) (cs : List Char) : Except HexError (List UInt8) :=
  let octets := Text.Utf8.encode (stripMark cs)
  if octets.length % 2 = 1 then .error .oddLength
  else if octets.length ≠ 2 * size then .error .wrongLength
  else decodePairs 0 octets

/-! ### Reading what was written -/

theorem encodeChar_digit :
    ∀ n < 16, Text.Utf8.encodeChar (digit n) = [(digit n).toNat.toUInt8] := by decide

theorem nibble?_digit : ∀ n < 16, nibble? (digit n).toNat.toUInt8 = some n := by decide

theorem digit_ne_mark : ∀ n < 16, digit n ≠ 'x' ∧ digit n ≠ 'X' := by decide

theorem stripMark_encode (bs : List UInt8) : stripMark (encode bs) = encode bs := by
  cases bs with
  | nil => rfl
  | cons b bs =>
    have h := digit_ne_mark (b.toNat % 16) (Nat.mod_lt _ (by decide))
    simp only [encode, List.flatMap_cons, encodeByte, List.cons_append, List.nil_append]
    unfold stripMark
    split <;> simp_all

/-- The octets of the digits of bytes. -/
theorem utf8_encode (bs : List UInt8) :
    Text.Utf8.encode (encode bs) = bs.flatMap fun b =>
      [(digit (b.toNat / 16)).toNat.toUInt8, (digit (b.toNat % 16)).toNat.toUInt8] := by
  induction bs with
  | nil => rfl
  | cons b bs ih =>
    have hi := encodeChar_digit (b.toNat / 16) (by have := b.toNat_lt; omega)
    have lo := encodeChar_digit (b.toNat % 16) (Nat.mod_lt _ (by decide))
    simp only [encode, encodeByte, Text.Utf8.encode, List.flatMap_cons, List.flatMap_append,
      List.flatMap_nil, List.append_nil] at ih ⊢
    rw [hi, lo, ih]
    rfl

theorem decodePairs_encode (position : Nat) (bs : List UInt8) :
    decodePairs position (Text.Utf8.encode (encode bs)) = .ok bs := by
  rw [utf8_encode]
  induction bs generalizing position with
  | nil => rfl
  | cons b bs ih =>
    have hi := nibble?_digit (b.toNat / 16) (by have := b.toNat_lt; omega)
    have lo := nibble?_digit (b.toNat % 16) (Nat.mod_lt _ (by decide))
    simp only [List.flatMap_cons, List.cons_append, List.nil_append, decodePairs, hi, lo, ih]
    rw [Nat.div_add_mod', Nat.toUInt8, UInt8.ofNat_toNat]

/-- Two octets for each byte. -/
theorem length_utf8_encode (bs : List UInt8) :
    (Text.Utf8.encode (encode bs)).length = 2 * bs.length := by
  rw [utf8_encode]
  induction bs with
  | nil => rfl
  | cons b bs ih => simp [ih]; omega

/-- Digits without a mark are read back. -/
theorem decode_encode (bs : List UInt8) : decode (encode bs) = .ok bs := by
  simp [decode, stripMark_encode, length_utf8_encode, decodePairs_encode]

/-- Digits behind a mark are read back. -/
theorem decode_prefixed (bs : List UInt8) : decode (prefixed bs).toList = .ok bs := by
  simp [decode, prefixed, stripMark, length_utf8_encode, decodePairs_encode]

theorem prefixed_inj {bs bs' : List UInt8} : prefixed bs = prefixed bs' ↔ bs = bs' := by
  constructor
  · intro h
    have hread := decode_prefixed bs
    rw [h, decode_prefixed] at hread
    exact (Except.ok.inj hread).symm
  · rintro rfl
    rfl

theorem isBlank_digit : ∀ n < 16, Text.isBlank (digit n) = false := by decide

theorem not_isBlank_of_mem_encode {bs : List UInt8} {c : Char} (h : c ∈ encode bs) :
    Text.isBlank c = false := by
  obtain ⟨b, _, hc⟩ := List.mem_flatMap.1 h
  simp only [encodeByte, List.mem_cons, List.not_mem_nil, or_false] at hc
  have := b.toNat_lt
  rcases hc with rfl | rfl
  · exact isBlank_digit _ (by omega)
  · exact isBlank_digit _ (by omega)

theorem length_encode (bs : List UInt8) : (encode bs).length = 2 * bs.length := by
  induction bs with
  | nil => rfl
  | cons b bs ih =>
    simp only [encode, List.flatMap_cons, List.length_append, List.length_cons] at ih ⊢
    rw [ih]
    simp only [encodeByte, List.length_cons, List.length_nil]
    omega

theorem decodeExactly_encode (bs : List UInt8) : decodeExactly bs.length (encode bs) = .ok bs := by
  simp [decodeExactly, stripMark_encode, length_utf8_encode, decodePairs_encode]

end Hex

end TxForensics
