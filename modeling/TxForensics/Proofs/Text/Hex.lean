import Mathlib.Data.Bool.AllAny
import TxForensics.Hex
import TxForensics.Proofs.Text.Numeral
import TxForensics.Proofs.Text.Utf8

/-!
# What hexadecimal texts denote

`Hex.decode` reads the octets of a text, two at a time. Seen from the text, it accepts the digits
that `Hex.encode` writes, with letters of either case, behind one mark or none, and nothing else:

    decode_eq_ok_iff : decode cs = .ok bs ↔ Denotes ["0x", "0X"] cs bs

Octets and characters are not the same number as soon as a character is not ASCII. No octet of such
a character is a digit, though, so both ways of counting refuse the text.
-/

namespace TxForensics.Hex

/-! ## Characters of an encoding -/

theorem exists_digit_of_mem_encode {bs : List UInt8} {c : Char} (h : c ∈ encode bs) :
    ∃ n < 16, c = digit n := by
  obtain ⟨b, -, hc⟩ := List.mem_flatMap.mp h
  have hb := b.toNat_lt
  simp only [encodeByte, List.mem_cons, List.not_mem_nil, or_false] at hc
  rcases hc with rfl | rfl
  · exact ⟨b.toNat / 16, by omega, rfl⟩
  · exact ⟨b.toNat % 16, by omega, rfl⟩

theorem digit_isAscii : ∀ n < 16, (digit n).toNat < 0x80 := by decide

/-- Nothing is trimmed off an encoding. -/
theorem trim_encode (bs : List UInt8) : Text.trim (encode bs) = encode bs :=
  Text.trim_eq_self fun _ hc => not_isBlank_of_mem_encode hc

theorem trim_toList_prefixed (bs : List UInt8) :
    Text.trim (prefixed bs).toList = '0' :: 'x' :: encode bs := by
  rw [prefixed, String.toList_ofList]
  apply Text.trim_eq_self
  intro c hc
  rcases List.mem_cons.mp hc with rfl | hc
  · decide
  · rcases List.mem_cons.mp hc with rfl | hc
    · decide
    · exact not_isBlank_of_mem_encode hc

/-! ## Digits of either case -/

theorem digit?_ofNat_iff : ∀ k < 128, ∀ n < 16,
    Text.Numeral.digit? 16 (.ofNat k) = some n ↔ (Char.ofNat k).toLower = digit n := by
  decide +kernel

theorem digit?_of_not_ascii {c : Char} (h : 128 ≤ c.toNat) : Text.Numeral.digit? 16 c = none := by
  have hvalue : Text.Numeral.digitValue? c = none := by
    unfold Text.Numeral.digitValue?
    dsimp only
    rw [if_neg (by omega), if_neg (by omega), if_neg (by omega)]
  rw [Text.Numeral.digit?, hvalue, Option.filter_none]

theorem toLower_of_not_ascii {c : Char} (h : 128 ≤ c.toNat) : c.toLower = c := by
  have hval : 128 ≤ c.val.toNat := h
  unfold Char.toLower
  split
  · next hupper =>
    have hle : c.val.toNat ≤ 90 := UInt32.le_iff_toNat_le.mp hupper.2
    omega
  · rfl

/-- A digit of either case is one that becomes the digit written for its value. -/
theorem digit?_eq_some_iff {c : Char} {n : Nat} :
    Text.Numeral.digit? 16 c = some n ↔ n < 16 ∧ c.toLower = digit n := by
  -- the table decides all ASCII characters, and no other character is a digit
  by_cases hascii : c.toNat < 128
  · have hdigit : ∀ n < 16, Text.Numeral.digit? 16 c = some n ↔ c.toLower = digit n :=
      Text.Utf8.forall_ascii
        (p := fun c => ∀ n < 16, Text.Numeral.digit? 16 c = some n ↔ c.toLower = digit n)
        digit?_ofNat_iff c hascii
    constructor
    · intro h
      have hn : n < 16 := Text.Numeral.digit?_lt h
      exact ⟨hn, (hdigit n hn).mp h⟩
    · rintro ⟨hn, h⟩
      exact (hdigit n hn).mpr h
  · have hge : 128 ≤ c.toNat := Nat.le_of_not_lt hascii
    rw [digit?_of_not_ascii hge, toLower_of_not_ascii hge]
    constructor
    · intro h
      cases h
    · rintro ⟨hn, rfl⟩
      exact absurd (digit_isAscii n hn) hascii

/-- A hexadecimal digit of either case. -/
def IsDigit (c : Char) : Prop := c ∈ "0123456789abcdefABCDEF".toList

instance : DecidablePred IsDigit := fun c =>
  inferInstanceAs (Decidable (c ∈ "0123456789abcdefABCDEF".toList))

theorem isDigit_ofNat_iff : ∀ k < 128,
    IsDigit (.ofNat k) ↔ (Text.Numeral.digit? 16 (.ofNat k)).isSome := by
  decide +kernel

theorem isDigit_digit : ∀ n < 16, IsDigit (digit n) := by decide

theorem isDigit_of_mem_encode {bs : List UInt8} {c : Char} (h : c ∈ encode bs) : IsDigit c := by
  obtain ⟨n, hn, rfl⟩ := exists_digit_of_mem_encode h
  exact isDigit_digit n hn

theorem IsDigit.isAscii {c : Char} (h : IsDigit c) : c.toNat < 128 := by
  have hall : ∀ c ∈ "0123456789abcdefABCDEF".toList, c.toNat < 128 :=
    List.all_iff_forall_prop.mp (by decide)
  exact hall c h

theorem IsDigit.not_isBlank {c : Char} (h : IsDigit c) : Text.isBlank c = false := by
  have hall : ∀ c ∈ "0123456789abcdefABCDEF".toList, Text.isBlank c = false :=
    List.all_iff_forall_prop.mp (by decide)
  exact hall c h

/-- The digits of either case are the characters that have a value below sixteen. -/
theorem isDigit_iff {c : Char} : IsDigit c ↔ (Text.Numeral.digit? 16 c).isSome := by
  by_cases hascii : c.toNat < 128
  · exact Text.Utf8.forall_ascii (p := fun c => IsDigit c ↔ (Text.Numeral.digit? 16 c).isSome)
      isDigit_ofNat_iff c hascii
  · rw [digit?_of_not_ascii (Nat.le_of_not_lt hascii)]
    exact iff_of_false (fun h => hascii h.isAscii) Bool.false_ne_true

theorem IsDigit.exists_toLower {c : Char} (h : IsDigit c) : ∃ n < 16, c.toLower = digit n := by
  obtain ⟨n, hn⟩ := Option.isSome_iff_exists.mp (isDigit_iff.mp h)
  exact ⟨n, digit?_eq_some_iff.mp hn⟩

theorem isDigit_of_toLower {c : Char} {n : Nat} (hn : n < 16) (h : c.toLower = digit n) :
    IsDigit c := by
  rw [isDigit_iff, digit?_eq_some_iff.mpr ⟨hn, h⟩]
  rfl

/-! ## Octets and characters -/

def nibbles (b : UInt8) : List Nat := [b.toNat / 16, b.toNat % 16]

theorem encode_eq_map (bs : List UInt8) : encode bs = (bs.flatMap nibbles).map digit := by
  rw [encode, List.map_flatMap]
  rfl

theorem lt_of_mem_nibbles {bs : List UInt8} {n : Nat} (h : n ∈ bs.flatMap nibbles) : n < 16 := by
  obtain ⟨b, -, hn⟩ := List.mem_flatMap.mp h
  have hb := b.toNat_lt
  simp only [nibbles, List.mem_cons, List.not_mem_nil, or_false] at hn
  rcases hn with rfl | rfl
  · omega
  · omega

/-- Two digits make the byte that they are the digits of. -/
theorem byte_of_digits_iff {hi lo : Nat} {b : UInt8} (hhi : hi < 16) (hlo : lo < 16) :
    (hi * 16 + lo).toUInt8 = b ↔ hi = b.toNat / 16 ∧ lo = b.toNat % 16 := by
  have hb := b.toNat_lt
  have htoNat : (hi * 16 + lo).toUInt8.toNat = hi * 16 + lo := Nat.mod_eq_of_lt (by omega)
  rw [← UInt8.toNat_inj, htoNat]
  omega

/-- What there is to reading a pair of octets and more. -/
theorem decodePairs_cons_cons_eq_ok_iff {position : Nat} {a b : UInt8} {rest bs : List UInt8} :
    decodePairs position (a :: b :: rest) = .ok bs ↔
      ∃ hi lo tail, nibble? a = some hi ∧ nibble? b = some lo ∧
        decodePairs (position + 2) rest = .ok tail ∧ bs = (hi * 16 + lo).toUInt8 :: tail := by
  rw [decodePairs]
  cases ha : nibble? a with
  | none => simp
  | some hi =>
    cases hb : nibble? b with
    | none => simp
    | some lo =>
      cases hrest : decodePairs (position + 2) rest with
      | error e => simp
      | ok tail => simp [eq_comm]

/-- Pairs of octets are read when all of them are digits, and as the bytes with these digits. -/
theorem decodePairs_eq_ok_iff {position : Nat} {octets bs : List UInt8} :
    decodePairs position octets = .ok bs ↔
      octets.map nibble? = (bs.flatMap nibbles).map some := by
  -- over the bytes, each of which takes up the first two octets
  induction bs generalizing position octets with
  | nil =>
    match octets with
    | [] => simp [decodePairs]
    | [a] => simp [decodePairs]
    | a :: b :: rest => simp [decodePairs_cons_cons_eq_ok_iff]
  | cons byte bs ih =>
    match octets with
    | [] => simp [decodePairs, nibbles]
    | [a] => simp [decodePairs, nibbles]
    | a :: b :: rest =>
      rw [decodePairs_cons_cons_eq_ok_iff]
      simp only [List.map_cons, List.flatMap_cons, nibbles, List.cons_append, List.nil_append,
        List.cons.injEq]
      constructor
      · rintro ⟨hi, lo, tail, ha, hb, hrest, hbyte, rfl⟩
        have hdigits : hi = byte.toNat / 16 ∧ lo = byte.toNat % 16 :=
          (byte_of_digits_iff (Text.Numeral.digit?_lt ha) (Text.Numeral.digit?_lt hb)).mp hbyte.symm
        rw [ha, hb, hdigits.1, hdigits.2]
        exact ⟨rfl, rfl, ih.mp hrest⟩
      · rintro ⟨ha, hb, hrest⟩
        have hbyte : (byte.toNat / 16 * 16 + byte.toNat % 16).toUInt8 = byte :=
          (byte_of_digits_iff (Text.Numeral.digit?_lt ha) (Text.Numeral.digit?_lt hb)).mpr
            ⟨rfl, rfl⟩
        exact ⟨_, _, bs, ha, hb, ih.mpr hrest, hbyte.symm, rfl⟩

theorem nibble?_of_not_ascii {octet : UInt8} (h : 128 ≤ octet.toNat) : nibble? octet = none := by
  have hoctet := octet.toNat_lt
  apply digit?_of_not_ascii
  rw [Text.Utf8.toNat_ofNat_of_isValidChar (by omega)]
  exact h

theorem encodeChar_of_ascii {c : Char} (h : c.toNat < 128) :
    Text.Utf8.encodeChar c = [c.toNat.toUInt8] := by
  rw [Text.Utf8.encodeChar, if_pos h]

theorem nibble?_of_ascii {c : Char} (h : c.toNat < 128) :
    nibble? c.toNat.toUInt8 = Text.Numeral.digit? 16 c := by
  have htoNat : c.toNat.toUInt8.toNat = c.toNat := Text.Utf8.toNat_toUInt8 (by omega)
  rw [nibble?, htoNat, Char.ofNat_toNat]

/-- A character that is not ASCII begins with an octet that is not ASCII. -/
theorem encodeChar_of_not_ascii {c : Char} (h : 128 ≤ c.toNat) :
    ∃ octet tail, Text.Utf8.encodeChar c = octet :: tail ∧ 128 ≤ octet.toNat := by
  have hvalid : c.toNat < 0xD800 ∨ 0xDFFF < c.toNat ∧ c.toNat < 0x110000 := c.valid
  rw [Text.Utf8.encodeChar, if_neg (by omega)]
  split
  · refine ⟨_, _, rfl, ?_⟩
    rw [Text.Utf8.toNat_toUInt8 (by omega)]
    omega
  split
  · refine ⟨_, _, rfl, ?_⟩
    rw [Text.Utf8.toNat_toUInt8 (by omega)]
    omega
  · refine ⟨_, _, rfl, ?_⟩
    rw [Text.Utf8.toNat_toUInt8 (by omega)]
    omega

/-- The octets of a text are all digits exactly when its characters are, with the same values. -/
theorem map_nibble?_encode_iff {cs : List Char} {ns : List Nat} :
    (Text.Utf8.encode cs).map nibble? = ns.map some ↔
      cs.map (Text.Numeral.digit? 16) = ns.map some := by
  induction cs generalizing ns with
  | nil => rfl
  | cons c cs ih =>
    rw [Text.Utf8.encode, List.flatMap_cons, ← Text.Utf8.encode]
    -- an ASCII character is its one octet, and any other one spoils both sides
    by_cases hascii : c.toNat < 128
    · rw [encodeChar_of_ascii hascii]
      cases ns with
      | nil => simp
      | cons n ns => simp [nibble?_of_ascii hascii, ih]
    · have hge : 128 ≤ c.toNat := Nat.le_of_not_lt hascii
      obtain ⟨octet, tail, hencode, hoctet⟩ := encodeChar_of_not_ascii hge
      rw [hencode]
      cases ns with
      | nil => simp
      | cons n ns => simp [nibble?_of_not_ascii hoctet, digit?_of_not_ascii hge]

/-- Characters are digits of these values just when in small letters they are the digits written. -/
theorem map_digit?_eq_iff {cs : List Char} {ns : List Nat} (hns : ∀ n ∈ ns, n < 16) :
    cs.map (Text.Numeral.digit? 16) = ns.map some ↔ cs.map Char.toLower = ns.map digit := by
  induction cs generalizing ns with
  | nil =>
    cases ns <;> simp
  | cons c cs ih =>
    cases ns with
    | nil => simp
    | cons n ns =>
      have hn : n < 16 := hns n List.mem_cons_self
      have hrest := ih fun m hm => hns m (List.mem_cons_of_mem n hm)
      simp only [List.map_cons, List.cons.injEq]
      rw [digit?_eq_some_iff, hrest, and_iff_right hn]

/-- Digits are read as the bytes that are written with them, but for the case of letters. -/
theorem decodePairs_encode_eq_ok_iff {position : Nat} {cs : List Char} {bs : List UInt8} :
    decodePairs position (Text.Utf8.encode cs) = .ok bs ↔ cs.map Char.toLower = encode bs := by
  rw [decodePairs_eq_ok_iff, map_nibble?_encode_iff,
    map_digit?_eq_iff fun _ => lt_of_mem_nibbles, encode_eq_map]

/-- Digits in pairs spell bytes. -/
theorem exists_encode_of_digits {cs : List Char} {count : Nat} (heven : cs.length = 2 * count)
    (h : ∀ c ∈ cs, IsDigit c) : ∃ bs, bs.length = count ∧ cs.map Char.toLower = encode bs := by
  induction count generalizing cs with
  | zero =>
    obtain rfl : cs = [] := List.length_eq_zero_iff.mp heven
    exact ⟨[], rfl, rfl⟩
  | succ count ih =>
    match cs with
    | [] => simp at heven
    | [a] =>
      rw [List.length_singleton] at heven
      omega
    | a :: b :: rest =>
      simp only [List.mem_cons, forall_eq_or_imp] at h
      obtain ⟨ha, hb, hrest⟩ := h
      obtain ⟨hi, hhi, ha⟩ := ha.exists_toLower
      obtain ⟨lo, hlo, hb⟩ := hb.exists_toLower
      have heven : rest.length = 2 * count := by
        simp only [List.length_cons] at heven
        omega
      obtain ⟨bs, hlength, hbs⟩ := ih heven hrest
      have hbyte := (byte_of_digits_iff (b := (hi * 16 + lo).toUInt8) hhi hlo).mp rfl
      refine ⟨(hi * 16 + lo).toUInt8 :: bs, by rw [List.length_cons, hlength], ?_⟩
      rw [List.map_cons, List.map_cons, ha, hb, hbs, encode, encode, List.flatMap_cons, encodeByte,
        ← hbyte.1, ← hbyte.2]
      rfl

/-- What spells bytes has hexadecimal digits only. -/
theorem isDigit_of_encode {cs : List Char} {bs : List UInt8} (h : cs.map Char.toLower = encode bs) :
    ∀ c ∈ cs, IsDigit c := by
  intro c hc
  have hmem : c.toLower ∈ encode bs := h ▸ List.mem_map_of_mem hc
  obtain ⟨n, hn, hdigit⟩ := exists_digit_of_mem_encode hmem
  exact isDigit_of_toLower hn hdigit

/-! ## Texts with a mark -/

/-- The text has one of the marks or none before digits of either case that denote the bytes. -/
def Denotes (marks : List String) (cs : List Char) (bs : List UInt8) : Prop :=
  ∃ mark ∈ "" :: marks, ∃ digits, cs = mark.toList ++ digits ∧
    digits.map Char.toLower = encode bs

/-- What is stripped is one of the marks, or nothing. -/
theorem exists_mark_append_stripMark (cs : List Char) :
    ∃ mark ∈ ["", "0x", "0X"], cs = mark.toList ++ stripMark cs := by
  unfold stripMark
  split
  · next rest => exact ⟨"0x", by simp, rfl⟩
  · next rest => exact ⟨"0X", by simp, rfl⟩
  · exact ⟨"", by simp, rfl⟩

/-- Digits begin with no mark. -/
theorem stripMark_digits {cs : List Char} {bs : List UInt8} (h : cs.map Char.toLower = encode bs) :
    stripMark cs = cs := by
  have hdigit := isDigit_of_encode h
  unfold stripMark
  split
  · next rest => exact absurd (hdigit 'x' (by simp)) (by decide)
  · next rest => exact absurd (hdigit 'X' (by simp)) (by decide)
  · rfl

/-- Every byte takes up two octets. -/
theorem length_of_decodePairs {position : Nat} {octets bs : List UInt8}
    (h : decodePairs position octets = .ok bs) : octets.length = 2 * bs.length := by
  have hdigits := congrArg List.length (decodePairs_eq_ok_iff.mp h)
  rw [List.length_map, List.length_map] at hdigits
  rw [hdigits, ← length_encode, encode_eq_map, List.length_map]

/-- An odd number of octets is refused at once, and would be by the pairs. -/
theorem decode_eq_decodePairs {cs : List Char} {bs : List UInt8} :
    decode cs = .ok bs ↔ decodePairs 0 (Text.Utf8.encode (stripMark cs)) = .ok bs := by
  unfold decode
  dsimp only
  split
  · next hodd =>
    constructor
    · intro h
      cases h
    · intro h
      have hlength := length_of_decodePairs h
      omega
  · rfl

/-- A target of fixed size is filled by the digits of just as many bytes. -/
theorem decodeExactly_eq_ok_iff {size : Nat} {cs : List Char} {bs : List UInt8} :
    decodeExactly size cs = .ok bs ↔
      (stripMark cs).map Char.toLower = encode bs ∧ bs.length = size := by
  rw [← @decodePairs_encode_eq_ok_iff 0]
  unfold decodeExactly
  dsimp only
  split
  · next hodd =>
    constructor
    · intro h
      cases h
    · rintro ⟨h, -⟩
      have hlength := length_of_decodePairs h
      omega
  split
  · next hsize =>
    constructor
    · intro h
      cases h
    · rintro ⟨h, rfl⟩
      exact absurd (length_of_decodePairs h) hsize
  · next hsize =>
    constructor
    · intro h
      have hlength := length_of_decodePairs h
      exact ⟨h, by omega⟩
    · rintro ⟨h, -⟩
      exact h

/-- **What hexadecimal texts denote.** A text is read exactly when it consists of digits of either
case, two for each byte, behind the mark `0x` or `0X` or none, and as the bytes it denotes. -/
theorem decode_eq_ok_iff {cs : List Char} {bs : List UInt8} :
    decode cs = .ok bs ↔ Denotes ["0x", "0X"] cs bs := by
  rw [decode_eq_decodePairs, decodePairs_encode_eq_ok_iff]
  constructor
  · intro h
    obtain ⟨mark, hmark, hcs⟩ := exists_mark_append_stripMark cs
    exact ⟨mark, hmark, stripMark cs, hcs, h⟩
  · rintro ⟨mark, hmark, digits, rfl, h⟩
    simp only [List.mem_cons, List.not_mem_nil, or_false] at hmark
    rcases hmark with rfl | rfl | rfl
    · show (stripMark digits).map Char.toLower = encode bs
      rw [stripMark_digits h, h]
    · exact h
    · exact h

/-- Two digits behind the mark for every byte. -/
theorem Denotes.length_stripMark {cs : List Char} {bs : List UInt8}
    (h : Denotes ["0x", "0X"] cs bs) : (stripMark cs).length = 2 * bs.length := by
  have hdigits : (stripMark cs).map Char.toLower = encode bs :=
    decodePairs_encode_eq_ok_iff.mp (decode_eq_decodePairs.mp (decode_eq_ok_iff.mpr h))
  have hlength := congrArg List.length hdigits
  rwa [List.length_map, length_encode] at hlength

end TxForensics.Hex
