import TxForensics.Proofs.Text.Hex
import TxForensics.Word

/-!
# What texts spell words

A text is read as a word in stages, each of which could refuse it or change what it says:

    text ──trim, strip──▶ digits ──fill up──▶ 64 characters ──decodeExactly──▶ 32 bytes ──▶ word

Filling up counts characters and the bound counts octets; the reader of bytes counts octets again,
and strips a mark of its own. Sixty-three characters that begin with `x` get a mark by being filled
up, but what is left behind it is two digits short. So the stages together accept the numerals of at
most 64 digits and read them as the numbers they denote (`spelled_words`).
-/

namespace TxForensics

namespace Hex

/-- Bytes denote the number that their digits denote. -/
theorem foldl_nibbles (bs : List UInt8) (n : Nat) :
    (bs.flatMap nibbles).foldl (fun value d => value * 16 + d) n =
      bs.foldl (fun value b => value * 256 + b.toNat) n := by
  induction bs generalizing n with
  | nil => rfl
  | cons b bs ih =>
    have hbyte : (n * 16 + b.toNat / 16) * 16 + b.toNat % 16 = n * 256 + b.toNat := by omega
    rw [List.flatMap_cons, List.foldl_append, List.foldl_cons, ← ih]
    simp only [nibbles, List.foldl_cons, List.foldl_nil, hbyte]

/-- Characters with values denote the number that the values make. -/
theorem valueFrom?_of_digits {cs : List Char} {ns : List Nat}
    (h : cs.map (Text.Numeral.digit? 16) = ns.map some) (value : Nat) :
    Text.Numeral.valueFrom? 16 value cs =
      some (ns.foldl (fun value d => value * 16 + d) value) := by
  induction cs generalizing ns value with
  | nil =>
    obtain rfl : ns = [] := by simpa using h.symm
    rfl
  | cons c cs ih =>
    cases ns with
    | nil => simp at h
    | cons n ns =>
      obtain ⟨hc, hcs⟩ : Text.Numeral.digit? 16 c = some n ∧
          cs.map (Text.Numeral.digit? 16) = ns.map some := by simpa using h
      rw [Text.Numeral.valueFrom?_cons, hc, Option.bind_some, ih hcs, List.foldl_cons]

/-- The digits of bytes, in either case, denote the number that the bytes denote. -/
theorem value?_of_encode {cs : List Char} {bs : List UInt8} (h : cs.map Char.toLower = encode bs) :
    Text.Numeral.value? 16 cs = some (Word.numberOfBytes bs) := by
  rw [encode_eq_map] at h
  have hdigits := (map_digit?_eq_iff fun _ => lt_of_mem_nibbles).mpr h
  show Text.Numeral.valueFrom? 16 0 cs = _
  rw [valueFrom?_of_digits hdigits, foldl_nibbles, Word.numberOfBytes]

/-- Just the texts of digits denote a number. -/
theorem isSome_value?_iff {cs : List Char} :
    (Text.Numeral.value? 16 cs).isSome ↔ ∀ c ∈ cs, IsDigit c := by
  show (Text.Numeral.valueFrom? 16 0 cs).isSome ↔ _
  simp only [Text.Numeral.isSome_valueFrom?_iff, isDigit_iff]

theorem isDigit_of_mem_padded {width n : Nat} {c : Char}
    (h : c ∈ Text.Numeral.padded 16 width n) : IsDigit c := by
  have hvalue : Text.Numeral.value? 16 (Text.Numeral.padded 16 width n) = some n :=
    Text.Numeral.value?_padded (by decide) (by decide) width n
  exact isSome_value?_iff.mp (hvalue ▸ rfl) c h

/-- Stripping takes off nothing or two characters. -/
theorem length_stripMark (cs : List Char) :
    stripMark cs = cs ∨ (stripMark cs).length + 2 = cs.length := by
  unfold stripMark
  split
  · exact .inr rfl
  · exact .inr rfl
  · exact .inl rfl

/-- In a text of the right length no mark is stripped: its digits would not suffice any more. -/
theorem decodeExactly_of_length {size : Nat} {cs : List Char} {bs : List UInt8}
    (hlength : cs.length = 2 * size) :
    decodeExactly size cs = .ok bs ↔ cs.map Char.toLower = encode bs := by
  rw [decodeExactly_eq_ok_iff]
  constructor
  · rintro ⟨h, rfl⟩
    have hdigits := congrArg List.length h
    rw [List.length_map, length_encode] at hdigits
    -- with a mark stripped there would be two digits less than the bytes have
    obtain hself | hshort := length_stripMark cs
    · rwa [hself] at h
    · omega
  · intro h
    have hdigits := congrArg List.length h
    rw [List.length_map, length_encode] at hdigits
    refine ⟨?_, by omega⟩
    rw [stripMark_digits h, h]

end Hex

namespace Word

variable {text : String} {w : Word}

/-- The digits of a text: what stands between blank characters, behind one mark or none. -/
def digitsOf (text : String) : List Char := Hex.stripMark (Text.trim text.toList)

def filled (ds : List Char) : List Char := List.replicate (2 * wordSize - ds.length) '0' ++ ds

theorem length_filled {ds : List Char} (h : ds.length ≤ 2 * wordSize) :
    (filled ds).length = 2 * wordSize := by
  rw [filled, List.length_append, List.length_replicate, Nat.sub_add_cancel h]

/-- Filling up does not change the number. -/
theorem value?_filled (ds : List Char) :
    Text.Numeral.value? 16 (filled ds) = Text.Numeral.value? 16 ds :=
  Text.Numeral.value?_replicate_append (by decide) _ ds

theorem isDigit_filled_iff {ds : List Char} :
    (∀ c ∈ filled ds, Hex.IsDigit c) ↔ ∀ c ∈ ds, Hex.IsDigit c := by
  rw [← Hex.isSome_value?_iff, value?_filled, Hex.isSome_value?_iff]

/-- More than 64 octets are too long for a word. -/
theorem parse_of_lt (h : 2 * wordSize < Text.Utf8.size (digitsOf text)) :
    parse text = .error (.tooLong text) := by
  rw [digitsOf] at h
  rw [parse, if_pos h]

/-- Up to 64 octets, the reader of bytes decides. -/
theorem parse_of_le (h : Text.Utf8.size (digitsOf text) ≤ 2 * wordSize) :
    parse text =
      ((Hex.decodeExactly wordSize (filled (digitsOf text))).map ofBytes).mapError
        (.notHex text) := by
  rw [digitsOf] at h
  rw [parse, if_neg (Nat.not_lt.mpr h), filled, digitsOf]
  cases Hex.decodeExactly wordSize _ <;> rfl

/-- Digits that fit a word spell the word of the number they denote. -/
theorem parse_of_digits (hlength : (digitsOf text).length ≤ 2 * wordSize)
    (hdigits : ∀ c ∈ digitsOf text, Hex.IsDigit c) :
    ∃ w, parse text = .ok w ∧ Text.Numeral.value? 16 (digitsOf text) = some w.toNat := by
  have hsize : Text.Utf8.size (digitsOf text) ≤ 2 * wordSize := by
    rw [Text.Utf8.size_of_ascii fun c hc => (hdigits c hc).isAscii]
    exact hlength
  obtain ⟨bs, hcount, hbs⟩ :=
    Hex.exists_encode_of_digits (length_filled hlength) (isDigit_filled_iff.mpr hdigits)
  have hread : Hex.decodeExactly wordSize (filled (digitsOf text)) = .ok bs :=
    (Hex.decodeExactly_of_length (length_filled hlength)).mpr hbs
  have hnumber : (ofBytes bs).toNat = numberOfBytes bs := by
    have hlt := numberOfBytes_lt bs
    rw [hcount] at hlt
    exact Nat.mod_eq_of_lt hlt
  refine ⟨ofBytes bs, ?_, ?_⟩
  · rw [parse_of_le hsize, hread]
    rfl
  · rw [← value?_filled, Hex.value?_of_encode hbs, hnumber]

/-- Nothing else spells a word. -/
theorem digits_of_parse (h : parse text = .ok w) :
    (digitsOf text).length ≤ 2 * wordSize ∧ ∀ c ∈ digitsOf text, Hex.IsDigit c := by
  -- a text of digits has as many octets as characters
  by_cases hsize : Text.Utf8.size (digitsOf text) ≤ 2 * wordSize
  · have hlength := Nat.le_trans (Text.Utf8.length_le_size (digitsOf text)) hsize
    refine ⟨hlength, ?_⟩
    rw [parse_of_le hsize] at h
    cases hread : Hex.decodeExactly wordSize (filled (digitsOf text)) with
    | error cause =>
      rw [hread] at h
      cases h
    | ok bs =>
      have hbs := (Hex.decodeExactly_of_length (length_filled hlength)).mp hread
      exact isDigit_filled_iff.mp (Hex.isDigit_of_encode hbs)
  · rw [parse_of_lt (Nat.lt_of_not_le hsize)] at h
    cases h

/-- A text spells a word just when it has at most 64 digits and nothing else. -/
theorem exists_parse_iff : (∃ w, parse text = .ok w) ↔
    (digitsOf text).length ≤ 2 * wordSize ∧ ∀ c ∈ digitsOf text, Hex.IsDigit c := by
  constructor
  · rintro ⟨w, h⟩
    exact digits_of_parse h
  · rintro ⟨hlength, hdigits⟩
    obtain ⟨w, h, -⟩ := parse_of_digits hlength hdigits
    exact ⟨w, h⟩

/-- The word has the number that the digits denote. -/
theorem value?_of_parse (h : parse text = .ok w) :
    Text.Numeral.value? 16 (digitsOf text) = some w.toNat := by
  obtain ⟨hlength, hdigits⟩ := digits_of_parse h
  obtain ⟨v, hv, hvalue⟩ := parse_of_digits hlength hdigits
  rw [h] at hv
  obtain rfl : w = v := Except.ok.inj hv
  exact hvalue

/-! ## Numbers that are written -/

theorem digitsOf_hex (width n : Nat) :
    digitsOf (Text.Numeral.hex width n) = Text.Numeral.padded 16 width n := by
  have htrim : Text.trim ('0' :: 'x' :: Text.Numeral.padded 16 width n) =
      '0' :: 'x' :: Text.Numeral.padded 16 width n := by
    apply Text.trim_eq_self
    intro c hc
    rw [List.mem_cons, List.mem_cons] at hc
    rcases hc with rfl | rfl | hc
    · decide
    · decide
    · exact (Hex.isDigit_of_mem_padded hc).not_isBlank
  rw [digitsOf, Text.Numeral.hex, String.toList_ofList, htrim]
  rfl

/-- A number that fits a word is read back from its hexadecimal numeral. -/
theorem parse_hexNumeral {width n : Nat} (hwidth : width ≤ 2 * wordSize) (hn : n < 2 ^ 256) :
    parse (Text.Numeral.hex width n) = .ok (ofNat n) := by
  have hlength : (digitsOf (Text.Numeral.hex width n)).length ≤ 2 * wordSize := by
    have hdigits : (Nat.toDigits 16 n).length ≤ 2 * wordSize :=
      (Nat.length_toDigits_le_iff (by decide) (by decide)).mpr hn
    rw [digitsOf_hex, Text.Numeral.padded, List.length_append, List.length_replicate]
    omega
  have hdigits : ∀ c ∈ digitsOf (Text.Numeral.hex width n), Hex.IsDigit c := by
    rw [digitsOf_hex]
    intro c hc
    exact Hex.isDigit_of_mem_padded hc
  obtain ⟨w, hw, hvalue⟩ := parse_of_digits hlength hdigits
  rw [digitsOf_hex, Text.Numeral.value?_padded (by decide) (by decide), Option.some.injEq] at hvalue
  rw [hw, hvalue, ofNat_toNat]

/-! ## Texts that are refused -/

/-- A text is too long by the octets of its digits, whatever these are. -/
theorem parse_eq_tooLong_iff :
    parse text = .error (.tooLong text) ↔ 2 * wordSize < Text.Utf8.size (digitsOf text) := by
  by_cases hsize : Text.Utf8.size (digitsOf text) ≤ 2 * wordSize
  · refine iff_of_false ?_ (Nat.not_lt.mpr hsize)
    rw [parse_of_le hsize]
    intro h
    cases hread : Hex.decodeExactly wordSize (filled (digitsOf text)) with
    | error cause =>
      rw [hread] at h
      cases h
    | ok bs =>
      rw [hread] at h
      cases h
  · have hlong := Nat.lt_of_not_le hsize
    exact iff_of_true (parse_of_lt hlong) hlong

/-- What is not too long and not of digits is no hex. -/
theorem parse_eq_notHex_iff :
    (∃ cause, parse text = .error (.notHex text cause)) ↔
      Text.Utf8.size (digitsOf text) ≤ 2 * wordSize ∧ ¬ ∀ c ∈ digitsOf text, Hex.IsDigit c := by
  by_cases hsize : Text.Utf8.size (digitsOf text) ≤ 2 * wordSize
  · have hlength := Nat.le_trans (Text.Utf8.length_le_size (digitsOf text)) hsize
    rw [and_iff_right hsize, ← and_iff_right hlength (b := ∀ c ∈ digitsOf text, Hex.IsDigit c),
      ← exists_parse_iff, parse_of_le hsize]
    cases Hex.decodeExactly wordSize (filled (digitsOf text)) with
    | error cause =>
      refine iff_of_true ⟨cause, rfl⟩ ?_
      rintro ⟨w, h⟩
      cases h
    | ok bs =>
      refine iff_of_false ?_ fun h => h ⟨ofBytes bs, rfl⟩
      rintro ⟨cause, h⟩
      cases h
  · refine iff_of_false ?_ fun h => hsize h.1
    rintro ⟨cause, h⟩
    rw [parse_of_lt (Nat.lt_of_not_le hsize)] at h
    cases h

/-- Filled up, this text begins with a mark. -/
example : parse (.ofList ('x' :: List.replicate 62 '0')) =
    .error (.notHex (.ofList ('x' :: List.replicate 62 '0')) .wrongLength) := by
  rfl

/-! ## Spellings of one word -/

/-- **What texts spell words.** The digits of a text are what is left without blank characters
around it and without one mark `0x` or `0X`. The text spells a word exactly when these are at most
64 hexadecimal digits of either case, and then the bytes of the word denote the number that the
digits denote, with none denoting 0. It is too long when they have more than 64 octets, and no hex
in every other case. So two texts spell one word just when they denote one number, and the full form
of a word spells it. -/
theorem spelled_words :
    (∀ text,
      ((∃ w, parse text = .ok w) ↔
        (digitsOf text).length ≤ 64 ∧ ∀ c ∈ digitsOf text, Hex.IsDigit c) ∧
      (∀ w, parse text = .ok w →
        Text.Numeral.value? 16 (digitsOf text) = some (numberOfBytes w.bytes)) ∧
      (parse text = .error (.tooLong text) ↔ 64 < Text.Utf8.size (digitsOf text)) ∧
      ((∃ cause, parse text = .error (.notHex text cause)) ↔
        Text.Utf8.size (digitsOf text) ≤ 64 ∧ ¬ ∀ c ∈ digitsOf text, Hex.IsDigit c)) ∧
    (∀ text text' v v', parse text = .ok v → parse text' = .ok v' →
      (v = v' ↔
        Text.Numeral.value? 16 (digitsOf text) = Text.Numeral.value? 16 (digitsOf text'))) ∧
    ∀ w : Word, parse w.hex = .ok w := by
  refine ⟨fun text => ⟨exists_parse_iff, ?_, parse_eq_tooLong_iff, parse_eq_notHex_iff⟩, ?_,
    parse_hex⟩
  · intro w h
    rw [numberOfBytes_bytes, value?_of_parse h]
  · intro text text' v v' hv hv'
    rw [value?_of_parse hv, value?_of_parse hv', Option.some.injEq, ext_iff]

/-- The mark, the case of letters and zeros in front make no difference. -/
theorem spelled_words_mark_and_case :
    ∃ w, parse " 0X1f\n" = .ok w ∧ parse "001F" = .ok w ∧ numberOfBytes w.bytes = 31 := by
  obtain ⟨hspells, hsame, -⟩ := spelled_words
  obtain ⟨haccepted, hvalue, -, -⟩ := hspells " 0X1f\n"
  have hdigits : ∀ c ∈ digitsOf " 0X1f\n", Hex.IsDigit c :=
    List.all_iff_forall_prop.mp (by decide +kernel)
  have hdigits' : ∀ c ∈ digitsOf "001F", Hex.IsDigit c :=
    List.all_iff_forall_prop.mp (by decide +kernel)
  obtain ⟨w, hw⟩ := haccepted.mpr ⟨by decide +kernel, hdigits⟩
  obtain ⟨v, hv⟩ := (hspells "001F").1.mpr ⟨by decide +kernel, hdigits'⟩
  obtain rfl : w = v := (hsame _ _ w v hw hv).mpr (by decide +kernel)
  have hnumber : Text.Numeral.value? 16 (digitsOf " 0X1f\n") = some 31 := by decide +kernel
  rw [hvalue w hw, Option.some.injEq] at hnumber
  exact ⟨w, hw, hv, hnumber⟩

end Word

end TxForensics
