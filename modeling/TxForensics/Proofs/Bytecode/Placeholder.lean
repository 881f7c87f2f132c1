import TxForensics.Proofs.Bytecode.Object

/-!
# Objects with placeholders

A compiler writes an object in chunks: digits, and a placeholder of forty characters for the address
of each library. A placeholder begins with two underscores, and so does whatever follows the first
underscore of a longer run of them; only a scan that goes on behind the fortieth character meets the
next placeholder where it begins.

    605 __$aa…$__ __________…____ bf4    the object
    605 0000…0000 0000000000…0000 bf4    what is decoded

The chunks need not come in whole bytes, as long as the object does. Each digit keeps its place and
each character of a placeholder counts as a zero (`decode_of_chunks`).
-/

namespace TxForensics.Object

/-! ## Chunks -/

/-- A part of an object: digits, or a placeholder with what follows its two underscores. -/
inductive Chunk where
  | digits (text : List Char) (isDigit : ∀ c ∈ text, Hex.IsDigit c)
  | placeholder (name : List Char) (size : name.length + 2 = placeholderSize)
      (plain : ∀ c ∈ name, c.toNat < 0x80 ∧ Text.isBlank c = false)

namespace Chunk

def text : Chunk → List Char
  | digits text _ => text
  | placeholder name _ _ => '_' :: '_' :: name

/-- The digits of a chunk, with none where a placeholder stands. -/
def known : Chunk → List (Option Char)
  | digits text _ => text.map some
  | placeholder _ _ _ => List.replicate placeholderSize none

/-- A chunk has as many digits, known or not, as characters. -/
theorem length_known (chunk : Chunk) : chunk.known.length = chunk.text.length := by
  cases chunk with
  | digits text isDigit => exact List.length_map some
  | placeholder name size plain => rw [known, List.length_replicate, ← size]; rfl

theorem isPlain_text {chunk : Chunk} {c : Char} (h : c ∈ chunk.text) :
    c.toNat < 0x80 ∧ Text.isBlank c = false := by
  cases chunk with
  | digits text isDigit => exact ⟨(isDigit c h).isAscii, (isDigit c h).not_isBlank⟩
  | placeholder name size plain =>
    simp only [text, List.mem_cons] at h
    rcases h with rfl | rfl | h
    · decide
    · decide
    · exact plain c h

theorem isDigit_of_mem_known {chunk : Chunk} {c : Char} (h : some c ∈ chunk.known) :
    Hex.IsDigit c := by
  cases chunk with
  | digits text isDigit =>
    obtain ⟨d, hd, hc⟩ := List.mem_map.mp h
    obtain rfl : d = c := Option.some.inj hc
    exact isDigit d hd
  | placeholder name size plain => simp [known] at h

end Chunk

def written (chunks : List Chunk) : List Char := chunks.flatMap Chunk.text

def known (chunks : List Chunk) : List (Option Char) := chunks.flatMap Chunk.known

def orZero (digit : Option Char) : Char := digit.getD '0'

variable {chunks : List Chunk}

theorem length_known (chunks : List Chunk) : (known chunks).length = (written chunks).length := by
  rw [known, written, List.length_flatMap, List.length_flatMap]
  congr 2
  funext chunk
  exact chunk.length_known

theorem isDigit_orZero {c : Char} (h : c ∈ (known chunks).map orZero) : Hex.IsDigit c := by
  obtain ⟨digit, hdigit, rfl⟩ := List.mem_map.mp h
  cases digit with
  | none => exact (by decide : Hex.IsDigit '0')
  | some c =>
    obtain ⟨chunk, -, hc⟩ := List.mem_flatMap.mp hdigit
    exact Chunk.isDigit_of_mem_known hc

/-- Chunks have neither blanks nor characters outside ASCII. -/
theorem isPlain_written {c : Char} (h : c ∈ written chunks) :
    c.toNat < 0x80 ∧ Text.isBlank c = false := by
  obtain ⟨chunk, -, hc⟩ := List.mem_flatMap.mp h
  exact Chunk.isPlain_text hc

/-! ## Zeros for placeholders -/

/-- A whole placeholder is skipped, whatever its characters are. -/
theorem linked_append_of_placeholder {name : List Char} (size : name.length + 2 = placeholderSize)
    (rest : List Char) :
    linked ('_' :: '_' :: name ++ rest) = List.replicate placeholderSize '0' ++ linked rest := by
  have hsize : min placeholderSize ((name ++ rest).length + 2) = placeholderSize := by
    rw [List.length_append]
    omega
  have hrest : (name ++ rest).drop (placeholderSize - 2) = rest :=
    List.drop_left' (by omega)
  rw [List.cons_append, List.cons_append, linked, hsize, hrest]

/-- Zeros for the placeholders of an object are zeros for the digits that are not known. -/
theorem linked_written (chunks : List Chunk) :
    linked (written chunks) = (known chunks).map orZero := by
  -- over the chunks: the scan goes through digits one by one and skips a placeholder at once
  induction chunks with
  | nil => rw [written, List.flatMap_nil, linked]; rfl
  | cons chunk chunks ih =>
    rw [written, known, List.flatMap_cons, List.flatMap_cons, List.map_append, ← written, ← known,
      ← ih]
    cases chunk with
    | digits text isDigit =>
      have htext : (text.map some).map orZero = text := by
        rw [List.map_map]
        exact List.map_id text
      rw [Chunk.text, Chunk.known, linked_append_of_digits isDigit, htext]
    | placeholder name size plain =>
      rw [Chunk.text, Chunk.known, linked_append_of_placeholder size, List.map_replicate]
      rfl

/-- Chunks begin with no mark: behind a zero there is a digit or an underscore. -/
theorem stripMark_written (chunks : List Chunk) : stripMark (written chunks) = written chunks := by
  unfold stripMark
  split
  · next cs heq =>
    -- the letter of a mark would be a digit among zeros and digits
    have hx : 'x' ∈ (known chunks).map orZero := by
      rw [← linked_written, heq, linked, linked]
      · simp
      · simp
      · simp
    exact absurd (isDigit_orZero hx) (by decide)
  · rfl

/-! ## Decoding -/

/-- The digits of the byte `k` stand at the positions `2 * k` and `2 * k + 1`. -/
theorem getElem?_encode {code : Bytes} {k : Nat} {byte : UInt8} (h : code[k]? = some byte) :
    (Hex.encode code)[2 * k]? = some (Hex.digit (byte.toNat / 16)) ∧
      (Hex.encode code)[2 * k + 1]? = some (Hex.digit (byte.toNat % 16)) := by
  induction code generalizing k with
  | nil => simp at h
  | cons b code ih =>
    rw [Hex.encode, List.flatMap_cons, ← Hex.encode]
    cases k with
    | zero =>
      obtain rfl : b = byte := by simpa using h
      exact ⟨rfl, rfl⟩
    | succ k => exact ih h

/-- What stands around chunks does not count. -/
theorem stripMark_trim_written {front back : List Char} {mark : String}
    (hfront : ∀ c ∈ front, Text.isBlank c = true) (hback : ∀ c ∈ back, Text.isBlank c = true)
    (hmark : mark ∈ ["", "0x"]) :
    stripMark (Text.trim (front ++ (mark.toList ++ written chunks ++ back))) = written chunks := by
  simp only [List.mem_cons, List.not_mem_nil, or_false] at hmark
  have hplain : ∀ c ∈ mark.toList, Text.isBlank c = false := by
    rcases hmark with rfl | rfl
    · exact List.all_iff_forall_prop.mp (by decide)
    · exact List.all_iff_forall_prop.mp (by decide)
  have htrim : Text.trim (mark.toList ++ written chunks) = mark.toList ++ written chunks := by
    apply Text.trim_eq_self
    intro c hc
    obtain hc | hc := List.mem_append.mp hc
    · exact hplain c hc
    · exact (isPlain_written hc).2
  rw [Text.trim_append hfront hback, htrim]
  rcases hmark with rfl | rfl
  · exact stripMark_written chunks
  · rfl

theorem isAscii_written (chunks : List Chunk) : isAscii (written chunks) = true :=
  List.all_eq_true.mpr fun _ hc => decide_eq_true (isPlain_written hc).1

/-- Zeros for the placeholders leave digits, and these are bytes when there is an even number of
them. -/
theorem exists_decode_linked (heven : (written chunks).length % 2 = 0) :
    ∃ code, Hex.decode (linked (written chunks)) = .ok code ∧
      2 * code.length = (written chunks).length ∧
      Hex.encode code = (known chunks).map (fun digit => (digit.getD '0').toLower) := by
  have hlength : ((known chunks).map orZero).length = 2 * ((written chunks).length / 2) := by
    rw [List.length_map, length_known]
    omega
  obtain ⟨code, hcount, hcode⟩ :=
    Hex.exists_encode_of_digits hlength fun c => isDigit_orZero
  refine ⟨code, ?_, by omega, ?_⟩
  · rw [linked_written]
    exact Hex.decode_eq_ok_iff.mpr ⟨"", List.mem_cons_self, _, rfl, hcode⟩
  · rw [← hcode, List.map_map]
    rfl

/-- A byte is spelled by its own two digits. -/
theorem exists_byte_of_known {code : Bytes}
    (hcode : Hex.encode code = (known chunks).map (fun digit => (digit.getD '0').toLower))
    {k : Nat} {hi lo : Char} (hhi : (known chunks)[2 * k]? = some (some hi))
    (hlo : (known chunks)[2 * k + 1]? = some (some lo)) :
    ∃ byte, code[k]? = some byte ∧ Hex.encodeByte byte = [hi.toLower, lo.toLower] := by
  -- the byte exists because its second digit does
  have hk : k < code.length := by
    have hlength := congrArg List.length hcode
    rw [Hex.length_encode, List.length_map] at hlength
    obtain ⟨hlt, -⟩ := List.getElem?_eq_some_iff.mp hlo
    omega
  have hbyte := List.getElem?_eq_getElem hk
  obtain ⟨hfirst, hsecond⟩ := getElem?_encode hbyte
  rw [hcode, List.getElem?_map, hhi, Option.map_some] at hfirst
  rw [hcode, List.getElem?_map, hlo, Option.map_some] at hsecond
  refine ⟨code[k], hbyte, ?_⟩
  rw [Hex.encodeByte, ← Option.some.inj hfirst, ← Option.some.inj hsecond]
  rfl

/-- **Objects are decoded chunk by chunk.** An object of digits and placeholders in any order, of
even length, behind the mark `0x` or none and with blank characters around it, is decoded to half as
many bytes as it has characters. Their digits are those of the object, with a zero for each
character of a placeholder; so a byte that no placeholder touches is the byte that its own two
digits spell. -/
theorem decode_of_chunks {front back : List Char} {mark : String} {chunks : List Chunk}
    (hfront : ∀ c ∈ front, Text.isBlank c = true) (hback : ∀ c ∈ back, Text.isBlank c = true)
    (hmark : mark ∈ ["", "0x"]) (heven : (written chunks).length % 2 = 0) :
    ∃ code, decode (.ofList (front ++ (mark.toList ++ written chunks ++ back))) = .ok code ∧
      2 * code.length = (written chunks).length ∧
      Hex.encode code = (known chunks).map (fun digit => (digit.getD '0').toLower) ∧
      ∀ k hi lo, (known chunks)[2 * k]? = some (some hi) →
        (known chunks)[2 * k + 1]? = some (some lo) →
          ∃ byte, code[k]? = some byte ∧ Hex.encodeByte byte = [hi.toLower, lo.toLower] := by
  obtain ⟨code, hread, hlength, hcode⟩ := exists_decode_linked heven
  refine ⟨code, ?_, hlength, hcode, fun k hi lo => exists_byte_of_known hcode⟩
  rw [decode, String.toList_ofList, stripMark_trim_written hfront hback hmark,
    if_pos (isAscii_written chunks), hread]

def underscores : List Chunk :=
  have hplain : ∀ c ∈ List.replicate 38 '_', c.toNat < 0x80 ∧ Text.isBlank c = false :=
    List.all_iff_forall_prop.mp (by decide)
  [.digits "605".toList (List.all_iff_forall_prop.mp (by decide)),
    .placeholder (List.replicate 38 '_') (by decide) hplain,
    .placeholder (List.replicate 38 '_') (by decide) hplain,
    .digits "BF4".toList (List.all_iff_forall_prop.mp (by decide))]

theorem decode_of_chunks_underscores :
    (written underscores).length % 2 = 0 ∧
      ∃ code,
        decode (.ofList (['\n'] ++ ("0x".toList ++ written underscores ++ [' ']))) = .ok code ∧
        code.length = 43 ∧
        ∃ byte, code[42]? = some byte ∧ Hex.encodeByte byte = ['f', '4'] := by
  have heven : (written underscores).length % 2 = 0 := by decide +kernel
  have hlength : (written underscores).length = 86 := by decide +kernel
  have hfront : ∀ c ∈ ['\n'], Text.isBlank c = true := List.all_iff_forall_prop.mp (by decide)
  have hback : ∀ c ∈ [' '], Text.isBlank c = true := List.all_iff_forall_prop.mp (by decide)
  have hmark : "0x" ∈ ["", "0x"] := by decide
  obtain ⟨code, hread, hcount, -, hbytes⟩ := decode_of_chunks hfront hback hmark heven
  exact ⟨heven, code, hread, by omega,
    hbytes 42 'F' '4' (by decide +kernel) (by decide +kernel)⟩

end TxForensics.Object
