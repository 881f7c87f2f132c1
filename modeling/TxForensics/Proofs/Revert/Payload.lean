import TxForensics.Proofs.Text.Hex
import TxForensics.Revert.Reason

/-!
# Reading a written payload

The payload of an error is laid out as

    selector │ offset 32 │ length │ content │ zeros up to a full word

and the reader follows it: the offset leads to the length, the length says how much of the rest is
content, and the zeros are not looked at. Each step is told by what stands at an offset (`NumberAt`,
`StandsAt`), so a text is read exactly where one is held (`errorText?_eq_some_iff`).

The content is the UTF-8 of the reason, and the reason comes back as it was
(`ofPayload_ofErrorText`). The length has one word, which is enough for every text of less than
`2 ^ 256` octets.
-/

namespace TxForensics

namespace Payload

/-! ## What stands at an offset -/

/-- A part of some data begins at an offset. -/
def StandsAt (data : Bytes) (offset : Nat) (part : Bytes) : Prop :=
  ∃ front rest, front.length = offset ∧ data = front ++ (part ++ rest)

/-- A whole word begins at an offset, and a number is written in it. -/
def NumberAt (data : Bytes) (offset number : Nat) : Prop :=
  ∃ word, word.length = wordSize ∧ Word.numberOfBytes word = number ∧ StandsAt data offset word

variable {data : Bytes} {offset : Nat}

theorem standsAt_iff {part : Bytes} : StandsAt data offset part ↔
    offset + part.length ≤ data.length ∧ (data.drop offset).take part.length = part := by
  constructor
  · rintro ⟨front, rest, rfl, rfl⟩
    refine ⟨by simp, ?_⟩
    rw [List.drop_left, List.take_left]
  · rintro ⟨hroom, hpart⟩
    -- what is in front of the offset and what is behind the part are cut out of the data
    refine ⟨data.take offset, (data.drop offset).drop part.length, ?_, ?_⟩
    · rw [List.length_take]
      omega
    · have hsplit := List.take_append_drop part.length (data.drop offset)
      rw [hpart] at hsplit
      rw [hsplit, List.take_append_drop]

/-- The number read at an offset is the one written there, in a whole word. -/
theorem wordAt?_eq_some_iff {number : Nat} :
    wordAt? data offset = some number ↔ NumberAt data offset number := by
  rw [wordAt?]
  constructor
  · intro h
    split at h
    · next hlength =>
      refine ⟨_, hlength, Option.some.inj h, standsAt_iff.mpr ⟨?_, by rw [hlength]⟩⟩
      rw [List.length_take, List.length_drop] at hlength
      rw [List.length_take, List.length_drop, hlength]
      have hpositive : 0 < wordSize := by decide
      omega
    · cases h
  · rintro ⟨word, hlength, hnumber, hstands⟩
    obtain ⟨-, hword⟩ := standsAt_iff.mp hstands
    rw [hlength] at hword
    rw [hword, if_pos hlength, hnumber]

/-- The bytes read at an offset stand there, as many as were asked for. -/
theorem bytesAt?_eq_some_iff {size : Nat} {content : Bytes} :
    bytesAt? data offset size = some content ↔
      content.length = size ∧ StandsAt data offset content := by
  rw [bytesAt?, standsAt_iff]
  constructor
  · intro h
    split at h
    · next hroom =>
      obtain rfl := Option.some.inj h
      have hlength : ((data.drop offset).take size).length = size := by
        rw [List.length_take, List.length_drop]
        omega
      rw [hlength]
      exact ⟨rfl, hroom, rfl⟩
    · cases h
  · rintro ⟨rfl, hroom, hcontent⟩
    rw [if_pos hroom, hcontent]

/-- The word behind `front` stands at the offset that `front` takes up. -/
theorem numberAt_append (front rest : Bytes) (w : Word) (width : front.length = offset) :
    NumberAt (front ++ (w.bytes ++ rest)) offset w.toNat :=
  ⟨w.bytes, w.length_bytes, Word.numberOfBytes_bytes w, front, rest, width, rfl⟩

/-! ## The payload of an error -/

/-- The arguments hold a text: their first word leads to the length of its content, and the content
stands behind the length. -/
def TextIn (arguments : Bytes) (message : String) : Prop :=
  ∃ offset content, NumberAt arguments 0 offset ∧ NumberAt arguments offset content.length ∧
    StandsAt arguments (offset + wordSize) content ∧
    message = .ofList (Text.Utf8.decodeLossy content)

/-- The reader follows the layout: an offset, a length, a content. -/
theorem errorText?_eq_some_iff {arguments : Bytes} {message : String} :
    errorText? arguments = some message ↔ TextIn arguments message := by
  simp only [TextIn, errorText?, Option.bind_eq_bind, Option.bind_eq_some_iff,
    wordAt?_eq_some_iff, bytesAt?_eq_some_iff, Option.pure_def, Option.some.injEq]
  constructor
  · rintro ⟨offset, hoffset, _, hsize, content, ⟨rfl, hcontent⟩, rfl⟩
    exact ⟨offset, content, hoffset, hsize, hcontent, rfl⟩
  · rintro ⟨offset, content, hoffset, hsize, hcontent, rfl⟩
    exact ⟨offset, hoffset, _, hsize, content, ⟨rfl, hcontent⟩, rfl⟩

/-- An offset and a length in front of a content lead to it, whatever follows. -/
theorem errorText?_append {offset length : Word} {content : Bytes}
    (hoffset : offset.toNat = wordSize) (hlength : length.toNat = content.length) (rest : Bytes) :
    errorText? (offset.bytes ++ (length.bytes ++ (content ++ rest))) =
      some (.ofList (Text.Utf8.decodeLossy content)) := by
  have hfirst : NumberAt (offset.bytes ++ (length.bytes ++ (content ++ rest))) 0 wordSize := by
    rw [← hoffset]
    exact numberAt_append [] _ offset rfl
  have hsecond := numberAt_append offset.bytes (content ++ rest) length offset.length_bytes
  rw [hlength] at hsecond
  have hfront : (offset.bytes ++ length.bytes).length = wordSize + wordSize := by
    rw [List.length_append, offset.length_bytes, length.length_bytes]
  refine errorText?_eq_some_iff.mpr ⟨wordSize, content, hfirst, hsecond, ?_, rfl⟩
  exact ⟨offset.bytes ++ length.bytes, rest, hfront, (List.append_assoc _ _ _).symm⟩

def errorArguments (reason : String) : Bytes :=
  let content := Text.Utf8.encode reason.toList
  (Word.ofNat wordSize).bytes ++ ((Word.ofNat content.length).bytes ++ (content ++
    List.replicate ((wordSize - content.length % wordSize) % wordSize) 0))

theorem ofErrorText_eq (reason : String) :
    ofErrorText reason = errorSelector ++ errorArguments reason := by
  simp only [ofErrorText, errorArguments, List.append_assoc]

/-- The arguments of an error hold its reason. -/
theorem errorText?_arguments {reason : String} (hsize : Text.Utf8.size reason.toList < 2 ^ 256) :
    errorText? (errorArguments reason) = some reason := by
  rw [← Text.Utf8.length_encode] at hsize
  have hlength : (Word.ofNat (Text.Utf8.encode reason.toList).length).toNat =
      (Text.Utf8.encode reason.toList).length := Nat.mod_eq_of_lt hsize
  rw [errorArguments, errorText?_append rfl hlength, Text.Utf8.decodeLossy_encode,
    String.ofList_toList]

end Payload

namespace RevertCause

variable {plainReason : Option String} {generic : String}

theorem ofPayload_errorSelector {arguments : Bytes} {message : String}
    (h : Payload.errorText? arguments = some message) :
    ofPayload (Payload.errorSelector ++ arguments) plainReason generic = .stated message := by
  have htake : (Payload.errorSelector ++ arguments).take Payload.selectorSize =
      Payload.errorSelector := rfl
  have hdrop : (Payload.errorSelector ++ arguments).drop Payload.selectorSize = arguments := rfl
  have hlong : ¬ (Payload.errorSelector ++ arguments).length < Payload.selectorSize := by
    rw [List.length_append]
    exact Nat.not_lt.mpr (Nat.le_add_right _ _)
  have hpanic : Payload.errorSelector ≠ Payload.panicSelector := by decide
  rw [ofPayload]
  simp only [htake, hdrop, if_neg hlong, if_neg hpanic, if_true, h]

/-- The payload of an error is classified as that error, whatever else is known. -/
theorem ofPayload_ofErrorText {reason : String} (hsize : Text.Utf8.size reason.toList < 2 ^ 256) :
    ofPayload (Payload.ofErrorText reason) plainReason generic = .stated reason := by
  rw [Payload.ofErrorText_eq]
  exact ofPayload_errorSelector (Payload.errorText?_arguments hsize)

/-! ## Payloads in hex -/

/-- A payload in hex is classified as the bytes it denotes. -/
theorem ofPayloadHex_of_denotes {payload : String} {bytes : Bytes}
    (h : Hex.Denotes ["0x", "0X"] (Text.trim payload.toList) bytes) :
    ofPayloadHex payload plainReason generic = ofPayload bytes plainReason generic := by
  rw [ofPayloadHex, Hex.decode_eq_ok_iff.mpr h]

/-- One that denotes none is classified as the empty payload. -/
theorem ofPayloadHex_of_not_denotes {payload : String}
    (h : ¬ ∃ bytes, Hex.Denotes ["0x", "0X"] (Text.trim payload.toList) bytes) :
    ofPayloadHex payload plainReason generic = ofPayload [] plainReason generic := by
  rw [ofPayloadHex]
  cases hdecode : Hex.decode (Text.trim payload.toList) with
  | ok bytes => exact absurd ⟨bytes, Hex.decode_eq_ok_iff.mp hdecode⟩ h
  | error e => rfl

theorem ofPayloadHex_prefixed (bytes : Bytes) :
    ofPayloadHex (Hex.prefixed bytes) plainReason generic =
      ofPayload bytes plainReason generic := by
  have hread := Hex.decode_prefixed bytes
  rw [Hex.prefixed, String.toList_ofList] at hread
  rw [ofPayloadHex, Hex.trim_toList_prefixed, hread]

end RevertCause

end TxForensics
