import TxForensics.Bytecode.Object
import TxForensics.Proofs.Text.Hex
import TxForensics.Proofs.Text.Trim

/-!
# Objects written in hex

The digits of bytes hold no placeholder, and they begin with no mark of their own. So an object that
is written as the digits of a code, behind a mark or not, denotes that code (`Spells.decode_eq`).
-/

namespace TxForensics

namespace Object

/-! ## Texts of digits -/

variable {text : List Char}

/-- Digits stay as they are, whatever follows them. -/
theorem linked_append_of_digits (h : ∀ c ∈ text, Hex.IsDigit c) (rest : List Char) :
    linked (text ++ rest) = text ++ linked rest := by
  induction text with
  | nil => rfl
  | cons c text ih =>
    have hc : c ≠ '_' := fun heq => absurd (h c List.mem_cons_self) (heq ▸ by decide)
    rw [List.cons_append, linked, ih fun d hd => h d (List.mem_cons_of_mem c hd),
      List.cons_append]
    exact fun _ heq => absurd heq hc

theorem linked_digits (h : ∀ c ∈ text, Hex.IsDigit c) : linked text = text := by
  have happend := linked_append_of_digits h []
  rwa [List.append_nil, linked, List.append_nil] at happend

/-- No digit is the letter of a mark. -/
theorem stripMark_digits (h : ∀ c ∈ text, Hex.IsDigit c) : stripMark text = text := by
  unfold stripMark
  split
  · next rest => exact absurd (h 'x' (by simp)) (by decide)
  · rfl

theorem isAscii_digits (h : ∀ c ∈ text, Hex.IsDigit c) : isAscii text = true :=
  List.all_eq_true.mpr fun c hc => decide_eq_true (h c hc).isAscii

theorem decode_digits (code : Bytes) :
    Hex.decode (if isAscii (Hex.encode code) then linked (Hex.encode code) else Hex.encode code) =
      .ok code := by
  have hdigits : ∀ c ∈ Hex.encode code, Hex.IsDigit c := fun _ => Hex.isDigit_of_mem_encode
  rw [if_pos (isAscii_digits hdigits), linked_digits hdigits, Hex.decode_encode]

/-! ## The digits of a code -/

theorem decode_encode (code : Bytes) : decode (.ofList (Hex.encode code)) = .ok code := by
  rw [decode, String.toList_ofList, Hex.trim_encode,
    stripMark_digits fun _ => Hex.isDigit_of_mem_encode]
  exact decode_digits code

theorem decode_prefixed (code : Bytes) : decode (Hex.prefixed code) = .ok code := by
  rw [decode, Hex.trim_toList_prefixed, stripMark]
  exact decode_digits code

theorem decode_trimmed (object : String) : decode (Text.trimmed object) = decode object := by
  rw [decode, decode, Text.trimmed, String.toList_ofList, Text.trim_trim]

/-- The object is the hex of the code, behind a mark or not. -/
def Spells (object : String) (code : Bytes) : Prop :=
  object = .ofList (Hex.encode code) ∨ object = Hex.prefixed code

variable {object : String} {code : Bytes}

/-- With a mark or without, the hex of a code denotes this code. -/
theorem Spells.decode_eq (h : Spells object code) : decode object = .ok code := by
  rcases h with rfl | rfl
  · exact decode_encode code
  · exact decode_prefixed code

theorem Spells.trimmed_eq (h : Spells object code) : Text.trimmed object = object := by
  rcases h with rfl | rfl
  · rw [Text.trimmed, String.toList_ofList, Hex.trim_encode]
  · rw [Text.trimmed, Hex.trim_toList_prefixed, Hex.prefixed]

end Object

end TxForensics
