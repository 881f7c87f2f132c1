import Mathlib.Data.Bool.AllAny
import Mathlib.Data.List.Nodup
import TxForensics.Proofs.Bytecode.Partition
import TxForensics.Proofs.Text.Spelling
import TxForensics.Text.Split

/-!
# Printed listings

A line of a listing has fields between blanks: the pc with a colon, the name of the opcode, and the
immediate if there is one.

    0x0000: PUSH2 0x0102        ["0x0000:", "PUSH2", "0x0102"]
    0x0003: UNKNOWN(0x0c)       ["0x0003:", "UNKNOWN(0x0c)"]

No field has a blank in it (`splitOn_text`), and each tells what it was printed for: numerals of any
width their number, names their opcode, digits their bytes. So a line tells its instruction
(`text_injective`), and the lines of a listing tell the code.
-/

namespace TxForensics

open Text.Numeral (hex padded)

namespace Text.Numeral

theorem not_mem_hex {c : Char} (hx : c ≠ 'x') (hdigit : ¬ Hex.IsDigit c) (width n : Nat) :
    c ∉ (hex width n).toList := by
  have hzero : c ≠ '0' := by
    rintro rfl
    exact hdigit (by decide)
  rw [hex, String.toList_ofList, List.mem_cons, List.mem_cons]
  rintro (rfl | rfl | hmem)
  · exact hzero rfl
  · exact hx rfl
  · exact hdigit (Hex.isDigit_of_mem_padded hmem)

end Text.Numeral

/-! ## Names of opcodes -/

namespace Opcode

variable {a b op : UInt8} {name : String}

theorem nodup_mnemonics : (table.map Prod.snd).Nodup := by
  -- numbers are compared in fewer steps than texts
  have hnumbers : ((table.map Prod.snd).map fun name =>
      name.toList.foldl (fun n c => n * 128 + c.toNat) 0).Nodup := by decide +kernel
  exact hnumbers.of_map _

theorem mem_table_of_mnemonic? (h : mnemonic? op = some name) : (op, name) ∈ table := by
  obtain ⟨before, after, htable, -⟩ := List.lookup_eq_some_iff.mp h
  rw [htable]
  exact List.mem_append_right before List.mem_cons_self

/-- Different defined opcodes have different mnemonics. -/
theorem mnemonic?_inj (ha : mnemonic? a = some name) (hb : mnemonic? b = some name) : a = b := by
  have hpair : (a, name) = (b, name) :=
    List.inj_on_of_nodup_map nodup_mnemonics (mem_table_of_mnemonic? ha)
      (mem_table_of_mnemonic? hb) rfl
  exact (Prod.mk.inj hpair).1

/-- A mnemonic has neither blanks nor parentheses. -/
theorem isPlain_mnemonic (h : mnemonic? op = some name) :
    ' ' ∉ name.toList ∧ '(' ∉ name.toList := by
  have hall : ∀ entry ∈ table, ' ' ∉ entry.2.toList ∧ '(' ∉ entry.2.toList :=
    List.all_iff_forall_prop.mp (by decide +kernel)
  exact hall _ (mem_table_of_mnemonic? h)

/-- The name that stands in a listing for an opcode. -/
def shown (op : UInt8) : String :=
  match mnemonic? op with
  | some name => name
  | none => "UNKNOWN(" ++ hex 2 op.toNat ++ ")"

theorem shown_of_mnemonic? (h : mnemonic? op = some name) : shown op = name := by
  rw [shown, h]

theorem toList_shown_of_undefined (h : mnemonic? op = none) :
    (shown op).toList = "UNKNOWN".toList ++ '(' :: ((hex 2 op.toNat).toList ++ [')']) := by
  rw [shown, h, String.toList_append, String.toList_append, List.append_assoc]
  rfl

theorem blank_not_mem_shown (op : UInt8) : ' ' ∉ (shown op).toList := by
  cases h : mnemonic? op with
  | some name =>
    rw [shown_of_mnemonic? h]
    exact (isPlain_mnemonic h).1
  | none =>
    rw [toList_shown_of_undefined h]
    simp only [List.mem_append, List.mem_cons, List.not_mem_nil, or_false, not_or]
    exact ⟨by decide, by decide, Text.Numeral.not_mem_hex (by decide) (by decide) _ _, by decide⟩

/-- A parenthesis tells the name of an undefined opcode from a mnemonic. -/
theorem parenthesis_mem_shown_iff : '(' ∈ (shown op).toList ↔ mnemonic? op = none := by
  cases h : mnemonic? op with
  | some name =>
    rw [shown_of_mnemonic? h]
    exact iff_of_false (isPlain_mnemonic h).2 (Option.some_ne_none name)
  | none =>
    rw [toList_shown_of_undefined h]
    exact iff_of_true (List.mem_append_right _ List.mem_cons_self) rfl

/-- Different opcodes, defined or not, are shown by different names. -/
theorem shown_inj (h : shown a = shown b) : a = b := by
  have hdefined : mnemonic? a = none ↔ mnemonic? b = none := by
    rw [← parenthesis_mem_shown_iff, h, parenthesis_mem_shown_iff]
  cases ha : mnemonic? a with
  | some name =>
    cases hb : mnemonic? b with
    | some other =>
      rw [shown_of_mnemonic? ha, shown_of_mnemonic? hb] at h
      exact mnemonic?_inj ha (h ▸ hb)
    | none => simp [hdefined.mpr hb] at ha
  | none =>
    have hdigits := congrArg String.toList h
    rw [toList_shown_of_undefined ha, toList_shown_of_undefined (hdefined.mp ha)] at hdigits
    -- behind the common words there is the numeral of the opcode
    have htail := (List.cons.inj (List.append_cancel_left hdigits)).2
    have hnumeral := String.toList_injective (List.append_cancel_right htail)
    exact UInt8.toNat_inj.mp (Text.Numeral.hex_inj.mp hnumeral)

end Opcode

/-! ## Lines -/

namespace Instruction

variable {i j : Instruction}

def fields (i : Instruction) : List (List Char) :=
  ((hex 4 i.pc).toList ++ [':']) :: (Opcode.shown i.op).toList ::
    if i.immediate = [] then [] else [(Hex.prefixed i.immediate).toList]

theorem toList_text (i : Instruction) : i.text.toList = Text.joinWith ' ' i.fields := by
  have hline : (hex 4 i.pc ++ ": " ++ Opcode.shown i.op).toList =
      ((hex 4 i.pc).toList ++ [':']) ++ ' ' :: (Opcode.shown i.op).toList := by
    rw [String.toList_append, String.toList_append, List.append_assoc, List.append_assoc]
    rfl
  have htext : i.text = if i.immediate.isEmpty then hex 4 i.pc ++ ": " ++ Opcode.shown i.op
      else hex 4 i.pc ++ ": " ++ Opcode.shown i.op ++ " " ++ Hex.prefixed i.immediate := rfl
  rw [htext, fields]
  cases himmediate : i.immediate with
  | nil =>
    rw [if_pos List.isEmpty_nil, if_pos rfl, hline]
    rfl
  | cons b bs =>
    rw [if_neg (by simp), if_neg (List.cons_ne_nil b bs), String.toList_append,
      String.toList_append, hline, List.append_assoc, List.append_assoc]
    rfl

theorem blank_not_mem_of_mem_fields {field : List Char} (h : field ∈ i.fields) : ' ' ∉ field := by
  have hblank : ∀ width n, ' ' ∉ (hex width n).toList :=
    Text.Numeral.not_mem_hex (by decide) (by decide)
  rw [fields, List.mem_cons, List.mem_cons] at h
  rcases h with rfl | rfl | h
  · rw [List.mem_append, not_or]
    exact ⟨hblank 4 i.pc, by decide⟩
  · exact Opcode.blank_not_mem_shown i.op
  · split at h
    · cases h
    · rw [List.mem_singleton.mp h, Hex.prefixed, String.toList_ofList, List.mem_cons, List.mem_cons]
      rintro (heq | heq | hmem)
      · exact absurd heq (by decide)
      · exact absurd heq (by decide)
      · exact absurd (Hex.isDigit_of_mem_encode hmem) (by decide)

/-- Between its blanks a line has its fields. -/
theorem splitOn_text (i : Instruction) : Text.splitOn ' ' i.text.toList = i.fields := by
  rw [toList_text]
  exact Text.splitOn_joinWith (List.cons_ne_nil _ _) fun _ => blank_not_mem_of_mem_fields

/-- Each field tells what it was printed for. -/
theorem fields_inj (h : i.fields = j.fields) : i = j := by
  obtain ⟨hpc, hrest⟩ := List.cons.inj h
  obtain ⟨hname, himmediate⟩ := List.cons.inj hrest
  have hpcs : i.pc = j.pc :=
    Text.Numeral.hex_inj.mp (String.toList_injective (List.append_cancel_right hpc))
  have hops : i.op = j.op := Opcode.shown_inj (String.toList_injective hname)
  have himmediates : i.immediate = j.immediate := by
    -- an empty immediate has no field, so both have it or neither
    split at himmediate
    · next hi =>
      split at himmediate
      · next hj => rw [hi, hj]
      · cases himmediate
    · split at himmediate
      · cases himmediate
      · exact Hex.prefixed_inj.mp (String.toList_injective (List.cons.inj himmediate).1)
  cases i
  cases j
  cases hpcs
  cases hops
  cases himmediates
  rfl

/-- A line tells its instruction. -/
theorem text_injective : Function.Injective text := by
  intro i j h
  apply fields_inj
  rw [← splitOn_text, ← splitOn_text, h]

end Instruction

/-! ## Listings -/

namespace Bytecode

/-- The bytes of a listing are the code, so the listing tells it. -/
theorem disassemble_injective : Function.Injective disassemble := by
  intro code code' h
  calc code = (disassemble code).flatMap Instruction.bytes :=
        (flatMap_bytes_disassembleFrom 0 code).symm
    _ = (disassemble code').flatMap Instruction.bytes := by rw [h]
    _ = code' := flatMap_bytes_disassembleFrom 0 code'

/-- **A printed listing tells the code.** Two codes have the same lines only if they are the same
code, whether their opcodes are defined or not, wherever they end, and however long they are. -/
theorem printed_listing_tells_code (code code' : Bytes) :
    (disassemble code).map Instruction.text = (disassemble code').map Instruction.text ↔
      code = code' := by
  constructor
  · intro h
    exact disassemble_injective (List.map_injective_iff.mpr Instruction.text_injective h)
  · rintro rfl
    rfl

end Bytecode

end TxForensics
