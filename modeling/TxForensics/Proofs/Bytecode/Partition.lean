import TxForensics.Proofs.Bytecode.Starts

/-!
# Listings lose nothing

`disassemble` cuts code into instructions, and nothing is lost or read twice: the bytes of the
instructions in order are the code. An instruction is found in the code at its pc,

    code = bytes before it ++ op :: left      pc = length of the bytes before it

and it takes as many bytes of `left` as its opcode declares, or all of them if there are fewer
(`disassembleFrom_eq_append_cons`). Whatever is said here of a listing is read off that: which pc
comes next, and that only the last instruction can be truncated. The tables of pcs and indices list
the same instructions, so each is the other one turned around.
-/

namespace TxForensics

/-! ## What opcodes declare -/

namespace Opcode

theorem mnemonic?_push : ∀ n < 33, 0 < n →
    mnemonic? (0x5f + n).toUInt8 = some ("PUSH" ++ Text.Numeral.decimal n) := by
  decide +kernel

theorem immediateSize_push : ∀ n < 33, immediateSize (0x5f + n).toUInt8 = n := by decide

/-- Only `PUSH1` to `PUSH32` declare immediate bytes, each as many as its name says. -/
theorem mnemonic?_of_immediateSize {op : UInt8} (h : 0 < immediateSize op) :
    mnemonic? op = some ("PUSH" ++ Text.Numeral.decimal (immediateSize op)) := by
  have hle := immediateSize_le op
  -- the size is the distance to `PUSH0`, so it gives the opcode back
  have hop : op = (0x5f + immediateSize op).toUInt8 := by
    unfold immediateSize at h ⊢
    split at h
    · next hrange =>
      have hlow : 0x60 ≤ op.toNat := UInt8.le_iff_toNat_le.mp hrange.1
      rw [if_pos hrange, Nat.add_sub_cancel' (by omega), Nat.toUInt8, UInt8.ofNat_toNat]
    · omega
  have hpush := mnemonic?_push (immediateSize op) (by omega) h
  rwa [← hop] at hpush

end Opcode

namespace Bytecode

open Opcode (immediateSize)

/-! ## An instruction and the code around it -/

/-- The bytes of a listing, joined in order, are the code. -/
theorem flatMap_bytes_disassembleFrom (pc : Nat) (code : Bytes) :
    (disassembleFrom pc code).flatMap Instruction.bytes = code := by
  induction pc, code using disassembleFrom.induct with
  | case1 pc => simp [disassembleFrom]
  | case2 pc op rest ih =>
    rw [disassembleFrom, List.flatMap_cons, ih, Instruction.bytes, List.cons_append,
      List.take_append_drop]

/-- Where an instruction of a listing stands: the code before it is that of the instructions before
it, it takes what its opcode declares of the bytes left, and the listing goes on behind that. -/
theorem disassembleFrom_eq_append_cons {pc : Nat} {code : Bytes} {before after : List Instruction}
    {i : Instruction} (h : disassembleFrom pc code = before ++ i :: after) :
    ∃ left, code = before.flatMap Instruction.bytes ++ i.op :: left ∧
      i.pc = pc + (before.flatMap Instruction.bytes).length ∧
      i.immediate = left.take (immediateSize i.op) ∧
      after = disassembleFrom (i.pc + 1 + immediateSize i.op) (left.drop (immediateSize i.op)) := by
  -- over the instructions before it; the pc and the code move on with each of them
  induction before generalizing pc code with
  | nil =>
    cases code with
    | nil => simp [disassembleFrom] at h
    | cons op rest =>
      rw [disassembleFrom, List.nil_append] at h
      obtain ⟨rfl, rfl⟩ := List.cons.inj h
      exact ⟨rest, rfl, rfl, rfl, rfl⟩
  | cons b before ih =>
    cases code with
    | nil => simp [disassembleFrom] at h
    | cons op rest =>
      rw [disassembleFrom, List.cons_append] at h
      obtain ⟨rfl, hrest⟩ := List.cons.inj h
      obtain ⟨left, hcode, hpc, himmediate, hafter⟩ := ih hrest
      -- something is left behind the first instruction, so its immediate is complete
      have hfull : (rest.take (immediateSize op)).length = immediateSize op := by
        have hleft := congrArg List.length hcode
        simp only [List.length_drop, List.length_append, List.length_cons] at hleft
        rw [List.length_take]
        omega
      refine ⟨left, ?_, ?_, himmediate, hafter⟩
      · rw [List.flatMap_cons, Instruction.bytes, List.cons_append, List.cons_append,
          List.append_assoc, ← hcode, List.take_append_drop]
      · rw [hpc, List.flatMap_cons, Instruction.bytes, List.length_append, List.length_cons, hfull]
        omega

/-- The same for the instruction with the index `k` of the listing of a whole code. -/
theorem disassemble_getElem? {code : Bytes} {k : Nat} {i : Instruction}
    (h : (disassemble code)[k]? = some i) :
    ∃ left, code.drop i.pc = i.op :: left ∧ i.immediate = left.take (immediateSize i.op) ∧
      (disassemble code).drop (k + 1) =
        disassembleFrom (i.pc + 1 + immediateSize i.op) (left.drop (immediateSize i.op)) := by
  have hk : k < (disassemble code).length := (List.getElem?_eq_some_iff.mp h).1
  have hsplit : disassemble code =
      (disassemble code).take k ++ i :: (disassemble code).drop (k + 1) := by
    have hi : (disassemble code)[k] = i := (List.getElem?_eq_some_iff.mp h).2
    rw [← hi, ← List.drop_eq_getElem_cons hk, List.take_append_drop]
  obtain ⟨left, hcode, hpc, himmediate, hafter⟩ := disassembleFrom_eq_append_cons hsplit
  refine ⟨left, ?_, himmediate, hafter⟩
  rw [hpc, Nat.zero_add]
  conv => lhs; arg 2; rw [hcode]
  rw [List.drop_left]

/-! ## The listing as a partition -/

/-- `listing` cuts `code` into instructions: they lie one behind the other from 0 on and make up the
code, and only the last one may have less than its opcode declares, namely all that is left. -/
structure IsPartition (code : Bytes) (listing : List Instruction) : Prop where
  bytes : listing.flatMap Instruction.bytes = code
  first : ∀ i : Instruction, listing[0]? = some i → i.pc = 0
  next : ∀ (k : Nat) (i j : Instruction), listing[k]? = some i → listing[k + 1]? = some j →
    j.pc = i.pc + 1 + immediateSize i.op
  complete : ∀ (k : Nat) (i : Instruction), listing[k]? = some i → i.isTruncated = false →
    i.immediate.length = immediateSize i.op
  truncated : ∀ (k : Nat) (i : Instruction), listing[k]? = some i → i.isTruncated = true →
    k + 1 = listing.length ∧ i.immediate = code.drop (i.pc + 1)

/-- Each part is read off where an instruction stands in the code. -/
theorem isPartition_disassemble (code : Bytes) : IsPartition code (disassemble code) where
  bytes := flatMap_bytes_disassembleFrom 0 code
  first := by
    intro i hi
    cases code with
    | nil => simp [disassemble, disassembleFrom] at hi
    | cons op rest =>
      rw [disassemble, disassembleFrom, List.getElem?_cons_zero] at hi
      cases hi
      rfl
  next := by
    intro k i j hi hj
    obtain ⟨left, -, -, hafter⟩ := disassemble_getElem? hi
    have hhead : ((disassemble code).drop (k + 1))[0]? = some j := by
      rw [List.getElem?_drop]
      exact hj
    rw [hafter] at hhead
    cases hrest : left.drop (immediateSize i.op) with
    | nil => simp [hrest, disassembleFrom] at hhead
    | cons op rest =>
      rw [hrest, disassembleFrom, List.getElem?_cons_zero] at hhead
      cases hhead
      rfl
  complete := by
    intro k i hi hcomplete
    obtain ⟨left, -, himmediate, -⟩ := disassemble_getElem? hi
    have hle : i.immediate.length ≤ immediateSize i.op := by
      rw [himmediate]
      exact List.length_take_le _ _
    have hge := of_decide_eq_false hcomplete
    omega
  truncated := by
    intro k i hi htruncated
    obtain ⟨left, hcode, himmediate, hafter⟩ := disassemble_getElem? hi
    have hshort : left.length < immediateSize i.op := by
      have hlt := of_decide_eq_true htruncated
      rw [himmediate, List.length_take] at hlt
      omega
    constructor
    · have hnone : (disassemble code).drop (k + 1) = [] := by
        rw [hafter, List.drop_eq_nil_of_le (by omega), disassembleFrom]
      have hk := (List.getElem?_eq_some_iff.mp hi).1
      have hle := List.drop_eq_nil_iff.mp hnone
      omega
    · have hleft : code.drop (i.pc + 1) = left := by
        rw [← List.drop_drop, hcode, List.drop_one, List.tail_cons]
      rw [hleft, himmediate, List.take_of_length_le (by omega)]

/-! ## The tables -/

/-- The walk over starts and that over instructions go in step. -/
theorem startsFrom_eq (pc : Nat) (code : Bytes) :
    startsFrom pc code = (disassembleFrom pc code).map Instruction.pc := by
  induction pc, code using startsFrom.induct with
  | case1 pc => simp [startsFrom, disassembleFrom]
  | case2 pc op rest ih => rw [startsFrom, disassembleFrom, ih, List.map_cons]

theorem starts_eq (code : Bytes) : starts code = (disassemble code).map Instruction.pc :=
  startsFrom_eq 0 code

theorem pcIndex_eq (code : Bytes) :
    pcIndex code = (disassemble code).zipIdx.map fun (i, k) => (i.pc, k) := by
  rw [pcIndex, starts_eq, List.zipIdx_map]
  rfl

theorem indexPc_eq (code : Bytes) :
    indexPc code = (disassemble code).zipIdx.map fun (i, k) => (k, i.pc) := by
  rw [indexPc, pcIndex_eq, List.map_map]
  rfl

/-- In both columns of the table the numbers increase strictly. -/
theorem pairwise_pcIndex (code : Bytes) :
    (pcIndex code).Pairwise fun a b => a.1 < b.1 ∧ a.2 < b.2 := by
  rw [List.pairwise_iff_getElem]
  intro a b ha hb hab
  simp only [pcIndex, List.getElem_zipIdx]
  have hstarts := List.pairwise_iff_getElem.mp (pairwise_lt_starts code)
  exact ⟨hstarts a b _ _ hab, by omega⟩

theorem pairwise_indexPc (code : Bytes) :
    (indexPc code).Pairwise fun a b => a.1 < b.1 ∧ a.2 < b.2 := by
  rw [indexPc, List.pairwise_map]
  exact (pairwise_pcIndex code).imp And.symm

/-- A table of positions, turned around, is looked up as the list itself. -/
theorem lookup_map_swap_zipIdx (l : List Nat) (n k : Nat) :
    ((l.zipIdx n).map Prod.swap).lookup (n + k) = l[k]? := by
  induction l generalizing n k with
  | nil => rfl
  | cons a as ih =>
    rw [List.zipIdx_cons, List.map_cons, Prod.swap_prod_mk, List.lookup_cons]
    cases k with
    | zero => simp
    | succ k =>
      rw [beq_false_of_ne (by omega), List.getElem?_cons_succ, ← ih (n + 1) k, Nat.add_right_comm,
        Nat.add_assoc]

/-- The one table gives an index for a pc exactly when the other gives that pc for the index. -/
theorem lookup_pcIndex_iff_lookup_indexPc {code : Bytes} {pc k : Nat} :
    (pcIndex code).lookup pc = some k ↔ (indexPc code).lookup k = some pc := by
  have hindex := lookup_map_swap_zipIdx (starts code) 0 k
  rw [Nat.zero_add] at hindex
  rw [lookup_pcIndex_eq_some_iff, indexPc, pcIndex, hindex]

/-- **A listing is a lossless partition of the code**, and the tables hold its pcs and indices. Of
the opcodes exactly `PUSH1` to `PUSH32` declare immediate bytes, as many as their names say. Both
tables list the instructions with their indices counted from 0, increase strictly, and are inverse
to each other. -/
theorem disassemble_partition (code : Bytes) :
    IsPartition code (disassemble code) ∧
    ((∀ n < 33, 0 < n → ∃ op,
        Opcode.mnemonic? op = some ("PUSH" ++ Text.Numeral.decimal n) ∧ immediateSize op = n) ∧
      ∀ op, 0 < immediateSize op → immediateSize op ≤ 32 ∧
        Opcode.mnemonic? op = some ("PUSH" ++ Text.Numeral.decimal (immediateSize op))) ∧
    pcIndex code = (disassemble code).zipIdx.map (fun (i, k) => (i.pc, k)) ∧
    indexPc code = (disassemble code).zipIdx.map (fun (i, k) => (k, i.pc)) ∧
    (pcIndex code).Pairwise (fun a b => a.1 < b.1 ∧ a.2 < b.2) ∧
    (indexPc code).Pairwise (fun a b => a.1 < b.1 ∧ a.2 < b.2) ∧
    ∀ pc k, (pcIndex code).lookup pc = some k ↔ (indexPc code).lookup k = some pc := by
  refine ⟨isPartition_disassemble code, ⟨?_, ?_⟩, pcIndex_eq code, indexPc_eq code,
    pairwise_pcIndex code, pairwise_indexPc code, fun _ _ => lookup_pcIndex_iff_lookup_indexPc⟩
  · intro n hn hpos
    exact ⟨(0x5f + n).toUInt8, Opcode.mnemonic?_push n hn hpos, Opcode.immediateSize_push n hn⟩
  · intro op hop
    exact ⟨Opcode.immediateSize_le op, Opcode.mnemonic?_of_immediateSize hop⟩

end Bytecode

end TxForensics
