import TxForensics.Proofs.Bytecode.Partition
import TxForensics.Resolution.PcMap

/-!
# Appending code

Code that grows at its end keeps the instructions it had. What is appended is read as code of its
own, except that an immediate left open at the end takes its missing bytes first:

    front            back
    … PUSHn b₁ … bₖ | bₖ₊₁ … bₙ  op …          missingBytes = n - k

The walk over both parts is therefore the walk over `front`, and then one over what is left of
`back`, which may be nothing at all (`startsFrom_append`). The table of pcs is put together in the
same way, so a pc inside `front` leads to the same place in the source with `back` and without.
-/

namespace TxForensics

namespace Bytecode

open Opcode (immediateSize)

/-- The number of bytes that the last instruction of a listing lacks. -/
def missingBytes (listing : List Instruction) : Nat :=
  match listing.getLast? with
  | none => 0
  | some i => immediateSize i.op - i.immediate.length

/-- Only the last instruction counts for what is missing. -/
theorem missingBytes_cons_of_ne_nil (i : Instruction) {listing : List Instruction}
    (h : listing ≠ []) : missingBytes (i :: listing) = missingBytes listing := by
  rw [missingBytes, missingBytes, List.getLast?_cons_of_ne_nil h]

theorem disassembleFrom_ne_nil {pc : Nat} {code : Bytes} (h : code ≠ []) :
    disassembleFrom pc code ≠ [] := by
  cases code with
  | nil => exact absurd rfl h
  | cons op rest =>
    rw [disassembleFrom]
    exact List.cons_ne_nil _ _

/-- The walk over `front ++ back` is that over `front`, and goes on in `back` behind the bytes that
`front` lacks. -/
theorem startsFrom_append (pc : Nat) (front back : Bytes) :
    startsFrom pc (front ++ back) =
      startsFrom pc front ++
        startsFrom (pc + front.length + missingBytes (disassembleFrom pc front))
          (back.drop (missingBytes (disassembleFrom pc front))) := by
  induction pc, front using startsFrom.induct with
  | case1 pc => simp [startsFrom, disassembleFrom, missingBytes]
  | case2 pc op rest ih =>
    rw [List.cons_append, startsFrom, startsFrom, disassembleFrom, List.cons_append]
    by_cases hend : rest.length ≤ immediateSize op
    · -- the instruction is the last one of `front`, and what it lacks comes off `back`
      have hnone : rest.drop (immediateSize op) = [] := List.drop_eq_nil_of_le hend
      have hmissing : missingBytes [⟨pc, op, rest.take (immediateSize op)⟩] =
          immediateSize op - rest.length := by
        rw [missingBytes, List.getLast?_singleton, List.take_of_length_le hend]
      have hpc : pc + (op :: rest).length + (immediateSize op - rest.length) =
          pc + 1 + immediateSize op := by
        rw [List.length_cons]
        omega
      rw [hnone, disassembleFrom, hmissing, hpc, List.drop_append, hnone, List.nil_append,
        startsFrom.eq_1, List.nil_append]
    · have hmore : rest.drop (immediateSize op) ≠ [] := by
        rw [Ne, List.drop_eq_nil_iff]
        exact hend
      have hpc : pc + (op :: rest).length =
          pc + 1 + immediateSize op + (rest.drop (immediateSize op)).length := by
        rw [List.length_cons, List.length_drop]
        omega
      rw [missingBytes_cons_of_ne_nil _ (disassembleFrom_ne_nil hmore), hpc,
        List.drop_append_of_le_length (Nat.le_of_not_le hend), ih]

/-- Code that begins further back has its instructions further back. -/
theorem startsFrom_add (pc k : Nat) (code : Bytes) :
    startsFrom (pc + k) code = (startsFrom pc code).map (· + k) := by
  induction pc, code using startsFrom.induct with
  | case1 pc => simp [startsFrom]
  | case2 pc op rest ih =>
    rw [startsFrom, startsFrom, List.map_cons, ← ih]
    congr 2
    omega

/-- The table of the whole has the pairs of `front`, then those of what is left of `back` moved
behind them. -/
theorem pcIndex_append (front back : Bytes) :
    pcIndex (front ++ back) =
      pcIndex front ++
        (pcIndex (back.drop (missingBytes (disassemble front)))).map fun (pc, ic) =>
          (pc + front.length + missingBytes (disassemble front),
            ic + (disassemble front).length) := by
  have hcount : (starts front).length = (disassemble front).length := by
    rw [starts_eq, List.length_map]
  have hwalk : starts (front ++ back) =
      starts front ++ (starts (back.drop (missingBytes (disassemble front)))).map
        (· + (front.length + missingBytes (disassemble front))) := by
    rw [starts, startsFrom_append, Nat.add_assoc, startsFrom_add]
    rfl
  -- counting from `n` on adds `n` to every index
  have hcounted (l : List Nat) (n : Nat) : l.zipIdx n = l.zipIdx.map fun (pc, ic) => (pc, n + ic) :=
    List.zipIdx_eq_map_add
  rw [pcIndex, hwalk, List.zipIdx_append, Nat.zero_add, hcount, List.zipIdx_map,
    hcounted _ (disassemble front).length, List.map_map]
  refine congrArg (pcIndex front ++ ·) (List.map_congr_left ?_)
  rintro ⟨pc, ic⟩ -
  simp only [Function.comp_apply, Prod.map_apply, id_eq, Nat.add_assoc, Nat.add_comm ic]

/-- What is appended is found behind `front` only. -/
theorem lookup_pcIndex_append {front : Bytes} (back : Bytes) {pc : Nat} (h : pc < front.length) :
    (pcIndex (front ++ back)).lookup pc = (pcIndex front).lookup pc := by
  rw [pcIndex_append, List.lookup_append]
  -- every pc of the moved table is at the length of `front` or behind it
  have hnone : ((pcIndex (back.drop (missingBytes (disassemble front)))).map fun (p, ic) =>
      (p + front.length + missingBytes (disassemble front),
        ic + (disassemble front).length)).lookup pc = none := by
    rw [List.lookup_eq_none_iff]
    intro pair hpair
    obtain ⟨⟨p, ic⟩, -, rfl⟩ := List.mem_map.mp hpair
    simp only [bne_iff_ne, ne_eq]
    omega
  rw [hnone, Option.or_none]

end Bytecode

/-! ## Places in the source -/

namespace PcMap

/-- Code enters the attribution of a pc through the index of the pc alone, which appended code
leaves as it is. -/
theorem attributedEntry?_append {front : Bytes} (back : Bytes) (map source : String)
    (settings : Settings) {pc : Nat} (h : pc < front.length) :
    attributedEntry? (build (front ++ back) map source settings) pc =
      attributedEntry? (build front map source settings) pc := by
  have hindex : (build (front ++ back) map source settings).instructionIndex? pc =
      (build front map source settings).instructionIndex? pc :=
    Bytecode.lookup_pcIndex_append back h
  unfold attributedEntry?
  rw [hindex]
  rfl

theorem position?_append {front : Bytes} (back : Bytes) (map source : String)
    (settings : Settings) {pc : Nat} (h : pc < front.length) :
    (build (front ++ back) map source settings).position? pc =
      (build front map source settings).position? pc := by
  rw [position?, position?, attributedEntry?_append back map source settings h]
  rfl

theorem site?_append {front : Bytes} (back : Bytes) (map source : String)
    (settings : Settings) {pc : Nat} (h : pc < front.length) :
    (build (front ++ back) map source settings).site? pc =
      (build front map source settings).site? pc := by
  rw [site?, site?, position?_append back map source settings h]
  rfl

/-- **Appending code never disturbs the instructions before it.** The table of the whole code is
that of `front` followed by that of `back` without the bytes that `front` lacks, moved by the bytes
and the instructions before it. Every pc inside `front` is followed to the same place in the source
as without `back`. -/
theorem appended_code (front back : Bytes) :
    Bytecode.pcIndex (front ++ back) =
        Bytecode.pcIndex front ++
          (Bytecode.pcIndex (back.drop (Bytecode.missingBytes (Bytecode.disassemble front)))).map
            (fun (pc, ic) =>
              (pc + front.length + Bytecode.missingBytes (Bytecode.disassemble front),
                ic + (Bytecode.disassemble front).length)) ∧
      ∀ (map source : String) (settings : Settings) (pc : Nat), pc < front.length →
        attributedEntry? (build (front ++ back) map source settings) pc =
            attributedEntry? (build front map source settings) pc ∧
          (build (front ++ back) map source settings).position? pc =
            (build front map source settings).position? pc ∧
          (build (front ++ back) map source settings).site? pc =
            (build front map source settings).site? pc := by
  refine ⟨Bytecode.pcIndex_append front back, ?_⟩
  intro map source settings pc hpc
  exact ⟨attributedEntry?_append back map source settings hpc,
    position?_append back map source settings hpc, site?_append back map source settings hpc⟩

/-- A `PUSH3` that has one byte of three takes two of what is appended, and the pc in front of it is
placed as before. -/
theorem appended_code_openPush :
    Bytecode.pcIndex ([0x5b, 0x62, 0x01] ++ [0x5b, 0x5b, 0x5b, 0x60]) =
        [(0, 0), (1, 1), (5, 2), (6, 3)] ∧
      0 < [(0x5b : UInt8), 0x62, 0x01].length ∧
      (build ([0x5b, 0x62, 0x01] ++ [0x5b, 0x5b, 0x5b, 0x60]) "0:1:0" "x" {}).site? 0 =
        some ⟨⟨1, 1, "x"⟩, none⟩ := by
  have happended := appended_code [0x5b, 0x62, 0x01] [0x5b, 0x5b, 0x5b, 0x60]
  refine ⟨?_, by decide, ?_⟩
  · rw [happended.1]
    decide +kernel
  · rw [(happended.2 "0:1:0" "x" {} 0 (by decide)).2.2]
    decide +kernel

end PcMap

end TxForensics
