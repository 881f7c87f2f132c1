import TxForensics.Bytecode.Opcode
import TxForensics.Hex

/-!
# Listings of bytecode

Bytecode read as a sequence of instructions. An instruction is an opcode with the immediate bytes
that belong to it; the *pc* of an instruction is the position of its opcode in the code, its
*index* (ic) the number of instructions before it. Bytes of an immediate are no instructions, and
where the code ends inside an immediate the last instruction is truncated.

`starts` lists the pcs, `disassemble` the instructions, and `pcIndex` and `indexPc` pair pcs with
indices in either order.
-/

namespace TxForensics

/-- Bytes of code or data, first byte first. -/
abbrev Bytes := List UInt8

structure Instruction where
  /-- The position of the opcode in the code. -/
  pc : Nat
  op : UInt8
  /-- The bytes that follow the opcode, as many of them as the code has. -/
  immediate : Bytes
deriving DecidableEq, Repr

namespace Instruction

def mnemonic? (i : Instruction) : Option String := Opcode.mnemonic? i.op

/-- Whether the code ended inside the immediate. -/
def isTruncated (i : Instruction) : Bool := i.immediate.length < Opcode.immediateSize i.op

def size (i : Instruction) : Nat := 1 + i.immediate.length

def bytes (i : Instruction) : Bytes := i.op :: i.immediate

/-- The line of the instruction in a listing: its pc, its name and its immediate if it has one. -/
def text (i : Instruction) : String :=
  let name :=
    match i.mnemonic? with
    | some name => name
    | none => "UNKNOWN(" ++ Text.Numeral.hex 2 i.op.toNat ++ ")"
  let line := Text.Numeral.hex 4 i.pc ++ ": " ++ name
  if i.immediate.isEmpty then line else line ++ " " ++ Hex.prefixed i.immediate

end Instruction

namespace Bytecode

/-- The pcs of the instructions of the code that begins at `pc`. -/
def startsFrom (pc : Nat) : Bytes → List Nat
  | [] => []
  | op :: rest =>
    pc :: startsFrom (pc + 1 + Opcode.immediateSize op) (rest.drop (Opcode.immediateSize op))
termination_by code => code.length
decreasing_by simp only [List.length_drop, List.length_cons]; omega

def starts (code : Bytes) : List Nat := startsFrom 0 code

def disassembleFrom (pc : Nat) : Bytes → List Instruction
  | [] => []
  | op :: rest =>
    ⟨pc, op, rest.take (Opcode.immediateSize op)⟩ ::
      disassembleFrom (pc + 1 + Opcode.immediateSize op) (rest.drop (Opcode.immediateSize op))
termination_by code => code.length
decreasing_by simp only [List.length_drop, List.length_cons]; omega

def disassemble (code : Bytes) : List Instruction := disassembleFrom 0 code

/-- The pc of each instruction with its index. -/
def pcIndex (code : Bytes) : List (Nat × Nat) := (starts code).zipIdx

/-- The index of each instruction with its pc. -/
def indexPc (code : Bytes) : List (Nat × Nat) := (pcIndex code).map Prod.swap

end Bytecode

end TxForensics
