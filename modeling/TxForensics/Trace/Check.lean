import TxForensics.Trace.Log
import TxForensics.Trace.Step

/-!
# Checking a step log

`checkSteps` turns logs into steps, one for one and in order. Every stack and memory word is
checked, and the first one that is no word fails the whole log: stack before memory within a step,
bottom before top, and earlier steps before later ones.

A gas cost that the tracer left out is the difference to the gas of the step before, and 0 for the
first step. A storing step carries the slot and the value it writes, which it finds on top of its
stack in that order.
-/

namespace TxForensics

inductive TraceError where
  /-- A stack item is no word. -/
  | stackWord (step position : Nat) (cause : WordError)
  /-- A memory word is no hex. -/
  | memoryWord (step position : Nat) (cause : HexError)
  /-- The return value is no hex. -/
  | returnValue (cause : HexError)
deriving DecidableEq, Repr

def TraceError.message : TraceError → String
  | .stackWord step position cause =>
    "step " ++ Text.Numeral.decimal step ++ ": invalid stack item " ++
      Text.Numeral.decimal position ++ ": " ++ cause.message
  | .memoryWord step position cause =>
    "step " ++ Text.Numeral.decimal step ++ ": invalid memory word " ++
      Text.Numeral.decimal position ++ ": " ++ cause.message
  | .returnValue cause => "invalid return value: " ++ cause.message

/-- Applies a check to every item, and reports the position of the first that fails. -/
def checkAll (check : α → Except ε β) (position : Nat) : List α → Except (Nat × ε) (List β)
  | [] => .ok []
  | a :: as =>
    match check a with
    | .error e => .error (position, e)
    | .ok b =>
      match checkAll check (position + 1) as with
      | .error e => .error e
      | .ok bs => .ok (b :: bs)

namespace StepLog

/-- The checked stack of the log of the step `index`. -/
def stackWords (index : Nat) (log : StepLog) : Except TraceError (List Word) :=
  match checkAll Word.parse 0 log.stack with
  | .ok words => .ok words
  | .error (position, cause) => .error (.stackWord index position cause)

/-- The checked memory of the log of the step `index`: its words one after the other. -/
def memoryBytes (index : Nat) (log : StepLog) : Except TraceError (Option Bytes) :=
  match log.memory with
  | none => .ok none
  | some words =>
    match checkAll (fun word => Hex.decode word.toList) 0 words with
    | .ok parts => .ok (some parts.flatten)
    | .error (position, cause) => .error (.memoryWord index position cause)

/-- The gas cost of a log after a step with `gasBefore` left. -/
def cost (gasBefore : Option UInt64) (log : StepLog) : UInt64 :=
  match log.gasCost, gasBefore with
  | some cost, _ => cost
  | none, none => 0
  | none, some before => if log.gas ≤ before then before - log.gas else 0

end StepLog

/-- The write that a step performs: the slot is on top of its stack, the value below. -/
def Step.writeFromStack? (s : Step) : Option SlotWrite :=
  if s.executes "SSTORE" then
    match s.top?, s.second? with
    | some slot, some value => some ⟨slot, value⟩
    | _, _ => none
  else none

/-- Checks logs, the first of which is the step `index` after a step with `gasBefore` left. -/
def checkFrom (index : Nat) (gasBefore : Option UInt64) :
    List StepLog → Except TraceError (List Step)
  | [] => .ok []
  | log :: logs => do
    let stack ← log.stackWords index
    let memory ← log.memoryBytes index
    let step : Step :=
      { index := index.toUInt32
        pc := log.pc
        op := log.op
        gasRemaining := log.gas
        gasCost := log.cost gasBefore
        stack, memory
        depth := log.depth }
    -- the gas of this log counts for the next cost, whether or not its own cost was reported
    let steps ← checkFrom (index + 1) (some log.gas) logs
    return { step with write := step.writeFromStack? } :: steps

def checkSteps (logs : List StepLog) : Except TraceError (List Step) := checkFrom 0 none logs

end TxForensics
