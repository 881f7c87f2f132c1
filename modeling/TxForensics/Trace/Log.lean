import TxForensics.Bytecode.Listing
import TxForensics.Text.Blank

/-!
# Step logs

The record that a step-logging tracer makes of a transaction: one log per executed instruction,
and what is known of the transaction as a whole. Words and bytes in it are texts, not yet checked;
`checkSteps` does that.
-/

namespace TxForensics

/-- One executed instruction as the tracer reports it. -/
structure StepLog where
  pc : UInt32 := 0
  /-- The mnemonic. -/
  op : String := ""
  /-- The gas left before the step. -/
  gas : UInt64 := 0
  /-- The gas charged for the step, if reported. -/
  gasCost : Option UInt64 := none
  /-- The stack words, bottom first. -/
  stack : List String := []
  /-- The memory in words, if recorded. -/
  memory : Option (List String) := none
  /-- The call depth. -/
  depth : UInt32 := 0
deriving DecidableEq, Inhabited

/-- The step log of a transaction. -/
structure Trace where
  /-- One log per executed instruction. -/
  logs : List StepLog := []
  /-- The return or revert data, in hex. -/
  returnValue : Option String := none
  /-- A revert reason in plain words. -/
  revertReason : Option String := none
  /-- Whether the transaction failed, if reported. -/
  failed : Option Bool := none
  /-- The gas used, if reported. -/
  gas : Option UInt64 := none
deriving DecidableEq, Inhabited

namespace Trace

def isEmpty (t : Trace) : Bool := t.logs.isEmpty

/-- The bytes of the return value; a missing one is empty. -/
def returnBytes (t : Trace) : Except HexError Bytes :=
  match t.returnValue with
  | none => .ok []
  | some value => Hex.decode (Text.trim value.toList)

/-- Whether the transaction failed. If the tracer does not say, it did when the last step is
written `REVERT` or `INVALID`. -/
def hasFailed (t : Trace) : Bool :=
  t.failed.getD (t.logs.getLast?.any fun log => log.op == "REVERT" || log.op == "INVALID")

end Trace

end TxForensics
