import TxForensics.Trace.Log

/-!
# Building traces

Puts a trace together call by call. Every step consumes 3 gas of 100000, until nothing is left.
-/

namespace TxForensics

structure TraceDraft where
  /-- What has been built so far. -/
  trace : Trace := {}
  /-- The gas left for the next step. -/
  gas : UInt64 := 100000
  /-- The call depth of the next step. -/
  depth : UInt32 := 1

namespace TraceDraft

def setDepth (b : TraceDraft) (depth : UInt32) : TraceDraft := { b with depth }

/-- Adds a step with a stack of texts, bottom first. -/
def stepHex (b : TraceDraft) (pc : UInt32) (op : String) (stack : List String) : TraceDraft :=
  let log : StepLog := { pc, op, gas := b.gas, stack, depth := b.depth }
  { b with
    trace := { b.trace with logs := b.trace.logs ++ [log] }
    gas := if 3 ≤ b.gas then b.gas - 3 else 0 }

/-- Adds a step with a stack of numbers, bottom first. -/
def step (b : TraceDraft) (pc : UInt32) (op : String) (stack : List UInt64) : TraceDraft :=
  b.stepHex pc op (stack.map fun word => Text.Numeral.hex 1 word.toNat)

def setFailed (b : TraceDraft) (failed : Bool) : TraceDraft :=
  { b with trace := { b.trace with failed := some failed } }

def setReturnValue (b : TraceDraft) (value : String) : TraceDraft :=
  { b with trace := { b.trace with returnValue := some value } }

def setRevertReason (b : TraceDraft) (reason : String) : TraceDraft :=
  { b with trace := { b.trace with revertReason := some reason } }

end TraceDraft

end TxForensics
