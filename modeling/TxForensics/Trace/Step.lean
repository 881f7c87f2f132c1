import TxForensics.Bytecode.Listing
import TxForensics.Word

/-!
# Execution steps

One executed instruction with its words checked: the unit that storage changes, failures and
resolution speak of.

The stack is kept bottom first and read from the top. Positions on it are numbers of 64 bits, and
so is the number of words to count down, which is the position plus one. The last position has no
successor among these numbers, and the sum overflows there (`fromTop`).
-/

namespace TxForensics

structure SlotWrite where
  slot : Word
  value : Word
deriving DecidableEq

structure Step where
  /-- The position in the trace, counted from zero. -/
  index : UInt32 := 0
  pc : UInt32 := 0
  /-- The mnemonic. -/
  op : String := ""
  /-- The gas left before the step. -/
  gasRemaining : UInt64 := 0
  /-- The gas charged for the step. -/
  gasCost : UInt64 := 0
  /-- The stack words, bottom first. -/
  stack : List Word := []
  /-- The memory before the step, if recorded. -/
  memory : Option Bytes := none
  /-- The write that the step performs, if it stores. -/
  write : Option SlotWrite := none
  /-- The call depth. -/
  depth : UInt32 := 0
deriving DecidableEq, Inhabited

/-- Why a stack is not read. -/
inductive StackFault where
  /-- The number of words to count down is no number of 64 bits. -/
  | overflow
  /-- A stack of `size` words has no word at the index `index` from its bottom. -/
  | outOfBounds (size index : Nat)
deriving DecidableEq, Repr

def StackFault.message : StackFault → String
  | overflow => "attempt to add with overflow"
  | outOfBounds size index =>
    "index out of bounds: the len is " ++ Text.Numeral.decimal size ++ " but the index is " ++
      Text.Numeral.decimal index

/-- Whether two texts agree up to the case of ASCII letters. -/
def sameMnemonic (a b : String) : Bool := a.toList.map Char.toLower == b.toList.map Char.toLower

namespace Step

def executes (s : Step) (op : String) : Bool := sameMnemonic s.op op

/-- The stack word at `position` from the top, the top being 0; none if the stack ends before. -/
def fromTop (s : Step) (position : UInt64) : Except StackFault (Option Word) :=
  let count := position.toNat + 1
  if 2 ^ 64 ≤ count then .error .overflow
  else if s.stack.length < count then .ok none
  else
    let index := s.stack.length - count
    match s.stack[index]? with
    | some word => .ok (some word)
    | none => .error (.outOfBounds s.stack.length index)

def top? (s : Step) : Option Word := s.stack.getLast?

def second? (s : Step) : Option Word := s.stack.dropLast.getLast?

/-- Whether the step ends its frame with a failure. -/
def endsInFailure (s : Step) : Bool := s.executes "REVERT" || s.executes "INVALID"

end Step

end TxForensics
