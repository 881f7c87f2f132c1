import TxForensics.SortedMap
import TxForensics.Text.Blank
import TxForensics.Text.Numeral
import TxForensics.Word

/-!
# Storage layouts

Where a compiler placed the state variables of a contract: each variable has a slot, a byte offset
inside the slot, counted from the least significant end, and the identifier of its type, which the
table of types describes.

Several variables may share a slot. A variable occupies `occupiedSize` bytes of it: the size of its
type, or what is left of the slot behind its offset if the type is unknown or larger than that.
-/

namespace TxForensics

structure TypeInfo where
  encoding : String := ""
  /-- The name for readers. -/
  label : String := ""
  /-- The size in bytes, as a decimal numeral. -/
  numberOfBytes : String := ""
  /-- The key type of a mapping. -/
  key : Option String := none
  /-- The value type of a mapping. -/
  value : Option String := none
deriving DecidableEq, Inhabited

def TypeInfo.size? (t : TypeInfo) : Option Nat :=
  (Text.Numeral.readBelow 10 (2 ^ 64) (Text.trim t.numberOfBytes.toList)).toOption

structure StateVariable where
  astId : UInt64 := 0
  contract : String := ""
  /-- The name. -/
  label : String := ""
  /-- The byte offset inside the slot, counted from the least significant end. -/
  offset : UInt32 := 0
  /-- The slot, as a numeral. -/
  slot : String := ""
  /-- The identifier of the type. -/
  typeId : String := ""
deriving DecidableEq, Inhabited

/-- The number of a slot numeral: decimal, or hexadecimal, octal or binary behind `0x`, `0o` or
`0b`. Underscores do not count, and no digits at all are zero. -/
def slotNumber? (cs : List Char) : Option Nat :=
  let (radix, ds) :=
    match cs with
    | '0' :: 'x' :: ds => (16, ds)
    | '0' :: 'X' :: ds => (16, ds)
    | '0' :: 'o' :: ds => (8, ds)
    | '0' :: 'O' :: ds => (8, ds)
    | '0' :: 'b' :: ds => (2, ds)
    | '0' :: 'B' :: ds => (2, ds)
    | ds => (10, ds)
  (Text.Numeral.value? radix (ds.filter (· ≠ '_'))).filter (· < 2 ^ 256)

def StateVariable.slot? (v : StateVariable) : Option Nat :=
  slotNumber? (Text.trim v.slot.toList)

structure StorageLayout where
  /-- The state variables in the order of their declarations. -/
  stateVariables : List StateVariable := []
  /-- The descriptions of types by identifier. -/
  types : SortedMap TypeInfo := .empty
deriving DecidableEq, Inhabited

namespace StorageLayout

def variablesIn (l : StorageLayout) (slot : Nat) : List StateVariable :=
  l.stateVariables.filter (·.slot? == some slot)

def typeInfo? (l : StorageLayout) (v : StateVariable) : Option TypeInfo := l.types.get? v.typeId

/-- The name of the type of a variable, or the identifier if the type is not described. -/
def typeName (l : StorageLayout) (v : StateVariable) : String :=
  ((l.typeInfo? v).map TypeInfo.label).getD v.typeId

/-- The number of bytes that a variable occupies in its slot. -/
def occupiedSize (l : StorageLayout) (v : StateVariable) : Nat :=
  let rest := wordSize - v.offset.toNat
  match (l.typeInfo? v).bind TypeInfo.size? with
  | some size => min size rest
  | none => rest

end StorageLayout

end TxForensics
