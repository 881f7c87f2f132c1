import TxForensics.Storage.Layout
import TxForensics.Storage.Value
import TxForensics.Trace.Slots

/-!
# Storage changes by variable

Names the variables that a storage change touches. A layout tells which variables live in the slot
of a change; each is cut out of the old and of the new word and shown as a value of its type.
Slots without a declared variable, such as the entries of mappings, name none.
-/

namespace TxForensics

namespace Word

/-- The `size` bytes at the byte `offset` from the least significant end, as a word. -/
def slice (w : Word) (offset size : Nat) : Word :=
  .ofNat ((w.toNat >>> (8 * offset)) % 256 ^ size)

end Word

/-- A variable in the slot of a change. -/
structure VariableChange where
  label : String
  /-- The name of the type. -/
  typeName : String
  before : String
  after : String
deriving DecidableEq

def VariableChange.differs (v : VariableChange) : Bool := v.before != v.after

/-- A storage change with the variables of its slot. -/
structure AnnotatedChange where
  change : SlotChange
  variableChanges : List VariableChange
deriving DecidableEq

namespace StorageLayout

def annotateVariable (l : StorageLayout) (change : SlotChange) (v : StateVariable) :
    VariableChange :=
  let typeName := l.typeName v
  let render (w : Word) : String :=
    renderStorageValue (w.slice v.offset.toNat (l.occupiedSize v)) typeName
  { label := v.label
    typeName
    before := render change.before
    after := render change.after }

/-- A change with the variables that the layout places in its slot. -/
def annotate (l : StorageLayout) (change : SlotChange) : AnnotatedChange :=
  { change
    variableChanges := (l.variablesIn change.slot.toNat).map (l.annotateVariable change) }

end StorageLayout

end TxForensics
