import TxForensics.Trace.Step

/-!
# Storage changes

Pairs every storage write of a trace with the value that its slot held before, as far as the trace
shows it.

A trace shows the value of a slot in two ways: a load at one step leaves it on top of the stack of
the next step, and a write sets it. Each such event is an `Observation`; the value before a write
is the last one observed for its slot, and zero if there was none. Slots of different contracts
are not told apart.
-/

namespace TxForensics

/-- A storage write with the value it replaced. -/
structure SlotChange where
  slot : Word
  /-- The last value observed in the slot before the write. -/
  before : Word
  after : Word
  /-- The index of the writing step. -/
  stepIndex : UInt32
deriving DecidableEq

namespace SlotChange

def keepsValue (c : SlotChange) : Bool := c.before == c.after

end SlotChange

/-- The values last seen in slots. -/
structure ObservedStorage where
  values : List (Word × Word) := []

namespace ObservedStorage

def observe (o : ObservedStorage) (slot value : Word) : ObservedStorage :=
  ⟨(slot, value) :: o.values⟩

def get (o : ObservedStorage) (slot : Word) : Word := (o.values.lookup slot).getD .zero

@[simp] theorem get_empty (slot : Word) : get {} slot = .zero := rfl

theorem get_observe (o : ObservedStorage) (slot value s : Word) :
    (o.observe slot value).get s = if s = slot then value else o.get s := by
  by_cases h : s = slot
  · simp [get, observe, h]
  · simp [get, observe, List.lookup_cons, beq_false_of_ne h, h]

/-- What a loading step shows, if the step after it has a stack to show it on. -/
def afterLoad (o : ObservedStorage) (step : Step) (next : Option Step) : ObservedStorage :=
  if step.executes "SLOAD" then
    match step.top?, next.bind Step.top? with
    | some slot, some value => o.observe slot value
    | _, _ => o
  else o

end ObservedStorage

/-- The storage changes of steps, after what earlier steps showed. -/
def slotChangesFrom (observed : ObservedStorage) : List Step → List SlotChange
  | [] => []
  | step :: steps =>
    -- what a step loads is known before what the same step writes
    let observed := observed.afterLoad step steps.head?
    match step.write with
    | none => slotChangesFrom observed steps
    | some write =>
      { slot := write.slot
        before := observed.get write.slot
        after := write.value
        stepIndex := step.index } ::
        slotChangesFrom (observed.observe write.slot write.value) steps

def slotChanges (steps : List Step) : List SlotChange := slotChangesFrom {} steps

end TxForensics
