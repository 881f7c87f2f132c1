import TxForensics.Trace.Slots

/-!
# What a trace shows of storage

`slotChanges` threads the last values seen through the steps, with a look at the step after each
load. Here the same values are read off the list of events: a load at `j` shows the value on top of
step `j + 1`, a write at `j` sets one, and the load comes before the write of the same step
(`loadAt`, `eventsAt`). The value before the write of step `i` is that of the last event on its slot
among all events of earlier steps and the load of step `i` (`eventsBefore`).
-/

namespace TxForensics

/-- Something a trace shows: a slot and the value it holds. -/
abbrev SlotEvent := Word × Word

def lastValue (events : List SlotEvent) (slot : Word) : Word :=
  ((events.filter (·.1 = slot)).getLast?.map (·.2)).getD .zero

/-- What the step at `j` loads: the slot on top of its stack has the value on top of the next. -/
def loadAt (steps : List Step) (j : Nat) : List SlotEvent :=
  match steps[j]?, steps[j + 1]? with
  | some step, some next =>
    if step.executes "SLOAD" then
      match step.stack.getLast?, next.stack.getLast? with
      | some slot, some value => [(slot, value)]
      | _, _ => []
    else []
  | _, _ => []

def writeAt (steps : List Step) (j : Nat) : List SlotEvent :=
  match steps[j]?.bind Step.write with
  | some write => [(write.slot, write.value)]
  | none => []

/-- The events of the step at `j`: what it loads, and then what it writes. -/
def eventsAt (steps : List Step) (j : Nat) : List SlotEvent := loadAt steps j ++ writeAt steps j

/-- The events before the write of the step at `i`. -/
def eventsBefore (steps : List Step) (i : Nat) : List SlotEvent :=
  (List.range i).flatMap (eventsAt steps) ++ loadAt steps i

/-! ## The last values seen are those of the events -/

/-- For every slot, the value seen is that of the last event on it. -/
def ObservedStorage.Reflects (observed : ObservedStorage) (events : List SlotEvent) : Prop :=
  ∀ slot, observed.get slot = lastValue events slot

/-- An event sets the value of its slot and of no other. -/
theorem lastValue_concat (events : List SlotEvent) (slot value s : Word) :
    lastValue (events ++ [(slot, value)]) s = if s = slot then value else lastValue events s := by
  unfold lastValue
  by_cases h : s = slot
  · simp [h]
  · simp [h, Ne.symm h]

namespace ObservedStorage.Reflects

variable {observed : ObservedStorage} {events : List SlotEvent}

theorem empty : Reflects {} [] := fun _ => rfl

theorem observe (h : observed.Reflects events) (slot value : Word) :
    (observed.observe slot value).Reflects (events ++ [(slot, value)]) := by
  intro s
  rw [ObservedStorage.get_observe, lastValue_concat, h s]

/-- Looking at the load of a step adds what the step loads. -/
theorem afterLoad (h : observed.Reflects events) (before rest : List Step) (step : Step) :
    (observed.afterLoad step rest.head?).Reflects
      (events ++ loadAt (before ++ step :: rest) before.length) := by
  have hstep : (before ++ step :: rest)[before.length]? = some step := by simp
  have hnext : (before ++ step :: rest)[before.length + 1]? = rest.head? := by
    rw [List.getElem?_append_right (Nat.le_succ _), List.head?_eq_getElem?]
    simp
  unfold ObservedStorage.afterLoad loadAt Step.top?
  rw [hstep, hnext]
  cases rest.head? with
  | none => simpa using h
  | some next =>
    by_cases hload : step.executes "SLOAD" = true
    · simp only [hload, if_true, Option.bind_some]
      cases step.stack.getLast? with
      | none => simpa using h
      | some slot =>
        cases next.stack.getLast? with
        | none => simpa using h
        | some value => exact h.observe slot value
    · simpa [hload] using h

end ObservedStorage.Reflects

/-- The next step starts from the events before the write of this one, and the write. -/
theorem flatMap_eventsAt_succ (steps : List Step) (i : Nat) :
    (List.range (i + 1)).flatMap (eventsAt steps) = eventsBefore steps i ++ writeAt steps i := by
  simp [List.range_succ, eventsBefore, eventsAt]

/-- The changes from a step on, where the steps before it have shown `observed`. -/
theorem slotChangesFrom_eq {steps before rest : List Step} {observed : ObservedStorage}
    (hsteps : steps = before ++ rest)
    (h : observed.Reflects ((List.range before.length).flatMap (eventsAt steps))) :
    slotChangesFrom observed rest =
      (rest.zipIdx before.length).filterMap fun (step, i) => step.write.map fun write =>
        { slot := write.slot
          before := lastValue (eventsBefore steps i) write.slot
          after := write.value
          stepIndex := step.index } := by
  -- over the steps still to come, with the values that those before have shown
  induction rest generalizing observed before with
  | nil => rfl
  | cons step rest ih =>
    have hload : (observed.afterLoad step rest.head?).Reflects
        (eventsBefore steps before.length) := by
      rw [eventsBefore, hsteps]
      exact (hsteps ▸ h).afterLoad before rest step
    have hsteps' : steps = (before ++ [step]) ++ rest := by simp [hsteps]
    have hlength : (before ++ [step]).length = before.length + 1 := by simp
    have hstep : steps[before.length]? = some step := by simp [hsteps]
    rw [slotChangesFrom, List.zipIdx_cons, ← hlength]
    -- either way, what is seen after the step reflects the events the next one starts from
    cases hw : step.write with
    | none =>
      have hnext : writeAt steps before.length = [] := by simp [writeAt, hstep, hw]
      rw [← List.append_nil (eventsBefore steps before.length), ← hnext, ← flatMap_eventsAt_succ,
        ← hlength] at hload
      simp only [List.filterMap_cons, hw, Option.map_none, ih hsteps' hload]
    | some write =>
      have hnext : writeAt steps before.length = [(write.slot, write.value)] := by
        simp [writeAt, hstep, hw]
      have hwritten := hload.observe write.slot write.value
      rw [← hnext, ← flatMap_eventsAt_succ, ← hlength] at hwritten
      simp only [List.filterMap_cons, hw, Option.map_some, ih hsteps' hwritten, hload write.slot]

/-- **The changes of a trace, read off its events**: one for each step with a write, in the order
of the steps, with the value of the last event on the slot before the write. -/
theorem slotChanges_eq_of_events (steps : List Step) :
    slotChanges steps =
      steps.zipIdx.filterMap fun (step, i) => step.write.map fun write =>
        { slot := write.slot
          before := lastValue (eventsBefore steps i) write.slot
          after := write.value
          stepIndex := step.index } := by
  have hsteps : steps = [] ++ steps := rfl
  exact slotChangesFrom_eq hsteps .empty

end TxForensics
