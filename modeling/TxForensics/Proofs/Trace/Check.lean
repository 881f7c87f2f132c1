import TxForensics.Trace.Check

/-!
# What checking keeps of the logs, and when it fails

A checked step has the pc, the mnemonic and the depth of its log, and its position in the trace as
its index. `Step.bare` is a step reduced to these four; they come from the logs alone, whatever the
stacks, the memory and the gas are:

    map_bare_checkSteps : checkSteps logs = .ok steps → steps.map Step.bare = bareSteps logs

A check fails when a stack text spells no word or a memory text is no hex, and for no other reason
(`checkSteps_fails_iff`).
-/

namespace TxForensics

/-- A step with nothing but its index, pc, mnemonic and depth. -/
def Step.bare (s : Step) : Step :=
  { index := s.index, pc := s.pc, op := s.op, depth := s.depth }

/-- The bare step of a log at a position of the trace. -/
def StepLog.bareStep (log : StepLog) (position : Nat) : Step :=
  { index := position.toUInt32, pc := log.pc, op := log.op, depth := log.depth }

def bareSteps (logs : List StepLog) : List Step :=
  logs.zipIdx.map fun (log, position) => log.bareStep position

/-- The step of a log whose words have been checked, if `gasBefore` is left at the step before. -/
def StepLog.checked (log : StepLog) (position : Nat) (gasBefore : Option UInt64)
    (stack : List Word) (memory : Option Bytes) : Step :=
  let step : Step :=
    { log.bareStep position with
      gasRemaining := log.gas, gasCost := log.cost gasBefore, stack, memory }
  { step with write := step.writeFromStack? }

/-- What there is to a check of at least one log that succeeds. -/
theorem checkFrom_cons_eq_ok {index : Nat} {gasBefore : Option UInt64} {log : StepLog}
    {logs : List StepLog} {steps : List Step}
    (h : checkFrom index gasBefore (log :: logs) = .ok steps) :
    ∃ stack memory rest, log.stackWords index = .ok stack ∧ log.memoryBytes index = .ok memory ∧
      checkFrom (index + 1) (some log.gas) logs = .ok rest ∧
      steps = log.checked index gasBefore stack memory :: rest := by
  rw [checkFrom] at h
  cases hstack : log.stackWords index with
  | error e =>
    rw [hstack] at h
    cases h
  | ok stack =>
    cases hmemory : log.memoryBytes index with
    | error e =>
      rw [hstack, hmemory] at h
      cases h
    | ok memory =>
      cases hrest : checkFrom (index + 1) (some log.gas) logs with
      | error e =>
        rw [hstack, hmemory] at h
        simp only [bind, Except.bind, hrest] at h
        cases h
      | ok rest =>
        rw [hstack, hmemory] at h
        simp only [bind, Except.bind, hrest] at h
        exact ⟨stack, memory, rest, rfl, rfl, rfl, (Except.ok.inj h).symm⟩

/-- The same from any position on. -/
theorem map_bare_checkFrom {index : Nat} {gasBefore : Option UInt64} {logs : List StepLog}
    {steps : List Step} (h : checkFrom index gasBefore logs = .ok steps) :
    steps.map Step.bare =
      (logs.zipIdx index).map fun (log, position) => log.bareStep position := by
  induction logs generalizing index gasBefore steps with
  | nil =>
    cases h
    rfl
  | cons log logs ih =>
    obtain ⟨stack, memory, rest, -, -, hrest, rfl⟩ := checkFrom_cons_eq_ok h
    rw [List.map_cons, ih hrest, List.zipIdx_cons, List.map_cons]
    rfl

/-- Checked steps are those of their logs, one for one. -/
theorem map_bare_checkSteps {logs : List StepLog} {steps : List Step}
    (h : checkSteps logs = .ok steps) : steps.map Step.bare = bareSteps logs :=
  map_bare_checkFrom h

variable {logs : List StepLog} {steps : List Step}

/-- The mnemonics are those of the logs. -/
theorem map_op_checkSteps (h : checkSteps logs = .ok steps) :
    steps.map Step.op = logs.map StepLog.op := by
  have hbare := congrArg (List.map Step.op) (map_bare_checkSteps h)
  rw [List.map_map, bareSteps, List.map_map] at hbare
  calc steps.map Step.op = logs.zipIdx.map (StepLog.op ∘ Prod.fst) := hbare
    _ = logs.map StepLog.op := by rw [← List.map_map, List.zipIdx_map_fst]

/-- Only a trace without logs has no steps. -/
theorem checkSteps_eq_nil_iff (h : checkSteps logs = .ok steps) : steps = [] ↔ logs = [] := by
  have hlength := congrArg List.length (map_bare_checkSteps h)
  rw [bareSteps, List.length_map, List.length_map, List.length_zipIdx] at hlength
  rw [← List.length_eq_zero_iff, hlength, List.length_eq_zero_iff]

/-- A checked step has its position as its index. -/
theorem index_of_checkSteps {before after : List Step} {step : Step}
    (h : checkSteps logs = .ok (before ++ step :: after)) :
    step.index = before.length.toUInt32 := by
  have hat := congrArg (fun steps : List Step => steps[before.length]?) (map_bare_checkSteps h)
  simp only [List.getElem?_map, List.getElem?_append_right,
    Nat.le_refl, Nat.sub_self, List.getElem?_cons_zero, Option.map_some, bareSteps,
    List.getElem?_zipIdx, Option.map_map] at hat
  obtain ⟨log, -, hlog⟩ := Option.map_eq_some_iff.mp hat.symm
  have hindex := congrArg Step.index hlog
  simpa [StepLog.bareStep, Step.bare] using hindex.symm

/-! ## When a check fails -/

/-- A log with a stack text that spells no word, or a memory text that is no hex. -/
def StepLog.HasInvalidWord (log : StepLog) : Prop :=
  (∃ text ∈ log.stack, ∃ e, Word.parse text = .error e) ∨
    ∃ text ∈ log.memory.getD [], ∃ e, Hex.decode text.toList = .error e

/-- A check one by one fails when one of them does. -/
theorem checkAll_fails_iff {check : α → Except ε β} (position : Nat) {as : List α} :
    (∃ e, checkAll check position as = .error e) ↔ ∃ a ∈ as, ∃ e, check a = .error e := by
  induction as generalizing position with
  | nil => simp [checkAll]
  | cons a as ih =>
    simp only [checkAll, List.mem_cons, exists_eq_or_imp]
    cases ha : check a with
    | error e => simp
    | ok b =>
      rw [← ih (position + 1)]
      cases checkAll check (position + 1) as <;> simp

theorem stackWords_fails_iff (index : Nat) {log : StepLog} :
    (∃ e, log.stackWords index = .error e) ↔
      ∃ text ∈ log.stack, ∃ e, Word.parse text = .error e := by
  rw [StepLog.stackWords, ← checkAll_fails_iff 0]
  cases checkAll Word.parse 0 log.stack <;> simp

theorem memoryBytes_fails_iff (index : Nat) {log : StepLog} :
    (∃ e, log.memoryBytes index = .error e) ↔
      ∃ text ∈ log.memory.getD [], ∃ e, Hex.decode text.toList = .error e := by
  unfold StepLog.memoryBytes
  cases log.memory with
  | none => simp
  | some words =>
    dsimp only
    rw [Option.getD_some, ← checkAll_fails_iff 0]
    cases checkAll (fun word => Hex.decode word.toList) 0 words <;> simp

/-- From any position on, the check fails at an invalid word and at nothing else. -/
theorem checkFrom_fails_iff (index : Nat) (gasBefore : Option UInt64) :
    (∃ e, checkFrom index gasBefore logs = .error e) ↔ ∃ log ∈ logs, log.HasInvalidWord := by
  induction logs generalizing index gasBefore with
  | nil => simp [checkFrom]
  | cons log logs ih =>
    simp only [List.mem_cons, exists_eq_or_imp]
    rw [StepLog.HasInvalidWord, ← stackWords_fails_iff index, ← memoryBytes_fails_iff index,
      ← ih (index + 1) (some log.gas), checkFrom]
    -- the check asks for the stack, then the memory, then the logs behind
    cases log.stackWords index with
    | error e => simp [bind, Except.bind]
    | ok stack =>
      cases log.memoryBytes index with
      | error e => simp [bind, Except.bind]
      | ok memory =>
        cases checkFrom (index + 1) (some log.gas) logs <;>
          simp [bind, Except.bind, pure, Except.pure]

/-- The check of a trace fails when one of its words is invalid, and only then. -/
theorem checkSteps_fails_iff :
    (∃ e, checkSteps logs = .error e) ↔ ∃ log ∈ logs, log.HasInvalidWord :=
  checkFrom_fails_iff 0 none

end TxForensics
