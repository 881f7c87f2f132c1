import Mathlib.Data.List.Chain
import TxForensics.Proofs.Trace.Check

/-!
# Logs accepted and refused

A check goes through the words of a trace in one order: step by step, in a step the stack from its
bottom and then the memory. `logWords` lists them in that order, and the check refuses the trace
with the error of the first one that is invalid (`checkSteps_eq_error_iff`).

If none is, every log becomes the step at its position (`StepOf`). Of the other logs a step depends
on the gas of the one before only, since a cost that is not reported is the gas that has gone since:

    gas       1000   997   994   991
    reported     –     –     7     –
    cost         0     3     7     3

Where no cost is reported and the gas never grows, the gas that is gone at the last step is what all
the steps have cost (`totalCost_checkSteps`).
-/

namespace TxForensics

/-! ## The first invalid word -/

def refusal? : Except ε α → Option ε
  | .ok _ => none
  | .error e => some e

theorem refusal?_eq_some_iff {result : Except ε α} {e : ε} :
    refusal? result = some e ↔ result = .error e := by
  cases result <;> simp [refusal?]

inductive LogWord where
  | stack (step position : Nat) (text : String)
  | memory (step position : Nat) (text : String)

/-- Why a word is not accepted. -/
def LogWord.error? : LogWord → Option TraceError
  | .stack step position text => (refusal? (Word.parse text)).map (.stackWord step position)
  | .memory step position text =>
    (refusal? (Hex.decode text.toList)).map (.memoryWord step position)

/-- The words of the log of a step: the stack from its bottom, then the memory. -/
def StepLog.words (log : StepLog) (step : Nat) : List LogWord :=
  log.stack.zipIdx.map (fun (text, position) => .stack step position text) ++
    (log.memory.getD []).zipIdx.map fun (text, position) => .memory step position text

def logWords (logs : List StepLog) : List LogWord :=
  logs.zipIdx.flatMap fun (log, step) => log.words step

/-- `e` is the error of the first invalid word. -/
def FirstInvalid (logs : List StepLog) (e : TraceError) : Prop :=
  ∃ before word after, logWords logs = before ++ word :: after ∧ word.error? = some e ∧
    ∀ w ∈ before, w.error? = none

/-- A check one by one is refused for the first that is, with its position. -/
theorem refusal?_checkAll (check : α → Except ε β) (position : Nat) (as : List α) :
    refusal? (checkAll check position as) =
      (as.zipIdx position).findSome? fun (a, position) =>
        (refusal? (check a)).map (position, ·) := by
  induction as generalizing position with
  | nil => rfl
  | cons a as ih =>
    rw [checkAll, List.zipIdx_cons, List.findSome?_cons, ← ih (position + 1)]
    dsimp only
    cases check a with
    | error e => rfl
    | ok b => cases checkAll check (position + 1) as <;> rfl

/-- Words that are checked one after the other are refused for the first that is. -/
theorem map_refusal?_checkAll {check : String → Except ε β} {cause : Nat → ε → TraceError}
    {word : Nat → String → LogWord}
    (h : ∀ position text,
      (word position text).error? = (refusal? (check text)).map (cause position))
    (texts : List String) :
    (refusal? (checkAll check 0 texts)).map (fun (position, e) => cause position e) =
      (texts.zipIdx.map fun (text, position) => word position text).findSome?
        LogWord.error? := by
  rw [refusal?_checkAll, List.map_findSome?, List.findSome?_map]
  congr 1
  funext ⟨text, position⟩
  show ((refusal? (check text)).map _).map _ = (word position text).error?
  rw [h, Option.map_map]
  rfl

theorem refusal?_stackWords (log : StepLog) (step : Nat) :
    refusal? (log.stackWords step) =
      (log.stack.zipIdx.map fun (text, position) => LogWord.stack step position text).findSome?
        LogWord.error? := by
  refine Eq.trans ?_ (map_refusal?_checkAll (fun _ _ => rfl) log.stack)
  unfold StepLog.stackWords
  cases checkAll Word.parse 0 log.stack <;> rfl

theorem refusal?_memoryBytes (log : StepLog) (step : Nat) :
    refusal? (log.memoryBytes step) =
      ((log.memory.getD []).zipIdx.map fun (text, position) =>
        LogWord.memory step position text).findSome? LogWord.error? := by
  unfold StepLog.memoryBytes
  cases log.memory with
  | none => rfl
  | some words =>
    refine Eq.trans ?_ (map_refusal?_checkAll (fun _ _ => rfl) words)
    dsimp only
    cases checkAll (fun word => Hex.decode word.toList) 0 words <;> rfl

/-- The check of a trace is refused for the first word that is. -/
theorem refusal?_checkFrom (index : Nat) (gasBefore : Option UInt64) (logs : List StepLog) :
    refusal? (checkFrom index gasBefore logs) =
      ((logs.zipIdx index).flatMap fun (log, step) => log.words step).findSome?
        LogWord.error? := by
  -- over the logs; in each the stack comes before the memory
  induction logs generalizing index gasBefore with
  | nil => rfl
  | cons log logs ih =>
    have hwords : (log.words index).findSome? LogWord.error? =
        (refusal? (log.stackWords index)).or (refusal? (log.memoryBytes index)) := by
      rw [StepLog.words, List.findSome?_append, ← refusal?_stackWords, ← refusal?_memoryBytes]
    rw [List.zipIdx_cons, List.flatMap_cons, List.findSome?_append, hwords,
      ← ih (index + 1) (some log.gas), checkFrom]
    cases log.stackWords index with
    | error e => rfl
    | ok stack =>
      cases log.memoryBytes index with
      | error e => rfl
      | ok memory => cases checkFrom (index + 1) (some log.gas) logs <;> rfl

/-- **The error of a trace** is that of its first invalid word. -/
theorem checkSteps_eq_error_iff {logs : List StepLog} {e : TraceError} :
    checkSteps logs = .error e ↔ FirstInvalid logs e := by
  rw [← refusal?_eq_some_iff, checkSteps, refusal?_checkFrom, List.findSome?_eq_some_iff]
  rfl

example : refusal? (checkSteps [{ stack := ["0x1", "xyz"], memory := some ["xyz"] }]) =
    (refusal? (Word.parse "xyz")).map (.stackWord 0 1) := by
  rfl

/-! ## The words of a step -/

/-- A check that succeeds has checked every one. -/
theorem map_checkAll {check : α → Except ε β} {position : Nat} {as : List α} {bs : List β}
    (h : checkAll check position as = .ok bs) : as.map check = bs.map .ok := by
  induction as generalizing position bs with
  | nil =>
    cases h
    rfl
  | cons a as ih =>
    rw [checkAll] at h
    cases ha : check a with
    | error e => simp [ha] at h
    | ok b =>
      cases hrest : checkAll check (position + 1) as with
      | error e => simp [ha, hrest] at h
      | ok rest =>
        obtain rfl : b :: rest = bs := by simpa [ha, hrest] using h
        rw [List.map_cons, List.map_cons, ha, ih hrest]

theorem map_stackWords {log : StepLog} {step : Nat} {stack : List Word}
    (h : log.stackWords step = .ok stack) : log.stack.map Word.parse = stack.map .ok := by
  rw [StepLog.stackWords] at h
  cases hcheck : checkAll Word.parse 0 log.stack with
  | error e => simp [hcheck] at h
  | ok words =>
    obtain rfl : words = stack := by simpa [hcheck] using h
    exact map_checkAll hcheck

namespace Step

/-- The last two words of a stack are at its end. -/
theorem top_and_second_iff {s : Step} {slot value : Word} :
    s.top? = some slot ∧ s.second? = some value ↔ ∃ below, s.stack = below ++ [value, slot] := by
  simp only [top?, second?, List.getLast?_eq_some_iff]
  constructor
  · rintro ⟨⟨front, hfront⟩, below, hbelow⟩
    rw [hfront, List.dropLast_concat] at hbelow
    exact ⟨below, by rw [hfront, hbelow, List.append_assoc]; rfl⟩
  · rintro ⟨below, hstack⟩
    have hconcat : s.stack = (below ++ [value]) ++ [slot] := by
      rw [hstack, List.append_assoc]
      rfl
    exact ⟨⟨_, hconcat⟩, below, by rw [hconcat, List.dropLast_concat]⟩

/-- A step writes when it executes a store: the slot is the last word of the stack, the value the
one before. -/
theorem writeFromStack?_eq_some_iff {s : Step} {w : SlotWrite} :
    s.writeFromStack? = some w ↔
      s.executes "SSTORE" ∧ ∃ below, s.stack = below ++ [w.value, w.slot] := by
  rw [← top_and_second_iff, writeFromStack?]
  cases s.executes "SSTORE" with
  | false => simp
  | true =>
    cases s.top? with
    | none => simp
    | some slot =>
      cases s.second? with
      | none => simp
      | some value => cases w; simp

/-- A store with two words on the stack writes, and nothing else does. -/
theorem isSome_writeFromStack?_iff {s : Step} :
    s.writeFromStack?.isSome ↔ s.executes "SSTORE" ∧ 2 ≤ s.stack.length := by
  simp only [Option.isSome_iff_exists, writeFromStack?_eq_some_iff, exists_and_left]
  apply and_congr_right
  intro
  constructor
  · rintro ⟨w, below, hstack⟩
    simp [hstack]
  · intro hlength
    obtain hnil | ⟨front, slot, hfront⟩ := s.stack.eq_nil_or_concat
    · simp [hnil] at hlength
    obtain rfl | ⟨below, value, rfl⟩ := front.eq_nil_or_concat
    · simp [hfront] at hlength
    exact ⟨⟨slot, value⟩, below, by simp [hfront]⟩

theorem executes_sstore_iff {s : Step} :
    s.executes "SSTORE" ↔ s.op.toList.map Char.toLower = "sstore".toList := by
  rw [executes, sameMnemonic, beq_iff_eq]
  rfl

end Step

/-! ## The step of every log -/

/-- The gas that has gone since the log before. -/
def StepLog.gasSince (log : StepLog) : Option StepLog → Nat
  | none => 0
  | some before => before.gas.toNat - log.gas.toNat

/-- A step costs what its log reports, or the gas that has gone since the log before. -/
theorem toNat_cost (log : StepLog) (before : Option StepLog) :
    (log.cost (before.map StepLog.gas)).toNat =
      (log.gasCost.map UInt64.toNat).getD (log.gasSince before) := by
  unfold StepLog.cost
  cases log.gasCost with
  | some cost => rfl
  | none =>
    cases before with
    | none => rfl
    | some before =>
      show (if log.gas ≤ before.gas then before.gas - log.gas else 0).toNat =
        before.gas.toNat - log.gas.toNat
      split
      case isTrue hle => exact UInt64.toNat_sub_of_le _ _ hle
      case isFalse hlt =>
        rw [UInt64.le_iff_toNat_le] at hlt
        have hzero : (0 : UInt64).toNat = 0 := rfl
        omega

/-- What a step has of its log and of the log before. -/
structure StepOf (position : Nat) (before : Option StepLog) (log : StepLog) (step : Step) :
    Prop where
  index : step.index.toNat = position
  pc : step.pc = log.pc
  op : step.op = log.op
  gasRemaining : step.gasRemaining = log.gas
  depth : step.depth = log.depth
  gasCost : step.gasCost.toNat = (log.gasCost.map UInt64.toNat).getD (log.gasSince before)
  stack : log.stack.map Word.parse = step.stack.map .ok
  stores : step.write.isSome ↔
    log.op.toList.map Char.toLower = "sstore".toList ∧ 2 ≤ log.stack.length
  write : ∀ w, step.write = some w → ∃ below, step.stack = below ++ [w.value, w.slot]

theorem stepOf_checked {log : StepLog} {position : Nat} {before : Option StepLog}
    {stack : List Word} {memory : Option Bytes} (hsize : position < 2 ^ 32)
    (hstack : log.stackWords position = .ok stack) :
    StepOf position before log
      (log.checked position (before.map StepLog.gas) stack memory) where
  index := UInt32.toNat_ofNat_of_lt' hsize
  pc := rfl
  op := rfl
  gasRemaining := rfl
  depth := rfl
  gasCost := toNat_cost log before
  stack := map_stackWords hstack
  stores := by
    have hlength : log.stack.length = stack.length := by
      simpa using congrArg List.length (map_stackWords hstack)
    rw [hlength]
    exact Step.isSome_writeFromStack?_iff.trans (and_congr_left' Step.executes_sstore_iff)
  write _ hwrite := (Step.writeFromStack?_eq_some_iff.mp hwrite).2

/-- The log before a position of logs that come after `before`. -/
def logBefore? (before : Option StepLog) (logs : List StepLog) : Nat → Option StepLog
  | 0 => before
  | position + 1 => logs[position]?

/-- The step of a log is what its checked words make of it. -/
theorem checked_of_checkFrom {index : Nat} {before : Option StepLog} {logs : List StepLog}
    {steps : List Step} (h : checkFrom index (before.map StepLog.gas) logs = .ok steps) {i : Nat}
    {log : StepLog} {step : Step} (hlog : logs[i]? = some log) (hstep : steps[i]? = some step) :
    ∃ stack memory, log.stackWords (index + i) = .ok stack ∧
      log.memoryBytes (index + i) = .ok memory ∧
      step =
        log.checked (index + i) ((logBefore? before logs i).map StepLog.gas) stack memory := by
  -- over the logs; the log before the rest is the first one
  induction logs generalizing index before steps i with
  | nil => simp at hlog
  | cons first logs ih =>
    obtain ⟨stack, memory, rest, hstack, hmemory, hrest, rfl⟩ := checkFrom_cons_eq_ok h
    cases i with
    | zero =>
      obtain rfl : first = log := by simpa using hlog
      obtain rfl : first.checked index (before.map StepLog.gas) stack memory = step := by
        simpa using hstep
      exact ⟨stack, memory, hstack, hmemory, rfl⟩
    | succ i =>
      have hbefore : logBefore? before (first :: logs) (i + 1) =
          logBefore? (some first) logs i := by cases i <;> rfl
      rw [hbefore, Nat.add_comm i, ← Nat.add_assoc]
      exact ih hrest hlog hstep

/-- Each step is one of its log and of the log before. -/
theorem stepOf_checkFrom {index : Nat} {before : Option StepLog} {logs : List StepLog}
    {steps : List Step} (h : checkFrom index (before.map StepLog.gas) logs = .ok steps)
    (hsize : index + logs.length < 2 ^ 32) {i : Nat} {log : StepLog} {step : Step}
    (hlog : logs[i]? = some log) (hstep : steps[i]? = some step) :
    StepOf (index + i) (logBefore? before logs i) log step := by
  obtain ⟨hi, -⟩ := List.getElem?_eq_some_iff.mp hlog
  obtain ⟨stack, memory, hstack, -, rfl⟩ := checked_of_checkFrom h hlog hstep
  exact stepOf_checked (by omega) hstack

/-! ## What all steps cost -/

def totalCost : List Step → Nat
  | [] => 0
  | step :: steps => step.gasCost.toNat + totalCost steps

/-- Where no cost is reported, the costs telescope. -/
theorem totalCost_checkFrom {index : Nat} {before : StepLog} {logs : List StepLog}
    {steps : List Step} (h : checkFrom index (some before.gas) logs = .ok steps)
    (hreported : ∀ log ∈ logs, log.gasCost = none)
    (hfalls : (before :: logs).IsChain fun a b => b.gas ≤ a.gas) {last : StepLog}
    (hlast : (before :: logs).getLast? = some last) :
    totalCost steps + last.gas.toNat = before.gas.toNat := by
  -- over the logs, with the gas at the log before
  induction logs generalizing index before steps with
  | nil =>
    cases h
    obtain rfl : before = last := by simpa using hlast
    exact Nat.zero_add _
  | cons log logs ih =>
    obtain ⟨stack, memory, rest, -, -, hrest, rfl⟩ := checkFrom_cons_eq_ok h
    obtain ⟨hle, hfalls⟩ := List.isChain_cons_cons.mp hfalls
    rw [List.getLast?_cons_cons] at hlast
    have hcost : (log.cost (some before.gas)).toNat = before.gas.toNat - log.gas.toNat := by
      rw [show some before.gas = (some before).map StepLog.gas from rfl, toNat_cost,
        hreported log List.mem_cons_self]
      rfl
    have hgas : totalCost rest + last.gas.toNat = log.gas.toNat :=
      ih hrest (fun log hmem => hreported log (List.mem_cons_of_mem _ hmem)) hfalls hlast
    rw [UInt64.le_iff_toNat_le] at hle
    calc totalCost (log.checked index (some before.gas) stack memory :: rest) + last.gas.toNat
        = (log.cost (some before.gas)).toNat + (totalCost rest + last.gas.toNat) :=
          Nat.add_assoc ..
      _ = before.gas.toNat := by
          rw [hcost, hgas]
          omega

/-- If no cost is reported and the gas never grows, the steps cost what is gone at the last one. -/
theorem totalCost_checkSteps {logs : List StepLog} {steps : List Step}
    (h : checkSteps logs = .ok steps) {first last : StepLog} (hfirst : logs.head? = some first)
    (hlast : logs.getLast? = some last) (hreported : ∀ log ∈ logs, log.gasCost = none)
    (hfalls : logs.IsChain fun a b => b.gas ≤ a.gas) :
    totalCost steps + last.gas.toNat = first.gas.toNat := by
  obtain ⟨logs, rfl⟩ := List.head?_eq_some_iff.mp hfirst
  obtain ⟨stack, memory, rest, -, -, hrest, rfl⟩ := checkFrom_cons_eq_ok h
  have hcost : (first.cost none).toNat = 0 := by
    rw [show (none : Option UInt64) = (none : Option StepLog).map StepLog.gas from rfl, toNat_cost,
      hreported first List.mem_cons_self]
    rfl
  have hgas : totalCost rest + last.gas.toNat = first.gas.toNat :=
    totalCost_checkFrom hrest (fun log hmem => hreported log (List.mem_cons_of_mem _ hmem)) hfalls
      hlast
  calc totalCost (first.checked 0 none stack memory :: rest) + last.gas.toNat
      = (first.cost none).toNat + (totalCost rest + last.gas.toNat) := Nat.add_assoc ..
    _ = first.gas.toNat := by rw [hcost, hgas, Nat.zero_add]

/-- There is one step for each log. -/
theorem length_checkSteps {logs : List StepLog} {steps : List Step}
    (h : checkSteps logs = .ok steps) : steps.length = logs.length := by
  have hlength := congrArg List.length (map_bare_checkSteps h)
  rw [List.length_map, bareSteps, List.length_map, List.length_zipIdx] at hlength
  exact hlength

/-- **Traces are checked step by step.** A trace is refused when a word of it is invalid, for the
first one that is. Otherwise it becomes one step per log, each with what its log says, and if no
cost is reported and the gas never grows, the steps cost the gas that is gone at the last one. -/
theorem checked_step_by_step {logs : List StepLog} (hsize : logs.length < 2 ^ 32) :
    ((∃ e, checkSteps logs = .error e) ↔ ∃ log ∈ logs, log.HasInvalidWord) ∧
      (∀ e, checkSteps logs = .error e ↔ FirstInvalid logs e) ∧
      ∀ steps, checkSteps logs = .ok steps →
        steps.length = logs.length ∧
        (∀ i log step, logs[i]? = some log → steps[i]? = some step →
          StepOf i (logBefore? none logs i) log step) ∧
        ∀ first last, logs.head? = some first → logs.getLast? = some last →
          (∀ log ∈ logs, log.gasCost = none) → (logs.IsChain fun a b => b.gas ≤ a.gas) →
          totalCost steps + last.gas.toNat = first.gas.toNat := by
  refine ⟨checkSteps_fails_iff, fun e => checkSteps_eq_error_iff, fun steps h =>
    ⟨length_checkSteps h, ?_, ?_⟩⟩
  · intro i log step hlog hstep
    have hrun : checkFrom 0 ((none : Option StepLog).map StepLog.gas) logs = .ok steps := h
    have hof := stepOf_checkFrom hrun (by omega) hlog hstep
    rwa [Nat.zero_add] at hof
  · intro first last hfirst hlast hreported hfalls
    exact totalCost_checkSteps h hfirst hlast hreported hfalls

def pushPushStore : List StepLog :=
  [{ op := "PUSH1", gas := 1000 }, { op := "PUSH1", gas := 997, stack := ["0x2a"] },
    { op := "sstore", gas := 994, stack := ["0x2a", "0x1"] }]

theorem checked_step_by_step_store :
    pushPushStore.length < 2 ^ 32 ∧ ∃ steps, checkSteps pushPushStore = .ok steps ∧
      totalCost steps = 6 ∧ ∃ step ∈ steps, step.index.toNat = 2 ∧ step.gasCost.toNat = 3 ∧
        step.write.isSome := by
  have hsize : pushPushStore.length < 2 ^ 32 := by decide
  obtain ⟨-, -, haccepted⟩ := checked_step_by_step hsize
  cases h : checkSteps pushPushStore with
  | error e =>
    have hok : (checkSteps pushPushStore).isOk := by decide +kernel
    rw [h] at hok
    cases hok
  | ok steps =>
    obtain ⟨hlength, hof, hcost⟩ := haccepted steps h
    have hgas : totalCost steps + 994 = 1000 :=
      hcost _ _ rfl rfl (by decide) (by simp [pushPushStore])
    have hlast : 2 < steps.length := hlength ▸ by decide
    have hstep := hof 2 _ steps[2] rfl (List.getElem?_eq_getElem hlast)
    exact ⟨hsize, steps, rfl, by omega, steps[2], List.getElem_mem hlast, hstep.index,
      hstep.gasCost, hstep.stores.mpr ⟨by decide, by decide⟩⟩

end TxForensics
