import TxForensics.Proofs.Text.Spelling
import TxForensics.Proofs.Trace.Acceptance
import TxForensics.Trace.Draft

/-!
# Traces that are built

A trace is built by calls: some add a step, the others set what holds of the trace or of the steps
from there on. What a draft has behind calls is told by the calls themselves, and each call keeps it
so (`TraceDraft.Reflects`):

    calls   step a   setDepth 2   step b   setFailed true   step c
    depth     1                     2                         2        the last one given, 1 if none
    gas     100000                99997                     99994      3 less for each step before

The words of a stack are given as numbers and written in hexadecimal, so a check accepts every trace
that is built, and reads the numbers back.
-/

namespace TxForensics

/-- A call on a draft, with the stack of a step in numbers, bottom first. -/
inductive DraftCall where
  | setDepth (depth : UInt32)
  | step (pc : UInt32) (op : String) (stack : List UInt64)
  | setFailed (failed : Bool)
  | setReturnValue (value : String)
  | setRevertReason (reason : String)

def TraceDraft.call (b : TraceDraft) : DraftCall → TraceDraft
  | .setDepth depth => b.setDepth depth
  | .step pc op stack => b.step pc op stack
  | .setFailed failed => b.setFailed failed
  | .setReturnValue value => b.setReturnValue value
  | .setRevertReason reason => b.setRevertReason reason

def builtTrace (calls : List DraftCall) : Trace := (calls.foldl TraceDraft.call {}).trace

/-! ## What calls say -/

namespace DraftCall

def isStep : DraftCall → Bool
  | step .. => true
  | _ => false

def depth? : DraftCall → Option UInt32
  | setDepth depth => some depth
  | _ => none

def failed? : DraftCall → Option Bool
  | setFailed failed => some failed
  | _ => none

def returnValue? : DraftCall → Option String
  | setReturnValue value => some value
  | _ => none

def revertReason? : DraftCall → Option String
  | setRevertReason reason => some reason
  | _ => none

end DraftCall

def stepCount (calls : List DraftCall) : Nat := calls.countP DraftCall.isStep

/-- The last value given by calls, of the kind that `value?` reads. -/
def lastGiven (value? : DraftCall → Option α) (calls : List DraftCall) : Option α :=
  (calls.filterMap value?).getLast?

/-- The depth of a step that is added behind calls. -/
def depthBehind (calls : List DraftCall) : UInt32 := (lastGiven DraftCall.depth? calls).getD 1

def gasBehind (steps : Nat) : Nat := 100000 - 3 * steps

def writtenWord (word : UInt64) : String := Text.Numeral.hex 1 word.toNat

/-- The log of a step that is added behind calls. -/
def logBehind (before : List DraftCall) (pc : UInt32) (op : String) (stack : List UInt64) :
    StepLog :=
  { pc, op
    gas := .ofNat (gasBehind (stepCount before))
    stack := stack.map writtenWord
    depth := depthBehind before }

theorem toNat_gas_logBehind (before : List DraftCall) (pc : UInt32) (op : String)
    (stack : List UInt64) :
    (logBehind before pc op stack).gas.toNat = gasBehind (stepCount before) := by
  apply UInt64.toNat_ofNat_of_lt'
  show 100000 - 3 * stepCount before < 2 ^ 64
  omega

variable {calls before rest : List DraftCall} {pc : UInt32} {op : String} {stack : List UInt64}

/-- A call adds a step if it is one. -/
theorem stepCount_concat (calls : List DraftCall) (call : DraftCall) :
    stepCount (calls ++ [call]) = stepCount calls + if call.isStep then 1 else 0 := by
  rw [stepCount, List.countP_append, List.countP_singleton]
  rfl

/-- The last value is that of the call, if it gives one. -/
theorem lastGiven_concat (value? : DraftCall → Option α) (calls : List DraftCall)
    (call : DraftCall) :
    lastGiven value? (calls ++ [call]) = (value? call).or (lastGiven value? calls) := by
  unfold lastGiven
  cases h : value? call <;> simp [h]

/-- A step among calls with one more behind them is one of the others or that one. -/
theorem eq_append_or_eq_step {call : DraftCall}
    (h : calls ++ [call] = before ++ .step pc op stack :: rest) :
    (∃ rest', calls = before ++ .step pc op stack :: rest') ∨
      (calls = before ∧ call = .step pc op stack) := by
  obtain rfl | ⟨rest', last, rfl⟩ := rest.eq_nil_or_concat
  · obtain ⟨hcalls, hcall⟩ := List.append_inj' h rfl
    exact .inr ⟨hcalls, (List.cons.inj hcall).1⟩
  · rw [List.concat_eq_append, ← List.cons_append, ← List.append_assoc] at h
    exact .inl ⟨rest', (List.append_inj' h rfl).1⟩

/-- The steps of calls are counted from zero. -/
theorem exists_step_of_lt {i : Nat} (h : i < stepCount calls) :
    ∃ before pc op stack rest, calls = before ++ .step pc op stack :: rest ∧
      stepCount before = i := by
  induction calls using List.reverseRecOn with
  | nil => cases h
  | append_singleton calls call ih =>
    -- a step among the calls before, or the last call
    by_cases hlt : i < stepCount calls
    · obtain ⟨before, pc, op, stack, rest, rfl, hcount⟩ := ih hlt
      exact ⟨before, pc, op, stack, rest ++ [call], by simp, hcount⟩
    · rw [stepCount_concat] at h
      cases call with
      | step pc op stack =>
        have hi : i < stepCount calls + 1 := h
        exact ⟨calls, pc, op, stack, [], rfl, by omega⟩
      | _ => exact absurd h hlt

/-! ## What a draft has behind calls -/

namespace TraceDraft

variable {b : TraceDraft}

/-- A draft has what calls say. -/
structure Reflects (b : TraceDraft) (calls : List DraftCall) : Prop where
  depth : b.depth = depthBehind calls
  gas : b.gas.toNat = gasBehind (stepCount calls)
  failed : b.trace.failed = lastGiven DraftCall.failed? calls
  returnValue : b.trace.returnValue = lastGiven DraftCall.returnValue? calls
  revertReason : b.trace.revertReason = lastGiven DraftCall.revertReason? calls
  length : b.trace.logs.length = stepCount calls
  log : ∀ before pc op stack rest, calls = before ++ .step pc op stack :: rest →
    b.trace.logs[stepCount before]? = some (logBehind before pc op stack)

theorem depth_call (b : TraceDraft) (call : DraftCall) :
    (b.call call).depth = call.depth?.getD b.depth := by
  cases call <;> rfl

theorem failed_call (b : TraceDraft) (call : DraftCall) :
    (b.call call).trace.failed = call.failed?.or b.trace.failed := by
  cases call <;> rfl

theorem returnValue_call (b : TraceDraft) (call : DraftCall) :
    (b.call call).trace.returnValue = call.returnValue?.or b.trace.returnValue := by
  cases call <;> rfl

theorem revertReason_call (b : TraceDraft) (call : DraftCall) :
    (b.call call).trace.revertReason = call.revertReason?.or b.trace.revertReason := by
  cases call <;> rfl

/-- A step takes 3 gas, as long as there is any. -/
theorem toNat_gas_call (b : TraceDraft) (call : DraftCall) :
    (b.call call).gas.toNat = b.gas.toNat - if call.isStep then 3 else 0 := by
  cases call with
  | step pc op stack =>
    show (if 3 ≤ b.gas then b.gas - 3 else 0).toNat = b.gas.toNat - 3
    split
    case isTrue hle => exact UInt64.toNat_sub_of_le _ _ hle
    case isFalse hlt =>
      rw [UInt64.le_iff_toNat_le] at hlt
      have hthree : (3 : UInt64).toNat = 3 := rfl
      have hzero : (0 : UInt64).toNat = 0 := rfl
      omega
  | _ => rfl

def addedLog? (b : TraceDraft) : DraftCall → Option StepLog
  | .step pc op stack =>
    some { pc, op, gas := b.gas, stack := stack.map writtenWord, depth := b.depth }
  | _ => none

/-- A call adds its log behind the others, if it has one. -/
theorem logs_call (b : TraceDraft) (call : DraftCall) :
    (b.call call).trace.logs = b.trace.logs ++ (b.addedLog? call).toList := by
  cases call with
  | step pc op stack => rfl
  | _ => exact (List.append_nil _).symm

theorem length_addedLog? (b : TraceDraft) (call : DraftCall) :
    (b.addedLog? call).toList.length = if call.isStep then 1 else 0 := by
  cases call <;> rfl

/-- The log of a step is the one that the calls before it say. -/
theorem addedLog?_step (h : b.Reflects calls) (pc : UInt32) (op : String) (stack : List UInt64) :
    b.addedLog? (.step pc op stack) = some (logBehind calls pc op stack) := by
  rw [addedLog?, logBehind, ← h.gas, UInt64.ofNat_toNat, h.depth]

theorem reflects_nil : Reflects {} [] where
  depth := rfl
  gas := rfl
  failed := rfl
  returnValue := rfl
  revertReason := rfl
  length := rfl
  log before pc op stack rest h := by simp at h

/-- A call adds to a draft what it says. -/
theorem Reflects.call (h : b.Reflects calls) (call : DraftCall) :
    (b.call call).Reflects (calls ++ [call]) where
  depth := by
    rw [depth_call, h.depth, depthBehind, depthBehind, lastGiven_concat]
    cases call.depth? <;> rfl
  gas := by
    rw [toNat_gas_call, h.gas, stepCount_concat, gasBehind, gasBehind]
    split <;> omega
  failed := by rw [failed_call, h.failed, lastGiven_concat]
  returnValue := by rw [returnValue_call, h.returnValue, lastGiven_concat]
  revertReason := by rw [revertReason_call, h.revertReason, lastGiven_concat]
  length := by rw [logs_call, List.length_append, h.length, length_addedLog?, stepCount_concat]
  log before pc op stack rest hsplit := by
    rw [logs_call]
    -- a step among the calls before keeps its log, and a last step has just got it
    obtain ⟨rest', hcalls⟩ | ⟨rfl, rfl⟩ := eq_append_or_eq_step hsplit
    · have hlog := h.log before pc op stack rest' hcalls
      obtain ⟨hlt, -⟩ := List.getElem?_eq_some_iff.mp hlog
      rw [List.getElem?_append_left hlt, hlog]
    · rw [List.getElem?_append_right (Nat.le_of_eq h.length), h.length, Nat.sub_self,
        addedLog?_step h]
      rfl

/-- What calls build has what they say. -/
theorem reflects_calls (calls : List DraftCall) :
    (calls.foldl TraceDraft.call {}).Reflects calls := by
  induction calls using List.reverseRecOn with
  | nil => exact reflects_nil
  | append_singleton calls call ih =>
    rw [List.foldl_append]
    exact ih.call call

end TraceDraft

/-! ## The check of what was built -/

theorem toNat_lt_word (word : UInt64) : word.toNat < 2 ^ 256 :=
  Nat.lt_of_lt_of_le word.toNat_lt (Nat.pow_le_pow_right Nat.two_pos (by decide))

/-- A word that is written is read back. -/
theorem parse_writtenWord (word : UInt64) :
    Word.parse (writtenWord word) = .ok (.ofNat word.toNat) :=
  Word.parse_hexNumeral (by decide) (toNat_lt_word word)

theorem toNat_of_parse_writtenWord {word : UInt64} {w : Word}
    (h : Word.parse (writtenWord word) = .ok w) : w.toNat = word.toNat := by
  rw [parse_writtenWord] at h
  obtain rfl := Except.ok.inj h
  exact Nat.mod_eq_of_lt (toNat_lt_word word)

/-- The words of a stack are the numbers it was given by. -/
theorem map_toNat_of_map_parse {words : List Word}
    (h : (stack.map writtenWord).map Word.parse = words.map .ok) :
    words.map Word.toNat = stack.map UInt64.toNat := by
  induction stack generalizing words with
  | nil =>
    obtain rfl := List.map_eq_nil_iff.mp h.symm
    rfl
  | cons word stack ih =>
    obtain ⟨w, words, rfl, hw, hwords⟩ := List.map_eq_cons_iff.mp h.symm
    rw [List.map_cons, List.map_cons, toNat_of_parse_writtenWord hw.symm, ih hwords.symm]

/-- No word of a built log is invalid. -/
theorem not_hasInvalidWord_logBehind : ¬ (logBehind before pc op stack).HasInvalidWord := by
  rintro (⟨text, htext, e, he⟩ | ⟨text, htext, -⟩)
  · obtain ⟨word, -, rfl⟩ := List.mem_map.mp htext
    rw [parse_writtenWord] at he
    cases he
  · cases htext

theorem length_builtTrace (calls : List DraftCall) :
    (builtTrace calls).logs.length = stepCount calls :=
  (TraceDraft.reflects_calls calls).length

/-- Every log of a built trace is the log of a step behind the calls before it. -/
theorem exists_logBehind {i : Nat} {log : StepLog} (h : (builtTrace calls).logs[i]? = some log) :
    ∃ before pc op stack rest, calls = before ++ .step pc op stack :: rest ∧
      stepCount before = i ∧ log = logBehind before pc op stack := by
  obtain ⟨hi, -⟩ := List.getElem?_eq_some_iff.mp h
  obtain ⟨before, pc, op, stack, rest, hcalls, rfl⟩ :=
    exists_step_of_lt (length_builtTrace calls ▸ hi)
  have hlog := (TraceDraft.reflects_calls calls).log before pc op stack rest hcalls
  exact ⟨before, pc, op, stack, rest, hcalls, rfl, Option.some.inj (h.symm.trans hlog)⟩

/-- So the check accepts what is built. -/
theorem exists_checkSteps (calls : List DraftCall) :
    ∃ steps, checkSteps (builtTrace calls).logs = .ok steps := by
  cases hcheck : checkSteps (builtTrace calls).logs with
  | ok steps => exact ⟨steps, rfl⟩
  | error e =>
    obtain ⟨log, hmem, hinvalid⟩ := checkSteps_fails_iff.mp ⟨e, hcheck⟩
    obtain ⟨i, hlog⟩ := List.mem_iff_getElem?.mp hmem
    obtain ⟨before, pc, op, stack, rest, -, -, rfl⟩ := exists_logBehind hlog
    exact absurd hinvalid not_hasInvalidWord_logBehind

def costBehind : Nat → Nat
  | 0 => 0
  | steps + 1 => gasBehind steps - gasBehind (steps + 1)

/-- The checked step of a step that is added behind calls. -/
structure StepBehind (before : List DraftCall) (counter : UInt32) (name : String)
    (words : List UInt64) (step : Step) : Prop where
  index : step.index = (stepCount before).toUInt32
  pc : step.pc = counter
  op : step.op = name
  depth : step.depth = depthBehind before
  gasRemaining : step.gasRemaining.toNat = gasBehind (stepCount before)
  gasCost : step.gasCost.toNat = costBehind (stepCount before)
  stack : step.stack.map Word.toNat = words.map UInt64.toNat
  memory : step.memory = none
  write : ∀ w, step.write = some w ↔ sameMnemonic name "SSTORE" ∧
    ∃ below value slot, words = below ++ [value, slot] ∧
      w.slot.toNat = slot.toNat ∧ w.value.toNat = value.toNat

/-- The gas since the log before is the cost of the step. -/
theorem gasSince_logBehind (hcalls : calls = before ++ .step pc op stack :: rest) :
    (logBehind before pc op stack).gasSince
        (logBefore? none (builtTrace calls).logs (stepCount before)) =
      costBehind (stepCount before) := by
  have hgas := toNat_gas_logBehind before pc op stack
  have hlog := (TraceDraft.reflects_calls calls).log before pc op stack rest hcalls
  obtain ⟨hlt, -⟩ := List.getElem?_eq_some_iff.mp hlog
  -- the first step has no log before it, and any other one has the log of the step before
  cases hcount : stepCount before with
  | zero => rfl
  | succ k =>
    rw [hcount] at hlt hgas
    have hk : k < (builtTrace calls).logs.length := Nat.lt_of_succ_lt hlt
    have hbefore := List.getElem?_eq_getElem hk
    obtain ⟨before', pc', op', stack', rest', -, rfl, heq⟩ := exists_logBehind hbefore
    rw [logBefore?, hbefore, heq, StepLog.gasSince, hgas, toNat_gas_logBehind]
    rfl

theorem exists_of_map_eq_append_pair {f : α → β} {as : List α} {bs : List β} {x y : β}
    (h : as.map f = bs ++ [x, y]) : ∃ front a b, as = front ++ [a, b] ∧ f a = x ∧ f b = y := by
  obtain ⟨front, top, rfl, -, htop⟩ := List.map_eq_append_iff.mp h
  obtain ⟨a, last, rfl, ha, hlast⟩ := List.map_eq_cons_iff.mp htop
  obtain ⟨b, rest, rfl, hb, hrest⟩ := List.map_eq_cons_iff.mp hlast
  obtain rfl := List.map_eq_nil_iff.mp hrest
  exact ⟨front, a, b, rfl, ha, hb⟩

/-- The last two words of a stack are the last two numbers it was given by. -/
theorem endsIn_iff {words : List Word} (h : words.map Word.toNat = stack.map UInt64.toNat)
    {w : SlotWrite} :
    (∃ below, words = below ++ [w.value, w.slot]) ↔
      ∃ below value slot, stack = below ++ [value, slot] ∧
        w.slot.toNat = slot.toNat ∧ w.value.toNat = value.toNat := by
  constructor
  · rintro ⟨below, rfl⟩
    rw [List.map_append] at h
    obtain ⟨below, value, slot, rfl, hvalue, hslot⟩ := exists_of_map_eq_append_pair h.symm
    exact ⟨below, value, slot, rfl, hslot.symm, hvalue.symm⟩
  · rintro ⟨below, value, slot, rfl, hslot, hvalue⟩
    rw [List.map_append] at h
    obtain ⟨below, v, s, rfl, hv, hs⟩ := exists_of_map_eq_append_pair h
    rw [← hvalue] at hv
    rw [← hslot] at hs
    exact ⟨below, by rw [Word.ext hv, Word.ext hs]⟩

/-- The step that a call has added is checked as what the call says. -/
theorem stepBehind_of_checkSteps {steps : List Step} {step : Step}
    (h : checkSteps (builtTrace calls).logs = .ok steps)
    (hcalls : calls = before ++ .step pc op stack :: rest)
    (hstep : steps[stepCount before]? = some step) : StepBehind before pc op stack step := by
  have hlog := (TraceDraft.reflects_calls calls).log before pc op stack rest hcalls
  have hrun : checkFrom 0 ((none : Option StepLog).map StepLog.gas) (builtTrace calls).logs =
    .ok steps := h
  obtain ⟨words, memory, hwords, hmemory, rfl⟩ := checked_of_checkFrom hrun hlog hstep
  have hstack := map_toNat_of_map_parse (map_stackWords hwords)
  exact
    { index := by rw [StepLog.checked, Nat.zero_add]; rfl
      pc := rfl
      op := rfl
      depth := rfl
      gasRemaining := toNat_gas_logBehind before pc op stack
      gasCost := (toNat_cost _ _).trans (gasSince_logBehind hcalls)
      stack := hstack
      memory := (Except.ok.inj hmemory).symm
      write := fun w =>
        Step.writeFromStack?_eq_some_iff.trans (and_congr_right' (endsIn_iff hstack)) }

/-- **Built traces are read back.** What calls build has one log for each step, in their order, with
the depth last given before it and 3 gas less for each step before it, and whether it failed, its
return value and its revert reason are those last given. The check accepts it, and every step has
the numbers of its stack, the gas gone since the step before, and the write of a store. -/
theorem built_trace_is_read_back (calls : List DraftCall) :
    (builtTrace calls).logs.length = stepCount calls ∧
      (∀ before pc op stack rest, calls = before ++ .step pc op stack :: rest →
        (builtTrace calls).logs[stepCount before]? = some (logBehind before pc op stack) ∧
          (logBehind before pc op stack).gas.toNat = gasBehind (stepCount before)) ∧
      (builtTrace calls).failed = lastGiven DraftCall.failed? calls ∧
      (builtTrace calls).returnValue = lastGiven DraftCall.returnValue? calls ∧
      (builtTrace calls).revertReason = lastGiven DraftCall.revertReason? calls ∧
      ∃ steps, checkSteps (builtTrace calls).logs = .ok steps ∧
        steps.length = stepCount calls ∧
        ∀ before pc op stack rest, calls = before ++ .step pc op stack :: rest →
          ∃ step, steps[stepCount before]? = some step ∧ StepBehind before pc op stack step := by
  have hbuilt := TraceDraft.reflects_calls calls
  obtain ⟨steps, hsteps⟩ := exists_checkSteps calls
  have hlength : steps.length = stepCount calls :=
    (length_checkSteps hsteps).trans hbuilt.length
  refine ⟨hbuilt.length, fun before pc op stack rest hcalls =>
    ⟨hbuilt.log before pc op stack rest hcalls, toNat_gas_logBehind before pc op stack⟩,
    hbuilt.failed, hbuilt.returnValue, hbuilt.revertReason, steps, hsteps, hlength, ?_⟩
  intro before pc op stack rest hcalls
  obtain ⟨hlt, -⟩ := List.getElem?_eq_some_iff.mp (hbuilt.log before pc op stack rest hcalls)
  have hlt : stepCount before < steps.length := by rwa [length_checkSteps hsteps]
  have hstep := List.getElem?_eq_getElem hlt
  exact ⟨_, hstep, stepBehind_of_checkSteps hsteps hcalls hstep⟩

example : (builtTrace [.step 0 "PUSH1" [], .setDepth 2, .step 2 "SSTORE" [42, 1]]).logs =
    [{ op := "PUSH1", gas := 100000, depth := 1 },
      { pc := 2, op := "SSTORE", gas := 99997, stack := ["0x2a", "0x1"], depth := 2 }] := by
  decide +kernel

end TxForensics
