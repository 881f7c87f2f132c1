import Mathlib.Data.List.Nodup
import TxForensics.Proofs.Analysis.Accounting
import TxForensics.Proofs.Bytecode.Partition

/-!
# What is said about opcodes

A failure is followed in a code that need not be the one that ran, so the steps of the outermost
frame are compared with it. A step agrees with a code when an instruction starts at its pc and has
its mnemonic (`Step.AgreesWith`). The first step that does not is told, with the name of what the
code has there instead (`Bytecode.HasAt`):

    outermost frame:  agrees │ agrees │ does not │ ...
                                        └──▶ opcodeDiffers pc op name

Two names stand for what is missing, a mnemonic or an instruction. The comparison is one of names,
so a step that executes what is missing goes unnoticed; the steps here execute something
(`Step.ExecutesSomething`).
-/

namespace TxForensics

namespace Bytecode

variable {code : Bytes} {pc : Nat} {name : String} {i : Instruction}

/-- The name of what the code has at a pc. -/
inductive HasAt (code : Bytes) (pc : Nat) : String → Prop
  | instruction {i : Instruction} {name : String} (starts : i ∈ disassemble code)
      (at_pc : i.pc = pc) (defined : i.mnemonic? = some name) : HasAt code pc name
  | undefined {i : Instruction} (starts : i ∈ disassemble code) (at_pc : i.pc = pc)
      (undefined : i.mnemonic? = none) : HasAt code pc "UNKNOWN"
  | nothing (none_starts : ∀ i ∈ disassemble code, i.pc ≠ pc) : HasAt code pc "nothing"

/-- At most one instruction starts at a pc. -/
theorem find?_disassemble_eq_some_iff :
    (disassemble code).find? (·.pc == pc) = some i ↔ i ∈ disassemble code ∧ i.pc = pc := by
  have hnodup : ((disassemble code).map Instruction.pc).Nodup := starts_eq code ▸ nodup_starts code
  constructor
  · intro h
    exact ⟨List.mem_of_find?_eq_some h, by simpa using List.find?_some h⟩
  · rintro ⟨hi, rfl⟩
    -- the search finds one that starts there, and there is no other
    cases hfind : (disassemble code).find? (·.pc == i.pc) with
    | none => exact absurd (List.find?_eq_none.mp hfind i hi) (by simp)
    | some j =>
      have hj : j.pc = i.pc := by simpa using List.find?_some hfind
      rw [List.inj_on_of_nodup_map hnodup (List.mem_of_find?_eq_some hfind) hi hj]

theorem find?_disassemble_eq_none_iff :
    (disassemble code).find? (·.pc == pc) = none ↔ ∀ i ∈ disassemble code, i.pc ≠ pc := by
  simp only [List.find?_eq_none, beq_iff_eq]

/-- The name that a step is compared with is that of what the code has at its pc. -/
theorem nameAt_eq_iff : Analyzer.nameAt (disassemble code) pc = name ↔ HasAt code pc name := by
  unfold Analyzer.nameAt
  constructor
  · rintro rfl
    split
    · next i hfind =>
      obtain ⟨hi, hpc⟩ := find?_disassemble_eq_some_iff.mp hfind
      cases hname : i.mnemonic? with
      | none => exact .undefined hi hpc hname
      | some name => exact .instruction hi hpc hname
    · next hfind => exact .nothing (find?_disassemble_eq_none_iff.mp hfind)
  · rintro (⟨hi, hpc, hname⟩ | ⟨hi, hpc, hname⟩ | hnone)
    · rw [find?_disassemble_eq_some_iff.mpr ⟨hi, hpc⟩]
      simp only [hname, Option.getD_some]
    · rw [find?_disassemble_eq_some_iff.mpr ⟨hi, hpc⟩]
      simp only [hname, Option.getD_none]
    · rw [find?_disassemble_eq_none_iff.mpr hnone]

theorem hasAt_nameAt (code : Bytes) (pc : Nat) :
    HasAt code pc (Analyzer.nameAt (disassemble code) pc) := nameAt_eq_iff.mp rfl

end Bytecode

namespace Step

/-- An instruction of the code starts at the pc of the step, and the step executes its mnemonic. -/
def AgreesWith (code : Bytes) (s : Step) : Prop :=
  ∃ i ∈ Bytecode.disassemble code, i.pc = s.pc.toNat ∧
    ∃ name, i.mnemonic? = some name ∧ s.executes name

/-- The mnemonic of the step is none of the names for what is missing. -/
def ExecutesSomething (s : Step) : Prop :=
  s.executes "nothing" = false ∧ s.executes "UNKNOWN" = false

variable {code : Bytes} {s : Step} {name : String}

/-- The name of what the code has at a pc is executed by the steps there that agree with the code
and by no other step that executes something. -/
theorem executes_iff_agreesWith (h : s.ExecutesSomething)
    (hname : Bytecode.HasAt code s.pc.toNat name) : s.executes name ↔ s.AgreesWith code := by
  constructor
  · intro hexecutes
    -- a step that executes something executes neither of the names for what is missing
    cases hname with
    | instruction hi hpc hdefined => exact ⟨_, hi, hpc, _, hdefined, hexecutes⟩
    | undefined hi hpc hundefined =>
      rw [h.2] at hexecutes
      cases hexecutes
    | nothing hnone =>
      rw [h.1] at hexecutes
      cases hexecutes
  · rintro ⟨i, hi, hpc, other, hdefined, hexecutes⟩
    have hother : Bytecode.HasAt code s.pc.toNat other := .instruction hi hpc hdefined
    rw [← Bytecode.nameAt_eq_iff] at hname hother
    rwa [← hname, hother]

end Step

namespace Analyzer

variable {code : Bytes} {frame : List Step} {d : Diagnostic}

/-- The steps are compared from the first on, each by the name of what the code has at its pc. -/
theorem firstDifference?_eq_none_iff (h : ∀ step ∈ frame, step.ExecutesSomething) :
    firstDifference? code frame = none ↔ ∀ step ∈ frame, step.AgreesWith code := by
  rw [firstDifference?, List.findSome?_eq_none_iff]
  refine forall₂_congr fun step hstep => ?_
  rw [← Step.executes_iff_agreesWith (h step hstep) (Bytecode.hasAt_nameAt _ _)]
  simp

/-- What is told of a frame is told of its first step that does not agree. -/
theorem exists_of_firstDifference? (h : ∀ step ∈ frame, step.ExecutesSomething)
    (hd : firstDifference? code frame = some d) :
    ∃ before step after name, frame = before ++ step :: after ∧
      (∀ other ∈ before, other.AgreesWith code) ∧ ¬ step.AgreesWith code ∧
      Bytecode.HasAt code step.pc.toNat name ∧ d = .opcodeDiffers step.pc step.op name := by
  obtain ⟨before, step, after, rfl, hstep, hbefore⟩ := List.findSome?_eq_some_iff.mp hd
  rw [List.forall_mem_append, List.forall_mem_cons] at h
  obtain ⟨hbeforeNamed, hnamed, -⟩ := h
  have hname := Bytecode.hasAt_nameAt code step.pc.toNat
  refine ⟨before, step, after, _, rfl, ?_, ?_, hname, ?_⟩
  · exact (firstDifference?_eq_none_iff hbeforeNamed).mp (List.findSome?_eq_none_iff.mpr hbefore)
  · rw [← Step.executes_iff_agreesWith hnamed hname]
    intro hexecutes
    -- a step that agreed would have been passed over
    rw [if_pos hexecutes] at hstep
    cases hstep
  · dsimp only at hstep
    split at hstep
    · cases hstep
    · exact (Option.some.inj hstep).symm

end Analyzer

/-! ## Reports -/

def Analysis.differences (x : Analysis) : List Diagnostic :=
  x.diagnostics.filter fun d => d.kind = .opcodeDiffers

namespace Analyzer

variable {r : TransactionRecord} {code : Bytes} {steps : List Step} {step : Step}

theorem filter_eq_nil_of_kinds {ds : List Diagnostic}
    (h : .opcodeDiffers ∉ ds.map Diagnostic.kind) :
    (ds.filter fun d => d.kind = .opcodeDiffers) = [] := by
  rw [List.filter_eq_nil_iff]
  intro d hd hkind
  exact h (of_decide_eq_true hkind ▸ List.mem_map_of_mem hd)

theorem filter_firstDifference? (code : Bytes) (frame : List Step) :
    ((firstDifference? code frame).toList.filter fun d => d.kind = .opcodeDiffers) =
      (firstDifference? code frame).toList := by
  rw [List.filter_eq_self]
  intro d hd
  exact decide_eq_true (kind_of_firstDifference? (Option.mem_toList.mp hd))

/-- Of all that is told in the code, only the comparison is of opcodes. -/
theorem filter_placeIn (m : PcMap) (code : Bytes) (steps : List Step) (step : Step) :
    ((placeIn m code steps step).2.filter fun d => d.kind = .opcodeDiffers) =
      (firstDifference? code (frameAt step.depth steps)).toList := by
  have hcut : ((m.sourceMap.error.toList.map fun e =>
      Diagnostic.sourceMapCut e.entry e.message).filter fun d => d.kind = .opcodeDiffers) = [] := by
    cases m.sourceMap.error <;> rfl
  unfold placeIn
  cases m.site? step.pc.toNat with
  | some site =>
    simp only [List.filter_append, hcut, filter_firstDifference?, List.nil_append]
  | none =>
    simp only [List.filter_append, hcut, filter_firstDifference?, List.nil_append]
    exact List.append_nil _

/-- Behind notes, and whatever else is reported, what is told of opcodes is the comparison of the
outermost frame. -/
theorem differences_report (settings : Settings) (site : Option SourceSite)
    {notes : List Diagnostic} (hnotes : Diagnostic.NoteKinds (notes.map Diagnostic.kind))
    (m : PcMap) (hstep : step ∈ outermost steps) :
    (report settings r steps site (notes ++ (placeIn m code steps step).2)).differences =
      (firstDifference? code (outermost steps)).toList := by
  have hsteps : ((if steps.isEmpty then [.noSteps] else []).filter
      fun d : Diagnostic => d.kind = .opcodeDiffers) = [] := by
    cases steps <;> rfl
  have hnone : (notes.filter fun d => d.kind = .opcodeDiffers) = [] := by
    apply filter_eq_nil_of_kinds
    rcases hnotes with h | h | h <;> simp [h]
  -- missing steps and notes have kinds of their own, so only the last part is left
  rw [Analysis.differences, report, List.filter_append, List.filter_append, hsteps, hnone,
    filter_placeIn, frameAt_of_mem_outermost hstep, List.nil_append, List.nil_append]

/-- **What is said about opcodes.** An analysis that follows a code compares the outermost frame
with it. If every step executes something, nothing is said exactly when all steps of the frame agree
with the code. Otherwise one thing is said: the pc and the mnemonic of the first step of the frame
that does not agree, and the name of what the code has at that pc. -/
theorem opcodes_compared (a : Analyzer) (h : r.followedCode? = some code) :
    ∃ (x : Analysis) (b : Analyzer), a.analyze r = .ok (x, b) ∧
      ((∀ step ∈ x.steps, step.ExecutesSomething) →
        (x.differences = [] ↔ ∀ step ∈ outermost x.steps, step.AgreesWith code) ∧
        ((¬ ∀ step ∈ outermost x.steps, step.AgreesWith code) →
          ∃ before step after name, outermost x.steps = before ++ step :: after ∧
            (∀ other ∈ before, other.AgreesWith code) ∧ ¬ step.AgreesWith code ∧
            Bytecode.HasAt code step.pc.toNat name ∧
            x.differences = [.opcodeDiffers step.pc step.op name])) := by
  obtain ⟨q, hq, rfl⟩ := TransactionRecord.exists_request? a.settings h
  obtain ⟨steps, step, found, notes, hsteps, hfailure, hartifact, hok⟩ := analyze_of_request? hq
  have hstep : step ∈ outermost steps :=
    mem_outermost_of_failingStep? (failure?_eq_some_iff.mp hfailure).2.2
  refine ⟨_, _, hok, fun hnamed => ?_⟩
  -- from here on it is about the comparison of the frame with the code
  rw [differences_report a.settings _ (kinds_artifactCode hartifact) _ hstep]
  have hframe : ∀ step ∈ outermost steps, step.ExecutesSomething :=
    fun step hmem => hnamed step (List.mem_of_mem_filter hmem)
  constructor
  · rw [Option.toList_eq_nil_iff]
    exact firstDifference?_eq_none_iff hframe
  · intro hdisagree
    obtain ⟨d, hd⟩ : ∃ d, firstDifference? q.code (outermost steps) = some d := by
      rw [← Option.ne_none_iff_exists']
      exact mt (firstDifference?_eq_none_iff hframe).mp hdisagree
    obtain ⟨before, first, after, name, hsplit, hbefore, hfirst, hname, rfl⟩ :=
      exists_of_firstDifference? hframe hd
    exact ⟨before, first, after, name, hsplit, hbefore, hfirst, hname, by rw [hd]; rfl⟩

def failureInImmediate : TransactionRecord :=
  { trace := { logs := [{ pc := 1, op := "REVERT", depth := 1 }], failed := some true }
    artifact := { runtime := some { object := "6001", sourceMap := some "0:1:0" } }
    source := "f();"
    chainCode := none }

/-- No instruction starts there. -/
theorem opcodes_compared_immediate :
    failureInImmediate.followedCode? = some [0x60, 0x01] ∧
      ∃ (x : Analysis) (b : Analyzer), (new {}).analyze failureInImmediate = .ok (x, b) ∧
        x.differences = [.opcodeDiffers 1 "REVERT" "nothing"] := by
  let failing : Step := { pc := 1, op := "REVERT", depth := 1 }
  have hcode : failureInImmediate.followedCode? = some [0x60, 0x01] := by decide +kernel
  have hname : Bytecode.HasAt [0x60, 0x01] failing.pc.toNat "nothing" :=
    Bytecode.nameAt_eq_iff.mp (by decide +kernel)
  have hsomething : failing.ExecutesSomething := ⟨by decide, by decide⟩
  obtain ⟨x, b, hok, hcompared⟩ := opcodes_compared (new {}) hcode
  obtain ⟨steps, placed, hsteps, -, hx, -⟩ := analyze_eq_ok_iff.mp hok
  obtain rfl : [failing] = steps := Except.ok.inj hsteps
  have hxsteps : x.steps = [failing] := by rw [hx, report]
  have hframe : outermost x.steps = [failing] := by
    rw [hxsteps]
    rfl
  have hdisagree : ¬ ∀ step ∈ outermost x.steps, step.AgreesWith [0x60, 0x01] := by
    intro hall
    have hagrees := hall failing (hframe ▸ List.mem_singleton_self failing)
    rw [← Step.executes_iff_agreesWith hsomething hname] at hagrees
    exact absurd hagrees (by decide)
  obtain ⟨-, hfirst⟩ := hcompared (by simpa [hxsteps] using hsomething)
  obtain ⟨before, step, after, name, hsplit, -, -, hat, hdifferences⟩ := hfirst hdisagree
  obtain ⟨rfl, rfl⟩ : before = [] ∧ step = failing := by
    rw [hframe] at hsplit
    cases before with
    | nil => exact ⟨rfl, (List.cons.inj hsplit).1.symm⟩
    | cons other before => simp at hsplit
  rw [← Bytecode.nameAt_eq_iff] at hname hat
  exact ⟨hcode, x, b, hok, by rw [hdifferences, ← hat, hname]⟩

end Analyzer

end TxForensics
