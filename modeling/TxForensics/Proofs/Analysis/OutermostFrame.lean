import TxForensics.Proofs.Analysis.Stages
import TxForensics.Proofs.Trace.Check

/-!
# Nested calls do not move a failure

A failure is chosen, compared with the code and placed by its outermost frame, and of the steps in
it only the pcs and the mnemonics count. So two failed traces whose outermost frames agree in these,
position by position, are told apart neither by what runs in nested calls nor by their stacks,
memory and gas: the failing steps stand at the same position of their frames (`exists_position`),
and what is placed there is the same.
-/

namespace TxForensics

def Step.visit (s : Step) : UInt32 × String := (s.pc, s.op)

/-- Two failed traces that are sound, report the same, and agree outside nested calls. -/
structure SameOutside (t t' : Trace) : Prop where
  sound : ∃ steps, checkSteps t.logs = .ok steps
  sound' : ∃ steps, checkSteps t'.logs = .ok steps
  failed : t.failed = some true
  failed' : t'.failed = some true
  returnValue : t.returnValue = t'.returnValue
  revertReason : t.revertReason = t'.revertReason
  frame : (outermost (bareSteps t.logs)).map Step.visit =
    (outermost (bareSteps t'.logs)).map Step.visit

/-! ## The frame and the position in it -/

/-- Which steps are outermost shows in the bare steps. -/
theorem outermost_map_bare (steps : List Step) :
    outermost (steps.map Step.bare) = (outermost steps).map Step.bare := by
  have hdepth : outermostDepth? (steps.map Step.bare) = outermostDepth? steps := by
    rw [outermostDepth?, outermostDepth?, List.map_map]
    rfl
  rw [outermost, outermost, List.filter_map, hdepth]
  rfl

theorem outermost_bareSteps {logs : List StepLog} {steps : List Step}
    (h : checkSteps logs = .ok steps) :
    outermost (bareSteps logs) = (outermost steps).map Step.bare := by
  rw [← map_bare_checkSteps h, outermost_map_bare]

/-- The checked steps agree in their frames as the bare ones do. -/
theorem SameOutside.visits {t t' : Trace} {steps steps' : List Step} (h : SameOutside t t')
    (hsteps : checkSteps t.logs = .ok steps) (hsteps' : checkSteps t'.logs = .ok steps') :
    (outermost steps).map Step.visit = (outermost steps').map Step.visit := by
  have hbare := h.frame
  rw [outermost_bareSteps hsteps, outermost_bareSteps hsteps', List.map_map, List.map_map] at hbare
  exact hbare

theorem index_outermost_bareSteps {logs : List StepLog} {steps : List Step}
    (h : checkSteps logs = .ok steps) (k : Nat) :
    (outermost (bareSteps logs))[k]?.map Step.index = (outermost steps)[k]?.map Step.index := by
  rw [outermost_bareSteps h, List.getElem?_map, Option.map_map]
  rfl

/-- Traces that agree outside nested calls both have steps, or neither has. -/
theorem isEmpty_congr {steps steps' : List Step}
    (h : (outermost steps).map Step.visit = (outermost steps').map Step.visit) :
    steps.isEmpty = steps'.isEmpty := by
  have hnil : outermost steps = [] ↔ outermost steps' = [] := by
    rw [← List.map_eq_nil_iff (f := Step.visit), h, List.map_eq_nil_iff]
  -- a trace with steps has an outermost one
  rw [outermost_eq_nil_iff, outermost_eq_nil_iff] at hnil
  rwa [Bool.eq_iff_iff, List.isEmpty_iff, List.isEmpty_iff]

theorem findRev?_cons {p : α → Bool} (a : α) (as : List α) :
    (a :: as).findRev? p = (as.findRev? p <|> if p a then some a else none) := by
  rw [List.findRev?]
  cases as.findRev? p with
  | some b => rfl
  | none => cases p a <;> rfl

/-- A search from the end for a step that executes one of some mnemonics stops at the same position
of two frames that agree in what they execute. -/
theorem exists_position_findRev? {p : Step → Bool} (hp : ∀ s s' : Step, s.op = s'.op → p s = p s')
    {frame frame' : List Step} (h : frame.map Step.visit = frame'.map Step.visit) :
    ∃ k : Nat, frame.findRev? p = frame[k]? ∧ frame'.findRev? p = frame'[k]? := by
  -- over one frame, with the other in step
  induction frame generalizing frame' with
  | nil =>
    have hnil := List.map_eq_nil_iff.mp h.symm
    exact ⟨0, rfl, by rw [hnil]; rfl⟩
  | cons s frame ih =>
    cases frame' with
    | nil => cases h
    | cons s' frame' =>
      obtain ⟨hvisit, hrest⟩ := List.cons.inj h
      obtain ⟨k, hk, hk'⟩ := ih hrest
      have hlength : frame.length = frame'.length := by simpa using congrArg List.length hrest
      have hop : p s' = p s := (hp s s' (congrArg Prod.snd hvisit)).symm
      rw [findRev?_cons, findRev?_cons, hk, hk', hop]
      -- a find behind the first step stands one further on; else only the first step is left
      by_cases hlt : k < frame.length
      · refine ⟨k + 1, ?_, ?_⟩
        · rw [List.getElem?_cons_succ, List.getElem?_eq_getElem hlt]
          rfl
        · rw [List.getElem?_cons_succ, List.getElem?_eq_getElem (hlength ▸ hlt)]
          rfl
      · rw [List.getElem?_eq_none (by omega), List.getElem?_eq_none (by omega)]
        cases p s with
        | true => exact ⟨0, rfl, rfl⟩
        | false =>
          refine ⟨frame.length + 1, ?_, ?_⟩
          · rw [List.getElem?_eq_none (by simp)]
            rfl
          · rw [List.getElem?_eq_none (by simp; omega)]
            rfl

theorem endsInFailure_congr {s s' : Step} (h : s.op = s'.op) :
    s.endsInFailure = s'.endsInFailure := by
  rw [Step.endsInFailure, Step.endsInFailure, Step.executes, Step.executes, Step.executes,
    Step.executes, h]

/-- The failing steps of two traces stand at the same position of their outermost frames. -/
theorem exists_position {steps steps' : List Step}
    (h : (outermost steps).map Step.visit = (outermost steps').map Step.visit) :
    ∃ k : Nat, failingStep? steps = (outermost steps)[k]? ∧
      failingStep? steps' = (outermost steps')[k]? := by
  rw [failingStep?_eq, failingStep?_eq]
  obtain ⟨k, hk, hk'⟩ := exists_position_findRev? (fun _ _ => endsInFailure_congr) h
  have hlength : (outermost steps).length = (outermost steps').length := by
    simpa using congrArg List.length h
  rw [hk, hk']
  by_cases hlt : k < (outermost steps).length
  · refine ⟨k, ?_, ?_⟩
    · rw [List.getElem?_eq_getElem hlt]
      rfl
    · rw [List.getElem?_eq_getElem (hlength ▸ hlt)]
      rfl
  · -- no step of the frames ends in failure, so both fall back to the last one
    refine ⟨(outermost steps).length - 1, ?_, ?_⟩
    · rw [List.getElem?_eq_none (by omega), List.getLast?_eq_getElem?]
      rfl
    · rw [List.getElem?_eq_none (by omega), List.getLast?_eq_getElem?, hlength]
      rfl

namespace Analyzer

/-! ## The placement -/

/-- Frames that agree in what they execute differ from a code at the same pc. -/
theorem firstDifference?_congr (code : Bytes) {frame frame' : List Step}
    (h : frame.map Step.visit = frame'.map Step.visit) :
    firstDifference? code frame = firstDifference? code frame' := by
  have hvisits : ∀ frame : List Step, firstDifference? code frame =
      (frame.map Step.visit).findSome? fun (pc, op) =>
        let name := nameAt (Bytecode.disassemble code) pc.toNat
        if sameMnemonic op name then none else some (.opcodeDiffers pc op name) := by
    intro frame
    -- the comparison sees of a step only what it executed and where
    rw [List.findSome?_map]
    rfl
  rw [hvisits, hvisits, h]

theorem placeIn_congr (m : PcMap) (code : Bytes) {steps steps' : List Step} {step step' : Step}
    (hpc : step.pc = step'.pc) (hframe : (frameAt step.depth steps).map Step.visit =
      (frameAt step'.depth steps').map Step.visit) :
    placeIn m code steps step = placeIn m code steps' step' := by
  rw [placeIn, placeIn, firstDifference?_congr code hframe, hpc]

/-- Records with the same artifact, code and source whose frames agree are placed alike. -/
theorem place_congr (a : Analyzer) {r r' : TransactionRecord} {steps steps' : List Step}
    {step step' : Step} (hartifact : r.artifact = r'.artifact) (hsource : r.source = r'.source)
    (hchain : r.chainCode = r'.chainCode) (hpc : step.pc = step'.pc)
    (hframe : (frameAt step.depth steps).map Step.visit =
      (frameAt step'.depth steps').map Step.visit) :
    a.place r steps step = a.place r' steps' step' := by
  unfold place
  simp only [hartifact, hsource, hchain, placeIn_congr _ _ hpc hframe]

/-- What is placed depends on the outermost frame and on the pc of the failing step. -/
theorem placeFailure_congr (a : Analyzer) {r r' : TransactionRecord} {steps steps' : List Step}
    (hartifact : r.artifact = r'.artifact) (hsource : r.source = r'.source)
    (hchain : r.chainCode = r'.chainCode) (hfailed : r.trace.hasFailed = true)
    (hfailed' : r'.trace.hasFailed = true)
    (hframe : (outermost steps).map Step.visit = (outermost steps').map Step.visit)
    (hpc : (failingStep? steps).map Step.pc = (failingStep? steps').map Step.pc) :
    a.placeFailure r steps = a.placeFailure r' steps' := by
  rw [placeFailure, placeFailure, failure?, failure?, if_pos hfailed, if_pos hfailed']
  cases hstep : failingStep? steps with
  | none =>
    rw [hstep, Option.map_none] at hpc
    rw [Option.map_eq_none_iff.mp hpc.symm]
  | some step =>
    rw [hstep, Option.map_some] at hpc
    obtain ⟨step', hstep', hpc'⟩ := Option.map_eq_some_iff.mp hpc.symm
    rw [hstep']
    refine place_congr a hartifact hsource hchain hpc'.symm ?_
    rw [frameAt_of_mem_outermost (mem_outermost_of_failingStep? hstep),
      frameAt_of_mem_outermost (mem_outermost_of_failingStep? hstep'), hframe]

/-- **Nested calls do not move a failure.** Of two failed traces that agree outside nested calls,
either neither can be analysed or both have the same reason, pc, place and diagnostics, and the
steps that the failure is attributed to stand at the same position of the outermost frames. -/
theorem analyze_sameOutside (a : Analyzer) (artifact : Artifact) (source : String)
    (chainCode : Option Bytes) {t t' : Trace} (h : SameOutside t t') :
    (∃ e, a.analyze ⟨t, artifact, source, chainCode⟩ = .error e ∧
      a.analyze ⟨t', artifact, source, chainCode⟩ = .error e) ∨
    ∃ (x x' : Analysis) (b : Analyzer) (k : Nat),
      a.analyze ⟨t, artifact, source, chainCode⟩ = .ok (x, b) ∧
      a.analyze ⟨t', artifact, source, chainCode⟩ = .ok (x', b) ∧
      x.outcome.reason = x'.outcome.reason ∧ x.outcome.pc = x'.outcome.pc ∧
      x.outcome.site = x'.outcome.site ∧ x.diagnostics = x'.diagnostics ∧
      x.outcome.stepIndex = (outermost (bareSteps t.logs))[k]?.map Step.index ∧
      x'.outcome.stepIndex = (outermost (bareSteps t'.logs))[k]?.map Step.index := by
  obtain ⟨steps, hsteps⟩ := h.sound
  obtain ⟨steps', hsteps'⟩ := h.sound'
  have hframe := h.visits hsteps hsteps'
  obtain ⟨k, hk, hk'⟩ := exists_position hframe
  -- at the same position of equal frames stands the same pc
  have hpc : (failingStep? steps).map Step.pc = (failingStep? steps').map Step.pc := by
    have hvisit := congrArg (fun visits : List (UInt32 × String) => visits[k]?.map Prod.fst) hframe
    simpa [hk, hk', Function.comp_def, Step.visit] using hvisit
  have hfailed : t.hasFailed = true := by rw [Trace.hasFailed, h.failed]; rfl
  have hfailed' : t'.hasFailed = true := by rw [Trace.hasFailed, h.failed']; rfl
  have hplace : a.placeFailure ⟨t, artifact, source, chainCode⟩ steps =
      a.placeFailure ⟨t', artifact, source, chainCode⟩ steps' :=
    placeFailure_congr a rfl rfl rfl hfailed hfailed' hframe hpc
  rw [analyze_of_ok hsteps, analyze_of_ok hsteps', ← hplace]
  cases a.placeFailure ⟨t, artifact, source, chainCode⟩ steps with
  | error e => exact .inl ⟨e, rfl, rfl⟩
  | ok placed =>
    -- the traces share what was placed; the rest of the reports is read off the failing steps
    refine .inr ⟨_, _, _, k, rfl, rfl, ?_, ?_, rfl, ?_, ?_, ?_⟩
    · simp [report, hfailed, hfailed', h.revertReason, Trace.returnBytes, h.returnValue]
    · simpa [report, failure?, hfailed, hfailed'] using hpc
    · simp [report, isEmpty_congr hframe]
    · rw [index_outermost_bareSteps hsteps, ← hk]
      simp [report, failure?, hfailed]
    · rw [index_outermost_bareSteps hsteps', ← hk']
      simp [report, failure?, hfailed']

def flatFailure : Trace :=
  { logs := [{ pc := 0, op := "JUMPDEST", depth := 1 }, { pc := 1, op := "REVERT", depth := 1 }]
    failed := some true }

/-- The same with a nested call that ends in `INVALID`, and with other stacks, memory and gas. -/
def nestedFailure : Trace :=
  { logs := [{ pc := 0, op := "JUMPDEST", gas := 9, stack := ["0x1"], depth := 1 },
      { pc := 1, op := "INVALID", memory := some ["ff"], depth := 2 },
      { pc := 1, op := "REVERT", stack := ["2", "3"], depth := 1 }]
    failed := some true }

def recordOf (t : Trace) : TransactionRecord :=
  ⟨t, { runtime := some ⟨"5bfd", some "0:1:0;;"⟩ }, "f();", none⟩

/-- The nested call does not move the failure, and it can be placed. -/
theorem analyze_sameOutside_nestedFailure :
    SameOutside flatFailure nestedFailure ∧
    ∃ (x x' : Analysis) (b : Analyzer),
      (new {}).analyze (recordOf flatFailure) = .ok (x, b) ∧
      (new {}).analyze (recordOf nestedFailure) = .ok (x', b) ∧
      x.outcome.site = x'.outcome.site ∧ x.diagnostics = x'.diagnostics := by
  have hsame : SameOutside flatFailure nestedFailure :=
    { sound := ⟨_, rfl⟩
      sound' := ⟨_, rfl⟩
      failed := rfl
      failed' := rfl
      returnValue := rfl
      revertReason := rfl
      frame := by decide +kernel }
  have hrequest : (recordOf flatFailure).request? (new {}).settings =
      some ⟨[0x5b, 0xfd], "0:1:0;;", "f();", {}⟩ := by
    decide +kernel
  obtain ⟨_, _, _, _, -, -, -, hok⟩ := analyze_of_request? hrequest
  refine ⟨hsame, ?_⟩
  rcases analyze_sameOutside (new {}) (recordOf flatFailure).artifact "f();" none hsame
    with ⟨e, herror, -⟩ | ⟨x, x', b, k, hx, hx', -, -, hsite, hdiagnostics, -, -⟩
  · cases hok.symm.trans herror
  · exact ⟨x, x', b, hx, hx', hsite, hdiagnostics⟩

end Analyzer

end TxForensics
