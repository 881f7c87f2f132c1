import TxForensics.Proofs.Analysis.Stages
import TxForensics.Proofs.Bytecode.Object
import TxForensics.Proofs.Trace.Check

/-!
# What fails an analysis, and what only limits it

An analysis fails for two causes only: a word of the trace cannot be read, or the code to follow a
failure in cannot (`placeFailure_fails_iff`). Everything else costs at most the place of the
failure: steps, changes, reason, step and pc come from the trace, the layout and the settings.

    trace ──────────▶ steps, success, reason, step, pc
    trace, layout ──▶ changes
    all the rest ───▶ site, diagnostics
-/

namespace TxForensics

/-- An artifact with code that is there, not blank, and cannot be read. -/
def Artifact.HasUnreadableCode (artifact : Artifact) : Prop :=
  ∃ runtime, artifact.runtime = some runtime ∧ Text.trimmed runtime.object ≠ "" ∧
    ∃ e, Object.decode runtime.object = .error e

/-- Reading the code of an artifact fails only where there is something to read. -/
theorem Artifact.runtimeBytes_fails_iff {artifact : Artifact} :
    (∃ e, artifact.runtimeBytes = .error e) ↔ artifact.HasUnreadableCode := by
  unfold runtimeBytes HasUnreadableCode
  cases artifact.runtime with
  | none => simp
  | some runtime =>
    simp only [Option.some.injEq, exists_eq_left']
    rw [← Object.decode_trimmed runtime.object]
    split
    · next hblank =>
      -- a lone mark is blank for the artifact, and no digits for the object
      rcases hblank with hblank | hblank
      · simp [hblank]
      · have hmark : Object.decode "0x" = .ok [] := Object.decode_prefixed []
        simp [hblank, hmark]
    · next hblank =>
      rw [not_or] at hblank
      cases Object.decode (Text.trimmed runtime.object) <;> simp [Except.map, hblank.1]

namespace Analyzer

variable {a : Analyzer} {r : TransactionRecord} {steps : List Step}

/-- A placement fails only over code that it needs and cannot read. -/
theorem placeFailure_fails_iff :
    (∃ e, a.placeFailure r steps = .error e) ↔
      r.trace.hasFailed = true ∧ steps ≠ [] ∧ r.chainCode = none ∧
        r.artifact.HasUnreadableCode := by
  rw [placeFailure]
  -- without a failing step the code is not needed; with one, it is all that can fail
  cases hfailure : failure? r steps with
  | none =>
    rcases failure?_eq_none_iff.mp hfailure with hok | hnil
    · simp [hok]
    · simp [hnil]
  | some step =>
    obtain ⟨hfailed, hne, -⟩ := failure?_eq_some_iff.mp hfailure
    dsimp only
    rw [and_iff_right hfailed, and_iff_right hne, ← Artifact.runtimeBytes_fails_iff, place_eq]
    cases hcode : artifactCode r.artifact r.chainCode with
    | error e =>
      obtain ⟨hchain, cause, hbytes, -⟩ := artifactCode_eq_error_iff.mp hcode
      simp [Except.map, hchain, hbytes]
    | ok found =>
      have hnot : ¬(r.chainCode = none ∧ ∃ e, r.artifact.runtimeBytes = .error e) := by
        rintro ⟨hchain, cause, hbytes⟩
        have herror := artifactCode_eq_error_iff.mpr ⟨hchain, cause, hbytes, rfl⟩
        rw [hcode] at herror
        cases herror
      simp [Except.map, hnot]

theorem analyze_fails_iff :
    (∃ e, a.analyze r = .error e) ↔ (∃ log ∈ r.trace.logs, log.HasInvalidWord) ∨
      r.trace.hasFailed = true ∧ r.trace.logs ≠ [] ∧ r.chainCode = none ∧
        r.artifact.HasUnreadableCode := by
  rw [← checkSteps_fails_iff]
  -- the words are read first, and only sound steps get to a placement
  cases hsteps : checkSteps r.trace.logs with
  | error e => simp [analyze_of_error hsteps]
  | ok steps =>
    have hne : r.trace.logs ≠ [] ↔ steps ≠ [] := not_congr (checkSteps_eq_nil_iff hsteps).symm
    rw [hne, ← placeFailure_fails_iff (a := a), analyze_of_ok hsteps]
    cases a.placeFailure r steps <;> simp [Except.map]

theorem failure?_congr {r' : TransactionRecord} (htrace : r'.trace = r.trace) :
    failure? r' steps = failure? r steps := by
  rw [failure?, failure?, htrace]

/-- **Only unreadable words and unreadable code fail an analysis, and without its other inputs it
loses no more than the place.** An analysis fails when a stack or memory word of the trace is
invalid, or when there is a failing step and the only code to follow it in is unreadable. Analyses
of one trace with one layout and one choice of settings, whatever else they are given and whatever
their analyzers have kept, agree in everything but the place and the diagnostics. -/
theorem analyze_fails_iff_and_agrees (a : Analyzer) (r : TransactionRecord) :
    ((∃ e, a.analyze r = .error e) ↔ (∃ log ∈ r.trace.logs, log.HasInvalidWord) ∨
      r.trace.hasFailed = true ∧ r.trace.logs ≠ [] ∧ r.chainCode = none ∧
        r.artifact.HasUnreadableCode) ∧
    ∀ (a' : Analyzer) (r' : TransactionRecord) (x x' : Analysis) (b b' : Analyzer),
      a'.settings = a.settings → r'.trace = r.trace →
      r'.artifact.storageLayout = r.artifact.storageLayout →
      a.analyze r = .ok (x, b) → a'.analyze r' = .ok (x', b') →
        x'.steps = x.steps ∧ x'.changes = x.changes ∧
        x'.outcome.success = x.outcome.success ∧ x'.outcome.reason = x.outcome.reason ∧
        x'.outcome.stepIndex = x.outcome.stepIndex ∧ x'.outcome.pc = x.outcome.pc := by
  refine ⟨analyze_fails_iff, ?_⟩
  intro a' r' x x' b b' hsettings htrace hlayout h h'
  obtain ⟨steps, placed, hsteps, -, rfl, -⟩ := analyze_eq_ok_iff.mp h
  obtain ⟨steps', placed', hsteps', -, rfl, -⟩ := analyze_eq_ok_iff.mp h'
  rw [htrace, hsteps] at hsteps'
  cases hsteps'
  -- no part of the report but site and diagnostics looks at what was placed
  simp only [report, htrace, hlayout, hsettings, failure?_congr htrace, and_self]

def revertOf (runtime : Option RuntimeCode) (source : String) : TransactionRecord :=
  { trace :=
      { logs := [{ pc := 0, op := "JUMPDEST", depth := 1 }, { pc := 1, op := "REVERT", depth := 1 }]
        revertReason := some "paused"
        failed := some true }
    artifact := { runtime }
    source
    chainCode := none }

/-- With a code, a source map and a source, and by the analyzer that this leaves without any. -/
theorem analyze_agrees_without_code :
    ∃ (x x' : Analysis) (b b' : Analyzer),
      (new {}).analyze (revertOf (some ⟨"5bfd", some "0:1:0;;"⟩) "f();") = .ok (x, b) ∧
      b.analyze (revertOf none "") = .ok (x', b') ∧
      x'.steps = x.steps ∧ x'.outcome.reason = x.outcome.reason ∧
      x'.outcome.stepIndex = x.outcome.stepIndex ∧ x'.outcome.pc = x.outcome.pc := by
  have hrequest : (revertOf (some ⟨"5bfd", some "0:1:0;;"⟩) "f();").request? (new {}).settings =
      some ⟨[0x5b, 0xfd], "0:1:0;;", "f();", {}⟩ := by
    decide +kernel
  obtain ⟨x, b, hx, hb⟩ := exists_analysis_of_request? hrequest
  obtain ⟨x', b', hx'⟩ : ∃ (x' : Analysis) (b' : Analyzer),
      b.analyze (revertOf none "") = .ok (x', b') := ⟨_, _, rfl⟩
  obtain ⟨-, hagrees⟩ :=
    analyze_fails_iff_and_agrees (new {}) (revertOf (some ⟨"5bfd", some "0:1:0;;"⟩) "f();")
  obtain ⟨hsteps, -, -, hreason, hindex, hpc⟩ :=
    hagrees b (revertOf none "") x x' b b' hb rfl rfl hx hx'
  exact ⟨x, x', b, b', hx, hx', hsteps, hreason, hindex, hpc⟩

end Analyzer

end TxForensics
