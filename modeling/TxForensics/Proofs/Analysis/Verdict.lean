import TxForensics.Proofs.Analysis.Stages
import TxForensics.Proofs.Trace.Check

/-!
# Two verdicts on one trace

Where a tracer does not say whether a transaction failed, its last mnemonic decides, and it does so
twice. `Trace.hasFailed` looks at the log as it is written: only `REVERT` and `INVALID` in capitals
count. `Step.endsInFailure` looks at the checked step, with letters of either case. A failure by the
first verdict is one by the second. The other way round, a trace that ends in `revert` has failed by
its steps and yet counts as a success (`small_letters_count_as_success`).

    hasFailed ──▶ the last step ends in failure
    hasFailed ◀── the last step ends in failure, written in capitals
-/

namespace TxForensics

/-- Whether the last of some steps ends in failure. -/
def EndInFailure (steps : List Step) : Prop :=
  ∃ step, steps.getLast? = some step ∧ step.endsInFailure = true

/-- Whether the last of some steps, if it ends in failure, is written in capitals. -/
def FailInCapitals (steps : List Step) : Prop :=
  ∀ step, steps.getLast? = some step → step.endsInFailure = true →
    step.op = "REVERT" ∨ step.op = "INVALID"

/-- The capitals are among the spellings that count for a step. -/
theorem Step.endsInFailure_of_capitals {step : Step}
    (h : step.op = "REVERT" ∨ step.op = "INVALID") : step.endsInFailure = true := by
  rw [endsInFailure, executes, executes, Bool.or_eq_true]
  rcases h with h | h
  · left
    rw [h, sameMnemonic, beq_self_eq_true]
  · right
    rw [h, sameMnemonic, beq_self_eq_true]

namespace Trace

variable {t : Trace} {steps : List Step}

/-- A tracer that does not say whether the transaction failed leaves it to the last mnemonic. -/
theorem hasFailed_iff_capitals (hsilent : t.failed = none)
    (hsteps : checkSteps t.logs = .ok steps) :
    t.hasFailed = true ↔
      ∃ step, steps.getLast? = some step ∧ (step.op = "REVERT" ∨ step.op = "INVALID") := by
  -- checking keeps the mnemonics, so the last log and the last step have the same
  have hlast : steps.getLast?.map Step.op = t.logs.getLast?.map StepLog.op := by
    rw [← List.getLast?_map, map_op_checkSteps hsteps, List.getLast?_map]
  rw [hasFailed, hsilent, Option.getD_none]
  cases hlog : t.logs.getLast? with
  | none =>
    rw [hlog, Option.map_none, Option.map_eq_none_iff] at hlast
    simp [hlast]
  | some log =>
    rw [hlog, Option.map_some, Option.map_eq_some_iff] at hlast
    obtain ⟨step, hstep, hop⟩ := hlast
    simp [hstep, hop]

/-- A failure in the log is one in the steps. -/
theorem endInFailure_of_hasFailed (hsilent : t.failed = none)
    (hsteps : checkSteps t.logs = .ok steps) (hfailed : t.hasFailed = true) :
    EndInFailure steps := by
  obtain ⟨step, hstep, hop⟩ := (hasFailed_iff_capitals hsilent hsteps).mp hfailed
  exact ⟨step, hstep, Step.endsInFailure_of_capitals hop⟩

/-- The verdicts agree unless the last step ends in failure with small letters. -/
theorem hasFailed_agrees_iff (hsilent : t.failed = none) (hsteps : checkSteps t.logs = .ok steps) :
    (t.hasFailed = true ↔ EndInFailure steps) ↔ FailInCapitals steps := by
  constructor
  · -- a last step that ends in failure fails the log too, which takes capitals
    intro hagree step hstep hfails
    have hfailed : t.hasFailed = true := hagree.mpr ⟨step, hstep, hfails⟩
    obtain ⟨last, hlast, hop⟩ := (hasFailed_iff_capitals hsilent hsteps).mp hfailed
    rw [hstep] at hlast
    cases hlast
    exact hop
  · intro hcapitals
    constructor
    · exact endInFailure_of_hasFailed hsilent hsteps
    · rintro ⟨step, hstep, hfails⟩
      exact (hasFailed_iff_capitals hsilent hsteps).mpr ⟨step, hstep, hcapitals step hstep hfails⟩

/-- **When the two verdicts agree.** For a sound trace whose tracer does not say how it ended, a
failure in the log is one in the steps, and the verdicts agree exactly when a last step that ends in
failure is written in capitals. An analysis reports the verdict of the log: a success where the
steps end in failure with small letters. -/
theorem verdicts_agree_iff (hsilent : t.failed = none) (hsteps : checkSteps t.logs = .ok steps) :
    (t.hasFailed = true → EndInFailure steps) ∧
      ((t.hasFailed = true ↔ EndInFailure steps) ↔ FailInCapitals steps) ∧
      ∀ (a : Analyzer) (r : TransactionRecord) (x : Analysis) (b : Analyzer), r.trace = t →
        a.analyze r = .ok (x, b) → x.steps = steps ∧
          ((x.outcome.success = false ↔ EndInFailure x.steps) ↔ FailInCapitals steps) := by
  refine ⟨endInFailure_of_hasFailed hsilent hsteps, hasFailed_agrees_iff hsilent hsteps, ?_⟩
  rintro a r x b rfl hanalysis
  obtain ⟨steps', placed, hsteps', -, rfl, -⟩ := Analyzer.analyze_eq_ok_iff.mp hanalysis
  rw [hsteps] at hsteps'
  cases hsteps'
  refine ⟨rfl, ?_⟩
  show ((!r.trace.hasFailed) = false ↔ EndInFailure steps) ↔ FailInCapitals steps
  rw [Bool.not_eq_false']
  exact hasFailed_agrees_iff hsilent hsteps

def endingIn (op : String) : Trace :=
  { logs := [{ pc := 0, op := "JUMPDEST", depth := 1 }, { pc := 1, op, depth := 1 }] }

theorem verdicts_agree_invalid :
    (endingIn "INVALID").hasFailed = true ∧ ∃ steps,
      checkSteps (endingIn "INVALID").logs = .ok steps ∧ FailInCapitals steps ∧
        EndInFailure steps := by
  obtain ⟨steps, hsteps⟩ : ∃ steps, checkSteps (endingIn "INVALID").logs = .ok steps := ⟨_, rfl⟩
  have hfailed : (endingIn "INVALID").hasFailed = true := by decide
  obtain ⟨hends, hagree, -⟩ := verdicts_agree_iff rfl hsteps
  exact ⟨hfailed, steps, hsteps, hagree.mp ⟨hends, fun _ => hfailed⟩, hends hfailed⟩

/-- The verdicts need not agree: a trace that ends in a step with the mnemonic `revert` has not
failed by its log, and has failed by its steps. -/
theorem small_letters_count_as_success :
    ¬ ∀ (t : Trace) (steps : List Step), t.failed = none → checkSteps t.logs = .ok steps →
        (t.hasFailed = true ↔ EndInFailure steps) := by
  intro h
  have hsteps : checkSteps (endingIn "revert").logs =
      .ok [{ index := 0, pc := 0, op := "JUMPDEST", depth := 1 },
        { index := 1, pc := 1, op := "revert", depth := 1 }] := by
    rfl
  have hfailed : (endingIn "revert").hasFailed = true :=
    (h _ _ rfl hsteps).mpr ⟨_, rfl, by decide⟩
  exact absurd hfailed (by decide)

end Trace

end TxForensics
