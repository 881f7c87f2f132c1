import TxForensics.Proofs.Analysis.Endings
import TxForensics.Proofs.Trace.Check

/-!
# What an analysis accounts for

An analysis says what it could not find. Its diagnostics stand in one order of their kinds, and each
stage adds to its own part of it:

    noSteps │ codeDiffers or artifactUnreadable │ sourceMapCut, opcodeDiffers, and noCode,
            │                                   │ noSourceMap, pcUnplaced or nothing
     steps  │               notes               │ ending

So no kind comes twice, and a failure that belongs to a step either has a site or exactly one
diagnostic that tells why it has none.
-/

namespace TxForensics

def Analysis.kinds (x : Analysis) : List Diagnostic.Kind := x.diagnostics.map Diagnostic.kind

/-- What there may be to show for the place of a failure: the place, or what it lacks. -/
def findings (site : Option SourceSite) (kinds : List Diagnostic.Kind) : List Bool :=
  [site.isSome, kinds.contains .noCode, kinds.contains .noSourceMap, kinds.contains .pcUnplaced]

/-- An analysis of a record that accounts for everything it lacks. -/
structure Accounts (r : TransactionRecord) (x : Analysis) : Prop where
  steps : checkSteps r.trace.logs = .ok x.steps
  success : x.outcome.success = !r.trace.hasFailed
  reason : x.outcome.reason.isSome = r.trace.hasFailed
  noSteps : .noSteps ∈ x.diagnostics ↔ x.steps = []
  -- without a failing step there is nothing to place, and nothing else that could be missing
  unfailing : r.trace.hasFailed = false ∨ x.steps = [] →
    x.outcome.stepIndex = none ∧ x.outcome.pc = none ∧ x.outcome.site = none ∧
      ∀ d ∈ x.diagnostics, d = .noSteps
  -- a failing step is named, and has its place or one diagnostic instead
  failing : r.trace.hasFailed = true → x.steps ≠ [] →
    ∃ before step after, x.steps = before ++ step :: after ∧ IsFailing before step after ∧
      x.outcome.stepIndex = some before.length.toUInt32 ∧ x.outcome.pc = some step.pc ∧
      (findings x.outcome.site x.kinds).count true = 1 ∧
      ∀ pc, .pcUnplaced pc ∈ x.diagnostics → pc = step.pc
  -- source map and opcodes are looked at only where a code is followed
  followed : .sourceMapCut ∈ x.kinds ∨ .opcodeDiffers ∈ x.kinds →
    x.outcome.site.isSome = true ∨ .pcUnplaced ∈ x.kinds
  compared : ¬(.codeDiffers ∈ x.kinds ∧ .artifactUnreadable ∈ x.kinds)
  once : x.kinds.Nodup

open Diagnostic

/-! ## Endings by kinds -/

section Ending

variable {pc : UInt32} {site : Option SourceSite} {ds : List Diagnostic}

/-- Remarks are on the source map and on opcodes, so they have no other kind. -/
theorem not_mem_kinds_of_remarks {remarks : List Diagnostic} {k : Kind}
    (h : RemarkKinds (remarks.map kind)) (hk : k ∉ [Kind.sourceMapCut, .opcodeDiffers]) :
    k ∉ remarks.map kind := by
  intro hmem
  exact hk (h.subset hmem)

/-- Each ending finds one thing: the place, or what it lacks. -/
theorem Ending.count_findings (h : Ending pc site ds) :
    (findings site (ds.map kind)).count true = 1 := by
  -- remarks add no finding, so each ending is counted by what it ends with
  cases h with
  | noCode => rfl
  | noSourceMap => rfl
  | placed site h =>
    have hnoCode := not_mem_kinds_of_remarks (k := .noCode) h (by decide)
    have hnoSourceMap := not_mem_kinds_of_remarks (k := .noSourceMap) h (by decide)
    have hpcUnplaced := not_mem_kinds_of_remarks (k := .pcUnplaced) h (by decide)
    rw [findings, List.contains_eq_mem, List.contains_eq_mem, List.contains_eq_mem,
      decide_eq_false hnoCode, decide_eq_false hnoSourceMap, decide_eq_false hpcUnplaced]
    rfl
  | unplaced h =>
    have hnoCode := not_mem_kinds_of_remarks (k := .noCode) h (by decide)
    have hnoSourceMap := not_mem_kinds_of_remarks (k := .noSourceMap) h (by decide)
    simp [findings, kind, hnoCode, hnoSourceMap]

/-- An ending with remarks has got as far as the code. -/
theorem Ending.followed (h : Ending pc site ds)
    (hremark : .sourceMapCut ∈ ds.map kind ∨ .opcodeDiffers ∈ ds.map kind) :
    site.isSome = true ∨ .pcUnplaced ∈ ds.map kind := by
  cases h with
  | noCode => simp [kind] at hremark
  | noSourceMap => simp [kind] at hremark
  | placed site h => exact .inl rfl
  | unplaced h =>
    right
    simp [kind]

theorem Ending.eq_pc_of_mem {other : UInt32} (h : Ending pc site ds)
    (hmem : .pcUnplaced other ∈ ds) : other = pc := by
  have hkind : Kind.pcUnplaced ∈ ds.map kind := List.mem_map_of_mem hmem
  cases h with
  | noCode => simp [kind] at hkind
  | noSourceMap => simp [kind] at hkind
  | placed site h => exact absurd hkind (not_mem_kinds_of_remarks h (by decide))
  | @unplaced remarks h =>
    have hremark : .pcUnplaced other ∉ remarks := fun hremark =>
      not_mem_kinds_of_remarks (k := .pcUnplaced) h (by decide) (List.mem_map_of_mem hremark)
    -- only the diagnostic behind the remarks is left
    simpa [hremark] using hmem

end Ending

/-! ## Notes in front of an ending -/

section Notes

variable {notes ending : List Kind} (hnotes : NoteKinds notes)
  (hending : ending.Sublist endingKinds)
include hnotes

/-- Notes have kinds of their own, so they do not matter to those of an ending. -/
theorem mem_notes_append_iff {k : Kind} (hk : k ∈ endingKinds) :
    k ∈ notes ++ ending ↔ k ∈ ending := by
  have hnot : k ∉ notes := by
    have hapart : ∀ k ∈ endingKinds, k ≠ .codeDiffers ∧ k ≠ .artifactUnreadable := by decide
    obtain ⟨hdiffers, hunreadable⟩ := hapart k hk
    rcases hnotes with rfl | rfl | rfl
    · exact List.not_mem_nil
    · simpa using hdiffers
    · simpa using hunreadable
  rw [List.mem_append, or_iff_right hnot]

/-- What has been found shows in the ending alone. -/
theorem findings_notes_append (site : Option SourceSite) :
    findings site (notes ++ ending) = findings site ending := by
  have hcontains : ∀ k ∈ endingKinds, (notes ++ ending).contains k = ending.contains k := by
    intro k hk
    rw [List.contains_eq_mem, List.contains_eq_mem]
    exact decide_eq_decide.mpr (mem_notes_append_iff hnotes hk)
  rw [findings, hcontains .noCode (by decide), hcontains .noSourceMap (by decide),
    hcontains .pcUnplaced (by decide), findings]

include hending

theorem not_both_of_notes :
    ¬(.codeDiffers ∈ notes ++ ending ∧ .artifactUnreadable ∈ notes ++ ending) := by
  have hdiffers : .codeDiffers ∉ ending := fun h =>
    absurd (hending.subset h) (by decide)
  have hunreadable : .artifactUnreadable ∉ ending := fun h =>
    absurd (hending.subset h) (by decide)
  -- an ending has neither kind, so both would have to be notes, of which there is at most one
  rw [List.mem_append, List.mem_append, or_iff_left hdiffers, or_iff_left hunreadable]
  rcases hnotes with rfl | rfl | rfl <;> decide

/-- The order of all kinds: notes first, then the ending. -/
theorem sublist_of_notes :
    (notes ++ ending).Sublist ([.codeDiffers, .artifactUnreadable] ++ endingKinds) := by
  refine List.Sublist.append ?_ hending
  rcases hnotes with rfl | rfl | rfl <;> decide

end Notes

theorem Ending.eq_pc_of_mem_append {pc other : UInt32} {site : Option SourceSite}
    {notes ds : List Diagnostic} (h : Ending pc site ds) (hnotes : NoteKinds (notes.map kind))
    (hmem : .pcUnplaced other ∈ notes ++ ds) : other = pc := by
  rcases List.mem_append.mp hmem with hmem | hmem
  · have hkind : Kind.pcUnplaced ∈ notes.map kind := List.mem_map_of_mem hmem
    rcases hnotes with hnotes | hnotes | hnotes
    · simp [hnotes] at hkind
    · simp [hnotes] at hkind
    · simp [hnotes] at hkind
  · exact h.eq_pc_of_mem hmem

namespace Analyzer

variable {a b : Analyzer} {r : TransactionRecord} {steps : List Step} {x : Analysis}

/-- A placement that succeeds has nothing to place, or it gives notes and then an ending. -/
theorem placeFailure_eq_ok {placed : Placement} (h : a.placeFailure r steps = .ok placed) :
    (failure? r steps = none ∧ placed.site = none ∧ placed.diagnostics = []) ∨
    ∃ step notes ds, failure? r steps = some step ∧ placed.diagnostics = notes ++ ds ∧
      NoteKinds (notes.map kind) ∧ Ending step.pc placed.site ds := by
  rw [placeFailure] at h
  cases hfailure : failure? r steps with
  | none =>
    rw [hfailure] at h
    cases h
    exact .inl ⟨rfl, rfl, rfl⟩
  | some step =>
    rw [hfailure] at h
    dsimp only at h
    rw [place_eq] at h
    -- the notes come from the artifact, the ending from following the step
    cases hartifact : artifactCode r.artifact r.chainCode with
    | error e =>
      rw [hartifact] at h
      cases h
    | ok found =>
      rw [hartifact] at h
      cases h
      exact .inr ⟨step, found.2, _, rfl, rfl, kinds_artifactCode hartifact,
        ending_follow a r steps step⟩

theorem isSome_ofOutcome? (failed : Bool) (payload : Bytes) (plainReason : Option String)
    (generic : String) :
    (RevertCause.ofOutcome? (!failed) payload plainReason generic).isSome = failed := by
  cases failed <;> rfl

/-- Where no step has failed, there is nothing to place and only steps can be missing. -/
theorem accounts_of_not_failure (settings : Settings) (hsteps : checkSteps r.trace.logs = .ok steps)
    (hfailure : failure? r steps = none) : Accounts r (report settings r steps none []) := by
  have hkinds : (report settings r steps none []).kinds =
      if steps.isEmpty then [.noSteps] else [] := by
    cases steps <;> rfl
  refine
    { steps := hsteps, success := rfl, reason := isSome_ofOutcome? .., noSteps := ?_,
      unfailing := fun _ => ⟨?_, ?_, rfl, ?_⟩, failing := ?_, followed := ?_, compared := ?_,
      once := ?_ }
  · cases steps <;> simp [report]
  · simp [report, hfailure]
  · simp [report, hfailure]
  · cases steps <;> simp [report]
  · intro hfailed hne
    rcases failure?_eq_none_iff.mp hfailure with hok | hnil
    · rw [hok] at hfailed
      cases hfailed
    · exact absurd hnil hne
  · rw [hkinds]
    cases steps <;> simp
  · rw [hkinds]
    cases steps <;> simp
  · rw [hkinds]
    cases steps <;> simp

/-- A failing step is told with its place or with what is missing to place it. -/
theorem accounts_of_failure (settings : Settings) {step : Step} {site : Option SourceSite}
    {notes ds : List Diagnostic} (hsteps : checkSteps r.trace.logs = .ok steps)
    (hfailure : failure? r steps = some step)
    (hnotes : NoteKinds (notes.map kind)) (hending : Ending step.pc site ds) :
    Accounts r (report settings r steps site (notes ++ ds)) := by
  obtain ⟨hfailed, hne, hstep⟩ := failure?_eq_some_iff.mp hfailure
  have hdiagnostics : (report settings r steps site (notes ++ ds)).diagnostics = notes ++ ds := by
    simp [report, hne]
  have hkinds : (report settings r steps site (notes ++ ds)).kinds =
      notes.map kind ++ ds.map kind := by
    rw [Analysis.kinds, hdiagnostics, List.map_append]
  have hsub := hending.sublist_endingKinds
  have hall := sublist_of_notes hnotes hsub
  refine
    { steps := hsteps, success := rfl, reason := isSome_ofOutcome? .., noSteps := ?_,
      unfailing := ?_, failing := ?_, followed := ?_, compared := ?_, once := ?_ }
  · rw [hdiagnostics]
    refine iff_of_false (fun hmem => ?_) hne
    -- the order of the kinds has no place for missing steps
    have hkind := hall.subset (List.map_append ▸ List.mem_map_of_mem (f := kind) hmem)
    revert hkind
    decide
  · rintro (hok | hnil)
    · rw [hfailed] at hok
      cases hok
    · exact absurd hnil hne
  · intro _ _
    obtain ⟨before, after, rfl, hfailing⟩ := exists_isFailing hstep
    refine ⟨before, step, after, rfl, hfailing, ?_, ?_, ?_, ?_⟩
    · rw [← index_of_checkSteps hsteps]
      simp [report, hfailure]
    · simp [report, hfailure]
    · rw [hkinds, findings_notes_append hnotes]
      exact hending.count_findings
    · intro pc hmem
      rw [hdiagnostics] at hmem
      exact hending.eq_pc_of_mem_append hnotes hmem
  · rw [hkinds, mem_notes_append_iff hnotes (by decide), mem_notes_append_iff hnotes (by decide),
      mem_notes_append_iff hnotes (by decide)]
    exact hending.followed
  · rw [hkinds]
    exact not_both_of_notes hnotes hsub
  · rw [hkinds]
    -- a sublist of a list in which no kind comes twice
    exact hall.nodup (by decide)

/-- **Every analysis accounts for what it lacks.** Whatever an analyzer has kept, an analysis of a
record names the missing steps, the reason, the step and the pc of a failure, and either its place
or the one thing that it takes to find it; and it says nothing twice. -/
theorem analyze_accounts (h : a.analyze r = .ok (x, b)) : Accounts r x := by
  obtain ⟨steps, placed, hsteps, hplaced, rfl, -⟩ := analyze_eq_ok_iff.mp h
  -- whatever the stored maps answer, a placement is of one of two shapes
  rcases placeFailure_eq_ok hplaced with
    ⟨hfailure, hsite, hdiagnostics⟩ | ⟨step, notes, ds, hfailure, hdiagnostics, hnotes, hending⟩
  · rw [hsite, hdiagnostics]
    exact accounts_of_not_failure a.settings hsteps hfailure
  · rw [hdiagnostics]
    exact accounts_of_failure a.settings hsteps hfailure hnotes hending

/-- A failure in a code that is neither that of the artifact nor what the trace has executed, with a
source map that breaks off. -/
def failureInOtherCode : TransactionRecord :=
  { trace :=
      { logs := [{ pc := 0, op := "CALLER", depth := 1 }, { pc := 1, op := "REVERT", depth := 1 }]
        failed := some true }
    artifact := { runtime := some { object := "00", sourceMap := some "0:1:0;x" } }
    source := "f();"
    chainCode := some [0x5b, 0xfd] }

/-- It is accounted for all the same. -/
theorem analyze_accounts_otherCode :
    ∃ (x : Analysis) (b : Analyzer), (new {}).analyze failureInOtherCode = .ok (x, b) ∧
      Accounts failureInOtherCode x := by
  have hrequest : failureInOtherCode.request? (new {}).settings =
      some ⟨[0x5b, 0xfd], "0:1:0;x", "f();", {}⟩ := by
    decide +kernel
  obtain ⟨x, b, hok, -⟩ := exists_analysis_of_request? hrequest
  exact ⟨x, b, hok, analyze_accounts hok⟩

end Analyzer

end TxForensics
