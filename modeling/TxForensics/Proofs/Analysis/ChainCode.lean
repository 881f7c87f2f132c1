import TxForensics.Proofs.Analysis.Endings
import TxForensics.Proofs.Bytecode.Object

/-!
# The code on chain stands in for that of the artifact

A record whose code on chain is known is analysed as if this code were the object of its artifact.
The steps, their storage changes and the outcome are the same, whether the artifact has no code of
its own, an unreadable one or another one; only the diagnostics that compare the two codes have
nothing to tell when there is one code left.

    artifactCode ──notes──▶ ┐
                            ├──▶ diagnostics
    code? ────── follow ──▶ ┘        the code on chain decides `code?`, the artifact only the notes
-/

namespace TxForensics

namespace Diagnostic

/-- Whether it tells how the code of the artifact compares with that on chain. -/
def comparesCodes (d : Diagnostic) : Bool := d.kind = .codeDiffers ∨ d.kind = .artifactUnreadable

/-- Nothing is filtered out of diagnostics that do not compare codes. -/
theorem filter_of_kinds {ds : List Diagnostic} (h : ∀ d ∈ ds, d.comparesCodes = false) :
    (ds.filter fun d => !d.comparesCodes) = ds := by
  rw [List.filter_eq_self]
  intro d hd
  rw [h d hd]
  rfl

end Diagnostic

/-- Codes are compared before a failure is followed, so its ending does not compare them. -/
theorem Ending.not_comparesCodes {pc : UInt32} {site : Option SourceSite} {ds : List Diagnostic}
    (h : Ending pc site ds) : ∀ d ∈ ds, d.comparesCodes = false := by
  intro d hd
  have hkind : d.kind ∈ Diagnostic.endingKinds :=
    h.sublist_endingKinds.subset (List.mem_map_of_mem hd)
  -- the kinds of an ending are five, of which none is for comparisons
  have hnot : ∀ k ∈ Diagnostic.endingKinds, ¬(k = .codeDiffers ∨ k = .artifactUnreadable) := by
    decide
  exact decide_eq_false (hnot d.kind hkind)

namespace TransactionRecord

def onChain (r : TransactionRecord) (code : Bytes) : TransactionRecord :=
  { r with chainCode := some code }

/-- The record without a code on chain, with another object in its artifact; the source map stays as
it was. -/
def withObject (r : TransactionRecord) (object : String) : TransactionRecord :=
  { r with
    artifact := { r.artifact with
      runtime := some { object, sourceMap := r.artifact.runtime.bind RuntimeCode.sourceMap } }
    chainCode := none }

variable {r : TransactionRecord} {code : Bytes} {object : String}

/-- An object in hex is neither missing nor blank, and is read as its bytes. -/
theorem runtimeBytes_withObject (hcode : code ≠ []) (hobject : Object.Spells object code) :
    (r.withObject object).artifact.runtimeBytes = .ok (some code) := by
  have hdecode := hobject.decode_eq
  have hnotBlank : ¬ (object = "" ∨ object = "0x") := by
    -- blank objects would be read as no bytes
    rintro (rfl | rfl)
    · have hempty : Object.decode "" = .ok [] := Object.decode_encode []
      rw [hempty] at hdecode
      exact hcode (Except.ok.inj hdecode).symm
    · have hmark : Object.decode "0x" = .ok [] := Object.decode_prefixed []
      rw [hmark] at hdecode
      exact hcode (Except.ok.inj hdecode).symm
  rw [withObject, Artifact.runtimeBytes]
  dsimp only
  rw [hobject.trimmed_eq, if_neg hnotBlank, hdecode]
  rfl

theorem code?_withObject (hcode : code ≠ []) (hobject : Object.Spells object code) :
    (r.withObject object).code? = some code := by
  rw [code?, runtimeBytes_withObject hcode hobject]
  rfl

end TransactionRecord

namespace Analyzer

variable {r : TransactionRecord} {code : Bytes} {object : String} {steps : List Step}

/-- All notes on an artifact compare its code with that on chain. -/
theorem comparesCodes_of_artifactCode {artifact : Artifact} {chainCode found : Option Bytes}
    {notes : List Diagnostic} (h : artifactCode artifact chainCode = .ok (found, notes)) :
    ∀ d ∈ notes, d.comparesCodes = true := by
  intro d hd
  have hkind : d.kind ∈ notes.map Diagnostic.kind := List.mem_map_of_mem hd
  rcases kinds_artifactCode h with hkinds | hkinds | hkinds
  · rw [hkinds] at hkind
    cases hkind
  · rw [hkinds, List.mem_singleton] at hkind
    simp [Diagnostic.comparesCodes, hkind]
  · rw [hkinds, List.mem_singleton] at hkind
    simp [Diagnostic.comparesCodes, hkind]

/-- The failures are followed alike; only the code on chain comes with notes on that of the
artifact. -/
theorem placeFailure_onChain (a : Analyzer) (steps : List Step) (hcode : code ≠ [])
    (hobject : Object.Spells object code) :
    ∃ notes placed, a.placeFailure (r.onChain code) steps = .ok (Placement.noting notes placed) ∧
      a.placeFailure (r.withObject object) steps = .ok placed ∧
      (notes.filter fun d => !d.comparesCodes) = [] ∧
      (placed.diagnostics.filter fun d => !d.comparesCodes) = placed.diagnostics := by
  have hfailure : failure? (r.withObject object) steps = failure? (r.onChain code) steps := rfl
  rw [placeFailure, placeFailure, hfailure]
  -- both have the same failing step; without one, no code is looked at
  cases failure? (r.onChain code) steps with
  | none => exact ⟨[], { diagnostics := [], maps := a.maps }, rfl, rfl, rfl, rfl⟩
  | some step =>
    -- following looks at the artifact through `code?` only, where both have the same
    have hfollow : a.follow (r.withObject object) steps step =
        a.follow (r.onChain code) steps step := by
      have hcodes : (r.withObject object).code? = (r.onChain code).code? :=
        TransactionRecord.code?_withObject hcode hobject
      rw [follow, follow, hcodes]
      rfl
    have hread : artifactCode (r.withObject object).artifact (r.withObject object).chainCode =
        .ok (some code, []) := by
      have hbytes := TransactionRecord.runtimeBytes_withObject (r := r) hcode hobject
      unfold artifactCode
      rw [hbytes]
      rfl
    cases hnotes : artifactCode (r.onChain code).artifact (r.onChain code).chainCode with
    | error e =>
      -- with a code on chain, an unreadable artifact is no error
      obtain ⟨hchain, -⟩ := artifactCode_eq_error_iff.mp hnotes
      cases hchain
    | ok found =>
      obtain ⟨own, notes⟩ := found
      refine ⟨notes, a.follow (r.onChain code) steps step, ?_, ?_, ?_, ?_⟩
      · dsimp only
        rw [place_eq, hnotes]
        rfl
      · dsimp only
        rw [place_eq, hread, hfollow]
        rfl
      · rw [List.filter_eq_nil_iff]
        intro d hd
        rw [comparesCodes_of_artifactCode hnotes d hd]
        decide
      · have hending := ending_follow a (r.onChain code) steps step
        exact Diagnostic.filter_of_kinds hending.not_comparesCodes

/-- **The code on chain overrides that of the artifact.** With a code on chain, a record is analysed
as without one when that code is the object of its artifact: both analyses fail in the same way, or
both find the same steps, changes and outcome, tell the same apart from how the two codes compare,
and leave the same analyzer. -/
theorem analyze_onChain (a : Analyzer) (r : TransactionRecord) {code : Bytes} {object : String}
    (hcode : code ≠ []) (hobject : Object.Spells object code) :
    (∃ e, a.analyze (r.onChain code) = .error e ∧ a.analyze (r.withObject object) = .error e) ∨
    ∃ (x x' : Analysis) (b : Analyzer),
      a.analyze (r.onChain code) = .ok (x, b) ∧ a.analyze (r.withObject object) = .ok (x', b) ∧
      x.steps = x'.steps ∧ x.changes = x'.changes ∧ x.outcome = x'.outcome ∧
      (x.diagnostics.filter fun d => !d.comparesCodes) = x'.diagnostics := by
  -- an invalid word fails both before any code is read
  cases hsteps : checkSteps r.trace.logs with
  | error e => exact .inl ⟨.malformedTrace e, analyze_of_error hsteps, analyze_of_error hsteps⟩
  | ok steps =>
    obtain ⟨notes, placed, honChain, hwithObject, hnotes, hplaced⟩ :=
      placeFailure_onChain (r := r) a steps hcode hobject
    have hanalyze : a.analyze (r.onChain code) = _ := analyze_of_ok hsteps
    have hanalyze' : a.analyze (r.withObject object) = _ := analyze_of_ok hsteps
    rw [honChain] at hanalyze
    rw [hwithObject] at hanalyze'
    refine .inr ⟨_, _, _, hanalyze, hanalyze', rfl, rfl, rfl, ?_⟩
    simp only [report, Placement.noting, List.filter_append, hnotes, hplaced, List.nil_append]
    split
    · rfl
    · rfl

def failureOfDamagedArtifact : TransactionRecord :=
  { trace :=
      { logs := [{ pc := 0, op := "JUMPDEST", depth := 1 }, { pc := 1, op := "REVERT", depth := 1 }]
        failed := some true }
    artifact := { runtime := some { object := "0xzz", sourceMap := some "0:1:0;;" } }
    source := "f();"
    chainCode := none }

/-- With the code on chain it can be placed all the same. -/
theorem analyze_onChain_damaged :
    [0x5b, 0xfd] ≠ ([] : Bytes) ∧ Object.Spells "0x5bfd" [0x5b, 0xfd] ∧
    ∃ (x x' : Analysis) (b : Analyzer),
      (new {}).analyze (failureOfDamagedArtifact.onChain [0x5b, 0xfd]) = .ok (x, b) ∧
      (new {}).analyze (failureOfDamagedArtifact.withObject "0x5bfd") = .ok (x', b) ∧
      x.outcome = x'.outcome ∧
      (x.diagnostics.filter fun d => !d.comparesCodes) = x'.diagnostics := by
  have hcode : [0x5b, 0xfd] ≠ ([] : Bytes) := by decide
  have hspells : Object.Spells "0x5bfd" [0x5b, 0xfd] := .inr (by decide +kernel)
  have hrequest : (failureOfDamagedArtifact.onChain [0x5b, 0xfd]).request? (new {}).settings =
      some ⟨[0x5b, 0xfd], "0:1:0;;", "f();", {}⟩ := by
    decide +kernel
  obtain ⟨_, _, hok, -⟩ := exists_analysis_of_request? hrequest
  refine ⟨hcode, hspells, ?_⟩
  rcases analyze_onChain (new {}) failureOfDamagedArtifact hcode hspells
    with ⟨e, herror, -⟩ | ⟨x, x', b, hx, hx', -, -, houtcome, hdiagnostics⟩
  · cases hok.symm.trans herror
  · exact ⟨x, x', b, hx, hx', houtcome, hdiagnostics⟩

end Analyzer

end TxForensics
