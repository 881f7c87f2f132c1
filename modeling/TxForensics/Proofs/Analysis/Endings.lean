import TxForensics.Proofs.Analysis.Stages

/-!
# How the search for a failure ends

A placement first notes what is wrong with the code of the artifact, and then ends in one of four
ways: there is no code, there is no source map, the step is placed, or it is not (`Ending`). What it
tells about the source map and the opcodes it tells only where it got as far as the code.

Diagnostics are told apart by their kinds here, since what they carry does not matter to which of
them may stand together.
-/

namespace TxForensics

inductive Diagnostic.Kind where
  | noSteps
  | codeDiffers
  | artifactUnreadable
  | sourceMapCut
  | opcodeDiffers
  | noCode
  | noSourceMap
  | pcUnplaced
deriving DecidableEq

namespace Diagnostic

def kind : Diagnostic → Kind
  | noSteps => .noSteps
  | noCode => .noCode
  | codeDiffers _ _ => .codeDiffers
  | artifactUnreadable _ => .artifactUnreadable
  | opcodeDiffers _ _ _ => .opcodeDiffers
  | noSourceMap => .noSourceMap
  | sourceMapCut _ _ => .sourceMapCut
  | pcUnplaced _ => .pcUnplaced

/-- The kinds of what there is to note on an artifact: at most one thing. -/
def NoteKinds (kinds : List Kind) : Prop :=
  kinds = [] ∨ kinds = [.codeDiffers] ∨ kinds = [.artifactUnreadable]

/-- The kinds of what there is to remark on a source map and on opcodes: at most one thing each. -/
def RemarkKinds (kinds : List Kind) : Prop := kinds.Sublist [.sourceMapCut, .opcodeDiffers]

/-- What following a failure may tell, in this order. -/
def endingKinds : List Kind := [.sourceMapCut, .opcodeDiffers, .noCode, .noSourceMap, .pcUnplaced]

end Diagnostic

open Diagnostic

/-- The ways in which following a failure at a pc ends, with the site and the diagnostics. -/
inductive Ending (pc : UInt32) : Option SourceSite → List Diagnostic → Prop
  | noCode : Ending pc none [.noCode]
  | noSourceMap : Ending pc none [.noSourceMap]
  | placed (site : SourceSite) {remarks : List Diagnostic} (h : RemarkKinds (remarks.map kind)) :
      Ending pc (some site) remarks
  | unplaced {remarks : List Diagnostic} (h : RemarkKinds (remarks.map kind)) :
      Ending pc none (remarks ++ [.pcUnplaced pc])

/-- The diagnostics of an ending stand in the order of `endingKinds`, and none comes twice. -/
theorem Ending.sublist_endingKinds {pc : UInt32} {site : Option SourceSite} {ds : List Diagnostic}
    (h : Ending pc site ds) : (ds.map kind).Sublist endingKinds := by
  -- the remarks come first, and the order leaves room behind them for what ends the search
  have hremarks : [Kind.sourceMapCut, .opcodeDiffers].Sublist endingKinds := by decide
  have hunplaced : ([Kind.sourceMapCut, .opcodeDiffers] ++ [Kind.pcUnplaced]).Sublist
      endingKinds := by
    decide
  cases h with
  | noCode =>
    show [Kind.noCode].Sublist endingKinds
    decide
  | noSourceMap =>
    show [Kind.noSourceMap].Sublist endingKinds
    decide
  | placed site h => exact h.trans hremarks
  | unplaced h =>
    rw [List.map_append]
    exact (h.append (List.Sublist.refl [Kind.pcUnplaced])).trans hunplaced

namespace Analyzer

variable {a : Analyzer} {r : TransactionRecord} {steps : List Step} {step : Step}

/-- Reading the code of the artifact notes one thing at most. -/
theorem kinds_artifactCode {artifact : Artifact} {chainCode found : Option Bytes}
    {notes : List Diagnostic} (h : artifactCode artifact chainCode = .ok (found, notes)) :
    NoteKinds (notes.map kind) := by
  unfold artifactCode at h
  -- the cases are those of the definition: what can be read of the artifact, and what is on chain
  split at h
  · cases h
    exact .inl rfl
  · cases h
    exact .inl rfl
  · cases h
    split
    · exact .inl rfl
    · exact .inr (.inl rfl)
  · cases h
    exact .inr (.inr rfl)
  · cases h

/-- Comparing a frame with a code tells of nothing but opcodes. -/
theorem kind_of_firstDifference? {code : Bytes} {frame : List Step} {d : Diagnostic}
    (h : firstDifference? code frame = some d) : d.kind = .opcodeDiffers := by
  obtain ⟨step, -, hstep⟩ := List.exists_of_findSome?_eq_some h
  dsimp only at hstep
  -- a step with the right name gives nothing, any other gives a differing opcode
  split at hstep
  · cases hstep
  · cases hstep
    rfl

/-- A broken source map comes before a differing opcode, and each at most once. -/
theorem kinds_remarks (m : PcMap) (code : Bytes) (frame : List Step) :
    RemarkKinds (((m.sourceMap.error.toList.map fun e => sourceMapCut e.entry e.message) ++
      (firstDifference? code frame).toList).map kind) := by
  have hcut : ((m.sourceMap.error.toList.map fun e => sourceMapCut e.entry e.message).map
      kind).Sublist [.sourceMapCut] := by
    cases m.sourceMap.error with
    | none => exact List.nil_sublist _
    | some e => exact List.Sublist.refl _
  have hdiffers : ((firstDifference? code frame).toList.map kind).Sublist [.opcodeDiffers] := by
    cases hdifference : firstDifference? code frame with
    | none => exact List.nil_sublist _
    | some d => simp [kind_of_firstDifference? hdifference]
  rw [List.map_append]
  exact hcut.append hdiffers

/-- In the code, a step is placed or it is not. -/
theorem ending_placeIn (m : PcMap) (code : Bytes) (steps : List Step) (step : Step) :
    Ending step.pc (placeIn m code steps step).1 (placeIn m code steps step).2 := by
  have hremarks := kinds_remarks m code (frameAt step.depth steps)
  unfold placeIn
  cases m.site? step.pc.toNat with
  | none => exact .unplaced hremarks
  | some site => exact .placed site hremarks

/-- However far a failure can be followed, the search ends in one of four ways. -/
theorem ending_follow (a : Analyzer) (r : TransactionRecord) (steps : List Step) (step : Step) :
    Ending step.pc (a.follow r steps step).site (a.follow r steps step).diagnostics := by
  unfold follow
  split
  · exact .noCode
  · exact .noSourceMap
  · exact ending_placeIn _ _ _ _

end Analyzer

end TxForensics
