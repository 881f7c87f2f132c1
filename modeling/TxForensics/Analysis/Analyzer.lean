import TxForensics.Analysis.Artifact
import TxForensics.Analysis.Diagnostic
import TxForensics.Resolution.Store
import TxForensics.Revert.Reason
import TxForensics.Storage.Annotation
import TxForensics.Trace.Failure
import TxForensics.Trace.Check

/-!
# Analysing a transaction

Puts everything together: the checked steps of a trace, its storage changes by variable, and for a
failed transaction the reason, the step it is attributed to and the place in the source.

Only two things make an analysis fail: a malformed trace, and unreadable code in the artifact when
a failure is to be placed and no other code is known. All else is told by diagnostics. A failure
is resolved against the code on chain if that is known, else against the code of the artifact.

An `Analyzer` keeps the pc maps that it has built, for further transactions against the same code;
`analyze` returns the analyzer to go on with.
-/

namespace TxForensics

/-- Everything known about one transaction. -/
structure TransactionRecord where
  trace : Trace
  /-- The artifact of the contract that was called. -/
  artifact : Artifact
  /-- The source text that the artifact was compiled from. -/
  source : String
  /-- The code at the address that was called, if known. -/
  chainCode : Option Bytes
deriving DecidableEq

structure Outcome where
  success : Bool
  /-- Why the transaction failed. -/
  reason : Option RevertCause
  /-- The index of the step that the failure is attributed to. -/
  stepIndex : Option UInt32
  /-- The pc of that step. -/
  pc : Option UInt32
  /-- Where in the source the failure happened. -/
  site : Option SourceSite
deriving DecidableEq

structure Analysis where
  steps : List Step
  /-- The storage writes with the variables they touch, in the order of the steps. -/
  changes : List AnnotatedChange
  outcome : Outcome
  diagnostics : List Diagnostic
deriving DecidableEq

inductive AnalysisError where
  | malformedTrace (cause : TraceError)
  | unreadableCode (cause : HexError)
deriving DecidableEq, Repr

def AnalysisError.chain : AnalysisError → List String
  | .malformedTrace cause =>
    "invalid trace" :: cause.message ::
      match cause with
      | .stackWord _ _ word =>
        word.message ::
          match word with
          | .tooLong _ => []
          | .notHex _ hex => [hex.message]
      | .memoryWord _ _ hex => [hex.message]
      | .returnValue hex => [hex.message]
  | .unreadableCode cause =>
    ["invalid deployed bytecode in artifact", Object.errorMessage cause, cause.message]

/-- What analyses need and leave behind. -/
structure Analyzer where
  settings : Settings := {}
  /-- The pc maps that earlier analyses have built. -/
  maps : PcMapStore := .empty

namespace Analyzer

def new (settings : Settings) : Analyzer := { settings }

/-! ### The steps of a placement -/

/-- The name of what the code has at a pc. -/
def nameAt (instructions : List Instruction) (pc : Nat) : String :=
  match instructions.find? (·.pc == pc) with
  | some i => i.mnemonic?.getD "UNKNOWN"
  | none => "nothing"

/-- The first step of a frame that executed something else than the code has at its pc. -/
def firstDifference? (code : Bytes) (frame : List Step) : Option Diagnostic :=
  let instructions := Bytecode.disassemble code
  frame.findSome? fun step =>
    let name := nameAt instructions step.pc.toNat
    if step.executes name then none else some (.opcodeDiffers step.pc step.op name)

/-- The readable code of an artifact, and what there is to say about it. Unreadable code is an
error only if no code on chain stands in for it. -/
def artifactCode (artifact : Artifact) (chainCode : Option Bytes) :
    Except AnalysisError (Option Bytes × List Diagnostic) :=
  match artifact.runtimeBytes, chainCode with
  | .ok code, none => .ok (code, [])
  | .ok none, some _ => .ok (none, [])
  | .ok (some code), some onchain =>
    let artifactHash := Keccak.hash code
    let onchainHash := Keccak.hash onchain
    .ok (some code,
      if artifactHash = onchainHash then [] else [.codeDiffers artifactHash onchainHash])
  | .error cause, some _ =>
    .ok (none, [.artifactUnreadable (Object.errorMessage cause)])
  | .error cause, none => .error (.unreadableCode cause)

/-- What a placement finds: the site, the diagnostics and the pc maps afterwards. -/
structure Placement where
  site : Option SourceSite := none
  diagnostics : List Diagnostic
  maps : PcMapStore

/-- Follows a failing step back to its site. -/
def placeIn (map : PcMap) (code : Bytes) (steps : List Step) (step : Step) :
    Option SourceSite × List Diagnostic :=
  let cut := map.sourceMap.error.toList.map fun e => .sourceMapCut e.entry e.message
  let difference := (firstDifference? code (frameAt step.depth steps)).toList
  match map.site? step.pc.toNat with
  | some site => (some site, cut ++ difference)
  | none => (none, cut ++ difference ++ [.pcUnplaced step.pc])

def place (a : Analyzer) (record : TransactionRecord) (steps : List Step) (step : Step) :
    Except AnalysisError Placement := do
  let (artifactCode, diagnostics) ← artifactCode record.artifact record.chainCode
  -- the code on chain is what ran, so it goes before that of the artifact
  match record.chainCode <|> artifactCode, record.artifact.sourceMap? with
  | none, _ => return { diagnostics := diagnostics ++ [.noCode], maps := a.maps }
  | some _, none => return { diagnostics := diagnostics ++ [.noSourceMap], maps := a.maps }
  | some code, some sourceMap =>
    let (map, maps) := a.maps.fetch code sourceMap record.source a.settings
    let (site, found) := placeIn map code steps step
    return { site, diagnostics := diagnostics ++ found, maps }

/-- The storage changes of steps by variable, without variables if there is no layout. -/
def annotatedChanges (layout : Option StorageLayout) (steps : List Step) :
    List AnnotatedChange :=
  (slotChanges steps).map fun change =>
    match layout with
    | some layout => layout.annotate change
    | none => { change, variableChanges := [] }

def analyze (a : Analyzer) (record : TransactionRecord) :
    Except AnalysisError (Analysis × Analyzer) := do
  let steps ← (checkSteps record.trace.logs).mapError .malformedTrace
  let success := !record.trace.hasFailed
  let failure := if success then none else failingStep? steps
  let placement ←
    match failure with
    | none => pure { diagnostics := [], maps := a.maps }
    | some step => a.place record steps step
  -- a return value that is no hex counts as empty: the trace itself is sound
  let payload := record.trace.returnBytes.toOption.getD []
  let outcome : Outcome :=
    { success
      reason := RevertCause.ofOutcome? success payload record.trace.revertReason
        a.settings.genericReason
      stepIndex := failure.map Step.index
      pc := failure.map Step.pc
      site := placement.site }
  let analysis : Analysis :=
    { steps
      changes := annotatedChanges record.artifact.storageLayout steps
      outcome
      diagnostics := (if steps.isEmpty then [.noSteps] else []) ++ placement.diagnostics }
  return (analysis, { a with maps := placement.maps })

/-- Analyses transactions one after the other, each with the analyzer that the one before left; a
transaction that fails to be analysed leaves it as it was. -/
def analyzeAll (a : Analyzer) : List TransactionRecord → List (Except AnalysisError Analysis)
  | [] => []
  | record :: records =>
    match a.analyze record with
    | .ok (analysis, a) => .ok analysis :: analyzeAll a records
    | .error e => .error e :: analyzeAll a records

end Analyzer

end TxForensics
