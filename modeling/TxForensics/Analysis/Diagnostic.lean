import TxForensics.Word

/-!
# Diagnostics

What limits an analysis without ending it: each diagnostic tells why a part of the result is
missing or may be unreliable.
-/

namespace TxForensics

/-- A problem that an analysis survives. -/
inductive Diagnostic where
  /-- The trace has no steps. -/
  | noSteps
  /-- There is no code to follow the failure in. -/
  | noCode
  /-- The code on chain is not that of the artifact. -/
  | codeDiffers (artifactHash onchainHash : Word)
  /-- The code of the artifact is unreadable, so that on chain was taken. -/
  | artifactUnreadable (reason : String)
  /-- A step executed something else than the code has at its pc. -/
  | opcodeDiffers (pc : UInt32) (traced disassembled : String)
  /-- The artifact has no source map. -/
  | noSourceMap
  /-- The source map ends at a malformed entry. -/
  | sourceMapCut (entry : Nat) (reason : String)
  /-- The failing pc belongs to no handwritten source. -/
  | pcUnplaced (pc : UInt32)
deriving DecidableEq

def Diagnostic.text : Diagnostic → String
  | .noSteps => "trace contains no steps"
  | .noCode => "no bytecode to resolve against"
  | .codeDiffers artifactHash onchainHash =>
    "on-chain code " ++ onchainHash.hex ++ " does not match artifact bytecode " ++ artifactHash.hex
  | .artifactUnreadable reason => "ignoring invalid artifact bytecode: " ++ reason
  | .opcodeDiffers pc traced disassembled =>
    "traced " ++ traced ++ " at pc " ++ Text.Numeral.decimal pc.toNat ++ ", but bytecode has " ++
      disassembled
  | .noSourceMap => "artifact has no runtime source map"
  | .sourceMapCut entry reason =>
    "source map truncated at entry " ++ Text.Numeral.decimal entry ++ ": " ++ reason
  | .pcUnplaced pc =>
    "pc " ++ Text.Numeral.decimal pc.toNat ++ " does not map to authored source"

end TxForensics
