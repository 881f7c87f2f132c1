/-!
# Settings

What can be adjusted about the attribution of program counters and the report of a failure.
-/

namespace TxForensics

/-- The settings of an analysis. -/
structure Settings where
  /-- How many instructions to walk back from generated code to handwritten code. -/
  lookback : UInt64 := 20
  /-- How far from an instruction without a source map entry to look for one that has one. -/
  tolerance : UInt64 := 5
  /-- Whether a place in the source comes with the function around it. -/
  withFunction : Bool := true
  /-- The reason of a failure that carries none. -/
  genericReason : String := "Transaction reverted"
deriving DecidableEq

instance : Inhabited Settings := ⟨{}⟩

end TxForensics
