import TxForensics.Trace.Step

/-!
# The step a failure belongs to

Only the outermost frame of a transaction runs the code of the contract that was called, so a
failure is placed there, at its last failing step, or at its last step if none fails.
-/

namespace TxForensics

/-- The least call depth of a trace. -/
def outermostDepth? (steps : List Step) : Option UInt32 := (steps.map Step.depth).min?

/-- The steps of the frame at a depth. -/
def frameAt (depth : UInt32) (steps : List Step) : List Step := steps.filter (·.depth == depth)

/-- The step that a failure is attributed to. -/
def failingStep? (steps : List Step) : Option Step := do
  let depth ← outermostDepth? steps
  let frame := frameAt depth steps
  frame.findRev? Step.endsInFailure <|> frame.getLast?

end TxForensics
