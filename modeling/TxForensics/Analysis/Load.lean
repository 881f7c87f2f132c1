import TxForensics.Analysis.Artifact
import TxForensics.Trace.Json

/-!
# Reading the inputs of an analysis

Traces, artifacts and source texts from the contents of files. A file that does not exist has no
contents; one that is no UTF-8 has no text.

A trace is read as a tree, in which the answer of a node may wrap the trace as its `result`. An
artifact is read from the text itself, so that its many parts of no interest here are skipped
unseen, and the first mistake in the order of the text is reported, whether it is one of JSON or
of the artifact.
-/

namespace TxForensics

/-- Why the contents of a file are not what was expected. -/
inductive ContentError where
  /-- There is no file. -/
  | noFile
  /-- The bytes are no UTF-8. -/
  | notText
  /-- The text is no JSON. -/
  | notJson (e : JsonReadError)
  /-- The JSON has another shape. -/
  | shape (e : JsonShapeError)
deriving DecidableEq, Repr

/-- The wording of a JSON text that cannot be read; positions in it are not told. -/
def JsonReadError.message : JsonReadError → String
  | .endOfText => "<json eof>"
  | .malformed => "<json syntax>"

def ContentError.message : ContentError → String
  | .noFile => "No such file or directory (os error 2)"
  | .notText => "stream did not contain valid UTF-8"
  | .notJson e => e.message
  | .shape e => e.message

inductive LoadError where
  | artifact (e : ContentError)
  /-- The file of a trace is no JSON. -/
  | traceFile (e : ContentError)
  /-- The JSON of a trace has another shape. -/
  | trace (e : JsonShapeError)
  | source (e : ContentError)
deriving DecidableEq, Repr

/-- What was attempted with a file of JSON when it failed. -/
def ContentError.attempt (path : String) : ContentError → String
  | .noFile => "failed to read " ++ path
  | .notText => "failed to read " ++ path
  | .notJson _ => "failed to deserialize " ++ path
  | .shape _ => "failed to deserialize " ++ path

/-- The wording of a load error for a file, from the outermost cause to the innermost. -/
def LoadError.chain (path : String) : LoadError → List String
  | .artifact e => ["failed to load compiler artifact", e.attempt path, e.message]
  | .traceFile e => ["failed to load trace", e.attempt path, e.message]
  | .trace e => ["failed to deserialize trace " ++ path, e.message]
  | .source e => ["failed to read source file " ++ path, e.message]

/-- The contents of a file; none if it does not exist. -/
abbrev Contents := Option Bytes

namespace Contents

def text : Contents → Except ContentError String
  | none => .error .noFile
  | some bytes =>
    match Text.Utf8.decode? bytes with
    | some cs => .ok (.ofList cs)
    | none => .error .notText

end Contents

/-- A mistake in a text of JSON. Items that an array should not have are not even read there. -/
def ContentError.ofShapeError : JsonShapeError → ContentError
  | .unreadable e => .notJson e
  | .excessItems _ => .notJson .malformed
  | e => .shape e

def Artifact.ofText (s : String) : Except ContentError Artifact :=
  let whole := Document.ofText s
  match Artifact.shape.read whole.root with
  | .error e => .error (.ofShapeError e)
  | .ok a => if whole.ends then .ok a else .error (.notJson .malformed)

/-- The tree of a trace: the `result` of a tree that has one, else the tree itself. -/
def Trace.unwrap (j : Json) : Json :=
  match j with
  | .object ms => (ms.lookup "result").getD j
  | _ => j

namespace Contents

def artifact (c : Contents) : Except LoadError Artifact := do
  let s ← c.text.mapError .artifact
  (Artifact.ofText s).mapError .artifact

def trace (c : Contents) : Except LoadError Trace := do
  let s ← c.text.mapError .traceFile
  let j ← (Json.parse s).mapError fun e => .traceFile (.notJson e)
  (Trace.ofJson (Trace.unwrap j)).mapError .trace

def source (c : Contents) : Except LoadError String := c.text.mapError .source

end Contents

end TxForensics
