import TxForensics.Bytecode.Object
import TxForensics.Storage.Json

/-!
# Compiler artifacts

The parts of a compiler artifact that an analysis needs: the runtime bytecode as an object text,
its source map and the storage layout. Each may be missing, and a blank one is as good as missing.
-/

namespace TxForensics

/-- Runtime bytecode as a compiler writes it. -/
structure RuntimeCode where
  object : String := ""
  sourceMap : Option String := none
deriving DecidableEq, Inhabited

structure Artifact where
  storageLayout : Option StorageLayout := none
  runtime : Option RuntimeCode := none
deriving DecidableEq, Inhabited

namespace RuntimeCode

def shape : RecordShape RuntimeCode where
  typeName := "DeployedBytecode"
  blank := {}
  fields := [
    .defaulted "object" Document.string fun b object => { b with object },
    .defaulted "sourceMap" (Document.optional Document.string)
      fun b sourceMap => { b with sourceMap }]

def toJson (b : RuntimeCode) : Json :=
  .ofMembers [
    Json.member "object" (.text b.object),
    Json.member? "sourceMap" .text b.sourceMap]

end RuntimeCode

namespace Artifact

def shape : RecordShape Artifact where
  typeName := "CompiledArtifact"
  blank := {}
  fields := [
    .defaulted "storageLayout" (Document.optional StorageLayout.shape.read)
      fun a storageLayout => { a with storageLayout },
    .defaulted "deployedBytecode" (Document.optional RuntimeCode.shape.read)
      fun a runtime => { a with runtime }]

def ofJson (j : Json) : Except JsonShapeError Artifact := shape.read (.ofJson j)

def toJson (a : Artifact) : Json :=
  .ofMembers [
    Json.member? "storageLayout" StorageLayout.toJson a.storageLayout,
    Json.member? "deployedBytecode" RuntimeCode.toJson a.runtime]

/-- The runtime bytecode; none if the artifact carries none. -/
def runtimeBytes (a : Artifact) : Except HexError (Option Bytes) :=
  match a.runtime with
  | none => .ok none
  | some b =>
    let object := Text.trimmed b.object
    if object = "" ∨ object = "0x" then .ok none else (Object.decode object).map some

/-- The source map of the runtime bytecode, if it is not blank. -/
def sourceMap? (a : Artifact) : Option String :=
  (a.runtime.bind RuntimeCode.sourceMap).filter fun map => Text.trimmed map ≠ ""

end Artifact

end TxForensics
