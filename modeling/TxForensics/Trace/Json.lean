import TxForensics.Json.Record
import TxForensics.Trace.Log

/-!
# Traces in JSON

The shape of step logs and traces in JSON. Gas is a quantity: a number, or a text in decimal or
behind `0x` in hexadecimal. Whatever is optional is left out of the written form if it is absent;
stacks and logs are always written.
-/

namespace TxForensics

namespace StepLog

def shape : RecordShape StepLog where
  typeName := "RawStructLog"
  blank := {}
  fields := [
    .mandatory "pc" Document.uint32 fun log pc => { log with pc },
    .mandatory "op" Document.string fun log op => { log with op },
    .mandatory "gas" Document.quantity fun log gas => { log with gas },
    .defaulted "gasCost" (Document.optional Document.quantity)
      fun log gasCost => { log with gasCost },
    .defaulted "stack" (Document.list Document.string) fun log stack => { log with stack },
    .defaulted "memory" (Document.optional (Document.list Document.string))
      fun log memory => { log with memory },
    .mandatory "depth" Document.uint32 fun log depth => { log with depth }]

def toJson (log : StepLog) : Json :=
  .ofMembers [
    Json.member "pc" (.nat log.pc.toNat),
    Json.member "op" (.text log.op),
    Json.member "gas" (.nat log.gas.toNat),
    Json.member? "gasCost" (fun n => .nat n.toNat) log.gasCost,
    Json.member "stack" (.array (log.stack.map .text)),
    Json.member? "memory" (fun words => .array (words.map .text)) log.memory,
    Json.member "depth" (.nat log.depth.toNat)]

end StepLog

namespace Trace

def shape : RecordShape Trace where
  typeName := "RawTrace"
  blank := {}
  fields := [
    .defaulted "structLogs" (Document.list StepLog.shape.read) fun t logs => { t with logs },
    .defaulted "returnValue" (Document.optional Document.string)
      fun t returnValue => { t with returnValue },
    .defaulted "revertReason" (Document.optional Document.string)
      fun t revertReason => { t with revertReason },
    .defaulted "failed" (Document.optional Document.boolean) fun t failed => { t with failed },
    .defaulted "gas" (Document.optional Document.quantity) fun t gas => { t with gas }]

def ofJson (j : Json) : Except JsonShapeError Trace := shape.read (.ofJson j)

def toJson (t : Trace) : Json :=
  .ofMembers [
    Json.member "structLogs" (.array (t.logs.map StepLog.toJson)),
    Json.member? "returnValue" .text t.returnValue,
    Json.member? "revertReason" .text t.revertReason,
    Json.member? "failed" .bool t.failed,
    Json.member? "gas" (fun n => .nat n.toNat) t.gas]

end Trace

end TxForensics
