import TxForensics.Json.Record
import TxForensics.Storage.Layout

/-!
# Storage layouts in JSON

The shape of a storage layout in JSON. The table of types may be null, which is the empty table.
-/

namespace TxForensics

namespace TypeInfo

def shape : RecordShape TypeInfo where
  typeName := "StorageTypeInfo"
  blank := {}
  fields := [
    .defaulted "encoding" Document.string fun t encoding => { t with encoding },
    .mandatory "label" Document.string fun t label => { t with label },
    .mandatory "numberOfBytes" Document.string fun t numberOfBytes => { t with numberOfBytes },
    .defaulted "key" (Document.optional Document.string) fun t key => { t with key },
    .defaulted "value" (Document.optional Document.string) fun t value => { t with value }]

def toJson (t : TypeInfo) : Json :=
  .ofMembers [
    Json.member "encoding" (.text t.encoding),
    Json.member "label" (.text t.label),
    Json.member "numberOfBytes" (.text t.numberOfBytes),
    Json.member? "key" .text t.key,
    Json.member? "value" .text t.value]

end TypeInfo

namespace StateVariable

def shape : RecordShape StateVariable where
  typeName := "StorageVariable"
  blank := {}
  fields := [
    .defaulted "astId" Document.uint64 fun v astId => { v with astId },
    .defaulted "contract" Document.string fun v contract => { v with contract },
    .mandatory "label" Document.string fun v label => { v with label },
    .defaulted "offset" Document.uint32 fun v offset => { v with offset },
    .mandatory "slot" Document.string fun v slot => { v with slot },
    .mandatory "type" Document.string fun v typeId => { v with typeId }]

def toJson (v : StateVariable) : Json :=
  .ofMembers [
    Json.member "astId" (.nat v.astId.toNat),
    Json.member "contract" (.text v.contract),
    Json.member "label" (.text v.label),
    Json.member "offset" (.nat v.offset.toNat),
    Json.member "slot" (.text v.slot),
    Json.member "type" (.text v.typeId)]

end StateVariable

namespace StorageLayout

def shape : RecordShape StorageLayout where
  typeName := "StorageLayout"
  blank := {}
  fields := [
    .defaulted "storage" (Document.list StateVariable.shape.read)
      fun l stateVariables => { l with stateVariables },
    .defaulted "types" (Document.optional (Document.map TypeInfo.shape.read))
      fun l types => { l with types := types.getD .empty }]

def ofJson (j : Json) : Except JsonShapeError StorageLayout := shape.read (.ofJson j)

def toJson (l : StorageLayout) : Json :=
  .ofMembers [
    Json.member "storage" (.array (l.stateVariables.map StateVariable.toJson)),
    Json.member "types" (.object (l.types.entries.map fun (id, info) => (id, info.toJson)))]

end StorageLayout

end TxForensics
