import TxForensics.Json.Record
import TxForensics.Settings

/-!
# Settings in JSON

The shape of the settings in JSON. Every setting has a default, so the empty object is the default
settings.
-/

namespace TxForensics.Settings

def shape : RecordShape Settings where
  typeName := "ResolverConfig"
  blank := {}
  fields := [
    .defaulted "synthetic_lookback" Document.wordSized
      fun s lookback => { s with lookback },
    .defaulted "neighbor_tolerance" Document.wordSized
      fun s tolerance => { s with tolerance },
    .defaulted "function_context" Document.boolean
      fun s withFunction => { s with withFunction },
    .defaulted "generic_revert_message" Document.string
      fun s genericReason => { s with genericReason }]

def ofJson (j : Json) : Except JsonShapeError Settings := shape.read (.ofJson j)

def toJson (s : Settings) : Json :=
  .ofMembers [
    Json.member "synthetic_lookback" (.nat s.lookback.toNat),
    Json.member "neighbor_tolerance" (.nat s.tolerance.toNat),
    Json.member "function_context" (.bool s.withFunction),
    Json.member "generic_revert_message" (.text s.genericReason)]

end TxForensics.Settings
