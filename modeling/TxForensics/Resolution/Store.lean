import TxForensics.Resolution.PcMap

/-!
# A store of pc maps

Pc maps filed under the hash of the code they were built from. The first map built for a code
stays: later requests for the same code get it, whatever source map, source text or settings they
bring. `fetch` is the one operation that changes a store, and it only ever adds a map under a hash
that had none.
-/

namespace TxForensics

/-- Pc maps by the hash of their code, the first one built first. -/
structure PcMapStore where
  maps : List (Word × PcMap) := []
deriving DecidableEq

namespace PcMapStore

def empty : PcMapStore := {}

def get? (store : PcMapStore) (codeHash : Word) : Option PcMap := store.maps.lookup codeHash

def size (store : PcMapStore) : Nat := store.maps.length

def isEmpty (store : PcMapStore) : Bool := store.maps.isEmpty

/-- The map of a code, built on the first request, and the store that holds it. -/
def fetch (store : PcMapStore) (code : Bytes) (sourceMap source : String) (settings : Settings) :
    PcMap × PcMapStore :=
  match store.get? (Keccak.hash code) with
  | some map => (map, store)
  | none =>
    let map := PcMap.build code sourceMap source settings
    (map, ⟨store.maps ++ [(Keccak.hash code, map)]⟩)

end PcMapStore

end TxForensics
