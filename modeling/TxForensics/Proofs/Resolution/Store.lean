import TxForensics.Resolution.Store

/-!
# What a store holds after a run of requests

A map is filed under the hash of its code and stays there, so under every hash a store holds what
the first request with that hash built:

    get?_afterFetching :
      (empty.afterFetching requests).get? h = (requests.find? (·.key = h)).map MapRequest.map

The law needs nothing of the hash. Two codes with one hash would share the map of the first.
-/

namespace TxForensics

structure MapRequest where
  code : Bytes
  sourceMap : String
  source : String
  settings : Settings
deriving DecidableEq

namespace MapRequest

/-- The map that the request builds if it is the first for its code. -/
def map (q : MapRequest) : PcMap := .build q.code q.sourceMap q.source q.settings

def key (q : MapRequest) : Word := Keccak.hash q.code

end MapRequest

namespace PcMapStore

def request (store : PcMapStore) (q : MapRequest) : PcMap × PcMapStore :=
  store.fetch q.code q.sourceMap q.source q.settings

def afterFetching (store : PcMapStore) (requests : List MapRequest) : PcMapStore :=
  requests.foldl (fun store q => (store.request q).2) store

theorem request_of_get? {store : PcMapStore} {q : MapRequest} {m : PcMap}
    (h : store.get? q.key = some m) : store.request q = (m, store) := by
  rw [MapRequest.key] at h
  rw [request, fetch, h]

/-- A request for which there is no map builds one and files it behind the others. -/
theorem request_of_get?_eq_none {store : PcMapStore} {q : MapRequest}
    (h : store.get? q.key = none) :
    store.request q = (q.map, ⟨store.maps ++ [(q.key, q.map)]⟩) := by
  rw [MapRequest.key] at h
  rw [request, fetch, h]
  rfl

/-- A request changes what is filed under its own hash, and that only if nothing was. -/
theorem get?_request (store : PcMapStore) (q : MapRequest) (h : Word) :
    (store.request q).2.get? h = (store.get? h <|> if q.key = h then some q.map else none) := by
  cases hq : store.get? q.key with
  | some m =>
    rw [request_of_get? hq]
    split
    · next heq => simp [← heq, hq]
    · simp
  | none =>
    rw [request_of_get?_eq_none hq]
    simp only [get?, List.lookup_append, List.lookup_cons, List.lookup_nil]
    by_cases heq : q.key = h
    · simp [heq]
    · simp [heq, beq_false_of_ne (Ne.symm heq)]

/-- The map that answers a request is filed under its hash from then on. -/
theorem get?_request_key (store : PcMapStore) (q : MapRequest) :
    (store.request q).2.get? q.key = some (store.request q).1 := by
  cases hq : store.get? q.key with
  | some m => rw [request_of_get? hq, hq]
  | none =>
    rw [get?_request, hq, request_of_get?_eq_none hq, if_pos rfl]
    rfl

/-- What is filed stays, and else the first request with the hash counts. -/
theorem get?_afterFetching_of (store : PcMapStore) (requests : List MapRequest) (h : Word) :
    (store.afterFetching requests).get? h =
      (store.get? h <|> (requests.find? (·.key = h)).map MapRequest.map) := by
  induction requests generalizing store with
  | nil => simp [afterFetching]
  | cons q requests ih =>
    have hrest := ih (store.request q).2
    rw [afterFetching] at hrest
    rw [afterFetching, List.foldl_cons, hrest, get?_request, List.find?_cons]
    -- a request with another hash changes nothing under this one
    by_cases heq : q.key = h
    · cases store.get? h <;> simp [heq]
    · simp [heq]

/-- Under a hash stands the map of the first request with that hash. -/
theorem get?_afterFetching (requests : List MapRequest) (h : Word) :
    (empty.afterFetching requests).get? h = (requests.find? (·.key = h)).map MapRequest.map := by
  rw [get?_afterFetching_of]
  rfl

/-- So a request after a run is answered with the map of the first request of the whole run, itself
included, that has its hash. -/
theorem request_afterFetching (requests : List MapRequest) (q : MapRequest) :
    some ((empty.afterFetching requests).request q).1 =
      ((requests ++ [q]).find? (·.key = q.key)).map MapRequest.map := by
  rw [← get?_request_key, ← get?_afterFetching, afterFetching, afterFetching, List.foldl_append]
  rfl

end PcMapStore

end TxForensics
