import Mathlib.Data.Finset.Card
import TxForensics.Proofs.Resolution.Store

/-!
# Runs of calls on a store

A store is called in two ways: a `fetch` asks for the map of a code and builds it if there is none,
a `get` asks what is filed under a hash. In a run the two are mixed, with any source maps, texts and
settings. Only a fetch changes a store, so the store behind a run is that of its requests
(`after_eq`), and what is filed there is told by the first request for each hash:

    calls      fetch a   get b   fetch b   fetch a'   get a'      a and a' have one hash
    answers      a        –        b         a          a
    size         1        1        2         2          2
-/

namespace TxForensics

inductive StoreCall where
  /-- Asks for the map of a code. -/
  | fetch (request : MapRequest)
  /-- Asks for the map that is filed under a hash. -/
  | get (codeHash : Word)

namespace StoreCall

def key : StoreCall → Word
  | fetch q => q.key
  | get codeHash => codeHash

def request? : StoreCall → Option MapRequest
  | fetch q => some q
  | get _ => none

end StoreCall

def requestsOf (calls : List StoreCall) : List MapRequest := calls.filterMap StoreCall.request?

/-- The map that the first request for a hash builds. -/
def firstMap? (calls : List StoreCall) (h : Word) : Option PcMap :=
  ((requestsOf calls).find? (·.key = h)).map MapRequest.map

namespace PcMapStore

/-- What a store answers to a call, and the store behind the call. -/
def call (store : PcMapStore) : StoreCall → Option PcMap × PcMapStore
  | .fetch q => (some (store.request q).1, (store.request q).2)
  | .get h => (store.get? h, store)

def after (store : PcMapStore) (calls : List StoreCall) : PcMapStore :=
  calls.foldl (fun store call => (store.call call).2) store

def answers (store : PcMapStore) : List StoreCall → List (Option PcMap)
  | [] => []
  | call :: calls => (store.call call).1 :: answers (store.call call).2 calls

/-! ## One map for each hash -/

/-- The hashes under which maps are filed. -/
def keys (store : PcMapStore) : List Word := store.maps.map Prod.fst

/-- A hash has a map exactly if one is filed under it. -/
theorem mem_keys_iff {store : PcMapStore} {h : Word} : h ∈ store.keys ↔ store.get? h ≠ none := by
  simp only [keys, get?, ne_eq, List.lookup_eq_none_iff, List.mem_map, bne_iff_ne, not_forall,
    not_not, exists_prop, @eq_comm _ h]

/-- A request files nothing under a hash that has a map. -/
theorem nodup_keys_request {store : PcMapStore} (h : store.keys.Nodup) (q : MapRequest) :
    (store.request q).2.keys.Nodup := by
  cases hq : store.get? q.key with
  | some m => rwa [request_of_get? hq]
  | none =>
    have hnew : q.key ∉ store.keys := fun hmem => mem_keys_iff.mp hmem hq
    have hmore : (store.keys ++ [q.key]).Nodup := by
      rw [← List.concat_eq_append]
      exact List.Nodup.concat hnew h
    rw [request_of_get?_eq_none hq, keys, List.map_append]
    exact hmore

/-- So a run of requests files one map at most under each hash. -/
theorem nodup_keys_afterFetching {store : PcMapStore} (h : store.keys.Nodup)
    (requests : List MapRequest) : (store.afterFetching requests).keys.Nodup := by
  induction requests generalizing store with
  | nil => exact h
  | cons q requests ih => exact ih (nodup_keys_request h q)

theorem size_eq_card {store : PcMapStore} (h : store.keys.Nodup) :
    store.size = store.keys.toFinset.card := by
  rw [List.toFinset_card_of_nodup h, keys, List.length_map, size]

/-! ## A run and its requests -/

/-- Of the calls of a run only the requests leave anything. -/
theorem after_eq (store : PcMapStore) (calls : List StoreCall) :
    store.after calls = store.afterFetching (requestsOf calls) := by
  -- over the calls; a `get` leaves the store as it is
  induction calls generalizing store with
  | nil => rfl
  | cons call calls ih =>
    cases call with
    | fetch q => exact ih (store.request q).2
    | get h => exact ih store

/-- Under every hash stands the map of the first request for it. -/
theorem get?_after (calls : List StoreCall) (h : Word) :
    (empty.after calls).get? h = firstMap? calls h := by
  rw [after_eq, get?_afterFetching, firstMap?]

theorem get?_after_eq_none_iff {calls : List StoreCall} {h : Word} :
    (empty.after calls).get? h = none ↔ ∀ q ∈ requestsOf calls, q.key ≠ h := by
  rw [get?_after, firstMap?, Option.map_eq_none_iff, List.find?_eq_none]
  simp

/-- There are as many maps as different hashes among the requests. -/
theorem size_after (calls : List StoreCall) :
    (empty.after calls).size = ((requestsOf calls).map MapRequest.key).toFinset.card := by
  have hnodup : (empty.after calls).keys.Nodup := by
    have hempty : empty.keys.Nodup := List.nodup_nil
    rw [after_eq]
    exact nodup_keys_afterFetching hempty _
  have hkeys : (empty.after calls).keys.toFinset =
      ((requestsOf calls).map MapRequest.key).toFinset := by
    ext h
    rw [List.mem_toFinset, List.mem_toFinset, mem_keys_iff, ne_eq, get?_after_eq_none_iff]
    simp
  rw [size_eq_card hnodup, hkeys]

theorem firstMap?_of_first {calls : List StoreCall} {before rest : List MapRequest} {q : MapRequest}
    (hcalls : requestsOf calls = before ++ q :: rest) (hfirst : ∀ p ∈ before, p.key ≠ q.key) :
    firstMap? calls q.key = some q.map := by
  have hnone : before.find? (·.key = q.key) = none := by
    rw [List.find?_eq_none]
    simpa using hfirst
  rw [firstMap?, hcalls, List.find?_append, hnone, Option.none_or, List.find?_cons_of_pos]
  · rfl
  · simp

/-! ## Answers -/

/-- A call is answered with what is filed under its hash behind it. -/
theorem answer_eq_get? (store : PcMapStore) (call : StoreCall) :
    (store.call call).1 = (store.call call).2.get? call.key := by
  cases call with
  | fetch q => exact (get?_request_key store q).symm
  | get h => rfl

/-- The answer to a call is what the calls up to it, itself included, have left. -/
theorem getElem?_answers {store : PcMapStore} {calls : List StoreCall} {i : Nat} {call : StoreCall}
    (h : calls[i]? = some call) :
    (store.answers calls)[i]? = some ((store.after (calls.take (i + 1))).get? call.key) := by
  -- over the calls, since each finds the store that those before it have left
  induction calls generalizing store i with
  | nil => simp at h
  | cons first calls ih =>
    cases i with
    | zero =>
      obtain rfl : first = call := by simpa using h
      rw [answers, List.getElem?_cons_zero, answer_eq_get?]
      rfl
    | succ i =>
      rw [List.getElem?_cons_succ] at h
      rw [answers, List.getElem?_cons_succ, ih h]
      rfl

/-- **The first request for a hash decides.** After any run of calls on a new store there are as
many maps as the requests had different hashes, and a hash has none exactly when no request had it.
The map that the first request for a hash built is what every `get` of that hash and every other
request for it are answered with, whatever they bring along, and the store stays as it is. Within
the run, every call is answered with the map of the first request for its hash so far. -/
theorem first_request_decides (calls : List StoreCall) :
    (empty.after calls).size = ((requestsOf calls).map MapRequest.key).toFinset.card ∧
    (∀ h, (empty.after calls).get? h = none ↔ ∀ q ∈ requestsOf calls, q.key ≠ h) ∧
    (∀ before q rest, requestsOf calls = before ++ q :: rest → (∀ p ∈ before, p.key ≠ q.key) →
      q.map.codeHash = q.key ∧ (empty.after calls).get? q.key = some q.map ∧
        ∀ p, p.key = q.key → (empty.after calls).request p = (q.map, empty.after calls)) ∧
    ∀ (i : Nat) (call : StoreCall), calls[i]? = some call →
      (empty.answers calls)[i]? = some (firstMap? (calls.take (i + 1)) call.key) := by
  refine ⟨size_after calls, fun h => get?_after_eq_none_iff, ?_, ?_⟩
  · intro before q rest hcalls hfirst
    have hget : (empty.after calls).get? q.key = some q.map := by
      rw [get?_after, firstMap?_of_first hcalls hfirst]
    refine ⟨rfl, hget, ?_⟩
    intro p hp
    exact request_of_get? (hp ▸ hget)
  · intro i call hcall
    rw [getElem?_answers hcall, get?_after]

end PcMapStore

end TxForensics
