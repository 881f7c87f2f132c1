/-!
# Maps ordered by their keys

Finite maps from texts as lists of pairs in strictly increasing order of the keys, texts being
compared character by character. The order is part of the type, so a map has one form: the one in
which it is listed and written. An insertion keeps the order (`keysIncrease_insertByKey`) and
changes what is found under its own key only (`get?_insert`).
-/

namespace TxForensics

def KeysIncrease (entries : List (String × β)) : Prop := entries.Pairwise fun a b => a.1 < b.1

/-- Puts a pair in its place among pairs in order, instead of one with the same key. -/
def insertByKey (key : String) (value : β) : List (String × β) → List (String × β)
  | [] => [(key, value)]
  | (k, v) :: rest =>
    if key < k then (key, value) :: (k, v) :: rest
    else if key = k then (key, value) :: rest
    else (k, v) :: insertByKey key value rest

theorem mem_insertByKey {key : String} {value : β} {entries : List (String × β)}
    {p : String × β} (h : p ∈ insertByKey key value entries) : p = (key, value) ∨ p ∈ entries := by
  induction entries with
  | nil => simpa [insertByKey] using h
  | cons q rest ih =>
    obtain ⟨k, v⟩ := q
    rw [insertByKey] at h
    split at h
    · simpa using h
    · split at h
      · rcases List.mem_cons.1 h with h | h
        · exact .inl h
        · exact .inr (List.mem_cons_of_mem _ h)
      · rcases List.mem_cons.1 h with h | h
        · exact .inr (h ▸ List.mem_cons_self)
        · exact (ih h).imp_right (List.mem_cons_of_mem _)

/-- Inserting keeps the order. -/
theorem keysIncrease_insertByKey {key : String} {value : β} {entries : List (String × β)}
    (h : KeysIncrease entries) : KeysIncrease (insertByKey key value entries) := by
  induction entries with
  | nil => simp [insertByKey, KeysIncrease]
  | cons q rest ih =>
    obtain ⟨k, v⟩ := q
    obtain ⟨hk, hrest⟩ := List.pairwise_cons.1 h
    rw [insertByKey]
    split
    · rename_i hlt
      refine List.pairwise_cons.2 ⟨fun p hp => ?_, h⟩
      rcases List.mem_cons.1 hp with rfl | hp
      · exact hlt
      · exact String.lt_trans hlt (hk p hp)
    · rename_i hnlt
      split
      · rename_i heq
        subst heq
        exact List.pairwise_cons.2 ⟨hk, hrest⟩
      · rename_i hne
        refine List.pairwise_cons.2 ⟨fun p hp => ?_, ih hrest⟩
        rcases mem_insertByKey hp with rfl | hp
        · exact Decidable.byContradiction fun hc =>
            hne (String.le_antisymm (String.not_lt.1 hc) (String.not_lt.1 hnlt))
        · exact hk p hp

/-- Inserting changes what is found under its key and nothing else. -/
theorem lookup_insertByKey (key k' : String) (value : β) (entries : List (String × β)) :
    (insertByKey key value entries).lookup k' =
      if k' = key then some value else entries.lookup k' := by
  induction entries with
  | nil =>
    by_cases h : k' = key
    · simp [insertByKey, h]
    · simp [insertByKey, List.lookup_cons, beq_false_of_ne h, h]
  | cons q rest ih =>
    obtain ⟨k, v⟩ := q
    rw [insertByKey]
    split
    · by_cases h : k' = key
      · simp [h]
      · simp [List.lookup_cons, beq_false_of_ne h, h]
    · split
      · rename_i hk
        subst hk
        by_cases h : k' = key
        · simp [h]
        · simp [List.lookup_cons, beq_false_of_ne h, h]
      · rename_i hk
        by_cases h : k' = k
        · subst h
          simp [Ne.symm hk]
        · simp [List.lookup_cons, beq_false_of_ne h, ih]

/-- A map from texts, listed in increasing order of its keys. -/
structure SortedMap (β : Type) where
  entries : List (String × β)
  increasing : KeysIncrease entries

namespace SortedMap

instance [DecidableEq β] : DecidableEq (SortedMap β) := fun a b =>
  decidable_of_iff (a.entries = b.entries) <| by cases a; cases b; simp

def empty : SortedMap β := ⟨[], .nil⟩

instance : Inhabited (SortedMap β) := ⟨empty⟩

def insert (m : SortedMap β) (key : String) (value : β) : SortedMap β :=
  ⟨insertByKey key value m.entries, keysIncrease_insertByKey m.increasing⟩

def get? (m : SortedMap β) (key : String) : Option β := m.entries.lookup key

@[simp] theorem get?_empty (key : String) : (empty : SortedMap β).get? key = none := rfl

theorem get?_insert (m : SortedMap β) (key k : String) (value : β) :
    (m.insert key value).get? k = if k = key then some value else m.get? k :=
  lookup_insertByKey key k value m.entries

end SortedMap

end TxForensics
