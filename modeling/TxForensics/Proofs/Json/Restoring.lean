import TxForensics.Proofs.Json.Order

/-!
# Values restored from their written form

A reader restores a value from a tree if it reads the tree as that value, and also the tree that is
left when the tree is printed and parsed. For lists, maps and records this follows from what they
are made of: `Restores.list`, `Restores.map` and `RecordShape.restores`.
-/

namespace TxForensics

/-- Whether `read` restores the value `a` from the tree `j`. -/
structure Restores (depth : Nat) (read : Document → Except JsonShapeError α) (j : Json) (a : α) :
    Prop where
  /-- Nothing is lost in print. -/
  lossless : j.Lossless depth
  /-- The tree is read as the value with its members as they are written. -/
  written : read (.ofJson j) = .ok a
  /-- The tree is read as the value with its members sorted. -/
  sorted : read (.ofJson j.sorted) = .ok a

namespace Restores

variable {depth : Nat} {read : Document → Except JsonShapeError α} {j : Json} {a : α}

/-! ## Single values -/

/-- What is made of a value is restored with it. -/
theorem apply (h : Restores depth read j a) (g : α → β) :
    Restores depth (fun d => (read d).map g) j (g a) where
  lossless := h.lossless
  written := by rw [h.written]; rfl
  sorted := by rw [h.sorted]; rfl

theorem string (s : String) : Restores depth Document.string (.text s) s := ⟨.text, rfl, rfl⟩

theorem boolean (b : Bool) : Restores depth Document.boolean (.bool b) b := ⟨.bool, rfl, rfl⟩

/-- A number is restored by a reader that takes it, if it is one of 64 bits. -/
theorem natBelow {bound n : Nat} (hn : n < bound) (hbound : bound ≤ 2 ^ 64) (typeName : String) :
    Restores depth (Document.natBelow bound typeName) (.nat n) n := by
  have hread : Document.natBelow bound typeName (.number (.integer n)) = .ok n := by
    rw [Document.natBelow, if_pos (by omega), Int.toNat_natCast]
  exact ⟨.integer (by omega), hread, hread⟩

theorem uint32 (n : UInt32) : Restores depth Document.uint32 (.nat n.toNat) n := by
  have h : Restores depth Document.uint32 (.nat n.toNat) n.toNat.toUInt32 :=
    (natBelow n.toNat_lt (by decide) "u32").apply Nat.toUInt32
  rwa [Nat.toUInt32_eq, UInt32.ofNat_toNat] at h

theorem eightBytes (n : UInt64) (typeName : String) :
    Restores depth (fun d => (d.natBelow (2 ^ 64) typeName).map Nat.toUInt64) (.nat n.toNat) n := by
  have h : Restores depth (fun d => (d.natBelow (2 ^ 64) typeName).map Nat.toUInt64)
      (.nat n.toNat) n.toNat.toUInt64 :=
    (natBelow n.toNat_lt (Nat.le_refl _) typeName).apply Nat.toUInt64
  rwa [Nat.toUInt64_eq, UInt64.ofNat_toNat] at h

theorem uint64 (n : UInt64) : Restores depth Document.uint64 (.nat n.toNat) n :=
  eightBytes n "u64"

theorem wordSized (n : UInt64) : Restores depth Document.wordSized (.nat n.toNat) n :=
  eightBytes n "usize"

theorem quantity (n : UInt64) : Restores depth Document.quantity (.nat n.toNat) n := by
  have hn : n.toNat < 2 ^ 64 := n.toNat_lt
  have hread : Document.quantity (.number (.integer n.toNat)) = .ok n := by
    rw [Document.quantity, if_pos (by omega), Int.toNat_natCast, Nat.toUInt64_eq,
      UInt64.ofNat_toNat]
  exact ⟨.integer (by omega), hread, hread⟩

/-- What is not null is restored where a value may be null. -/
theorem optional (h : Restores depth read j a) (hj : j ≠ .null) :
    Restores depth (Document.optional read) j (some a) := by
  have hread {j : Json} (hj : j ≠ .null) (h : read (.ofJson j) = .ok a) :
      Document.optional read (.ofJson j) = .ok (some a) := by
    cases j with
    | null => exact absurd rfl hj
    | _ => exact congrArg (Except.map some) h
  have hsorted : j.sorted ≠ .null := by
    cases j with
    | null => exact absurd rfl hj
    | _ => simp [Json.sorted]
  exact ⟨h.lossless, hread hj h.written, hread hsorted h.sorted⟩

/-! ## Lists and maps -/

theorem readItems_map {as : List α} {f : α → Json}
    (h : ∀ a ∈ as, read (.ofJson (f a)) = .ok a) :
    Document.readItems read (Document.itemsOfJson (as.map f)) = .ok as := by
  induction as with
  | nil => rfl
  | cons a as ih =>
    have hrest := ih fun a ha => h a (List.mem_cons_of_mem _ ha)
    rw [List.map_cons, Document.itemsOfJson, Document.readItems, h a List.mem_cons_self, hrest]
    rfl

/-- A list is restored one level deeper than its items. -/
theorem list {as : List α} {f : α → Json} (h : ∀ a, Restores depth read (f a) a) :
    Restores (depth + 1) (Document.list read) (.array (as.map f)) as where
  lossless := .array <| by simpa using fun a _ => (h a).lossless
  written := readItems_map fun a _ => (h a).written
  sorted := by
    rw [Json.sorted, Json.sortedItems_eq_map, List.map_map]
    exact readItems_map fun a _ => (h a).sorted

/-- Entries in increasing order of their keys are added to those before. -/
theorem readEntries_map {entries : List (String × α)} {f : α → Json}
    (h : ∀ a, read (.ofJson (f a)) = .ok a) (before : SortedMap α)
    (hkeys : KeysIncrease (before.entries ++ entries)) :
    ∃ m, Document.readEntries read before
        (Document.membersOfJson (entries.map fun (k, a) => (k, f a))) = .ok m ∧
      m.entries = before.entries ++ entries := by
  induction entries generalizing before with
  | nil => exact ⟨before, rfl, (List.append_nil _).symm⟩
  | cons e entries ih =>
    obtain ⟨k, a⟩ := e
    -- a key above all before it goes to the end of the map
    have hlt : ∀ e ∈ before.entries, e.1 < k := fun e he =>
      (List.pairwise_append.1 hkeys).2.2 e he (k, a) List.mem_cons_self
    have hinsert : (before.insert k a).entries = before.entries ++ [(k, a)] :=
      insertByKey_of_lt hlt
    obtain ⟨m, hread, hm⟩ := ih (before.insert k a) (by simpa [hinsert] using hkeys)
    refine ⟨m, ?_, by simp [hm, hinsert]⟩
    rw [List.map_cons, Document.membersOfJson, Document.readEntries, h]
    exact hread

/-- The entries of a map are read as that map. -/
theorem readMap_entries {f : α → Json} (h : ∀ a, read (.ofJson (f a)) = .ok a) (m : SortedMap α) :
    Document.map read (.ofJson (.object (m.entries.map fun (k, a) => (k, f a)))) = .ok m := by
  obtain ⟨m', hread, hm⟩ := readEntries_map h .empty m.increasing
  have heq : m' = m := by
    cases m'
    cases m
    simpa [SortedMap.empty] using hm
  exact heq ▸ hread

/-- A map is restored from its entries, which are in order already, so sorting leaves them. -/
theorem map {m : SortedMap α} {f : α → Json} (h : ∀ a, Restores depth read (f a) a) :
    Restores (depth + 1) (Document.map read)
      (.object (m.entries.map fun (k, a) => (k, f a))) m := by
  have hincrease : (m.entries.map Prod.fst).Pairwise (· < ·) := List.pairwise_map.2 m.increasing
  have hkeys : (m.entries.map fun (k, a) => (k, f a)).map Prod.fst = m.entries.map Prod.fst := by
    simp [Function.comp_def]
  refine ⟨.object ?_ ?_, readMap_entries (fun a => (h a).written) m, ?_⟩
  · rw [hkeys]
    exact hincrease.imp fun {k k'} (hlt : k < k') (heq : k = k') =>
      String.lt_irrefl _ (heq ▸ hlt)
  · intro e he
    obtain ⟨e, -, rfl⟩ := List.mem_map.1 he
    exact (h e.2).lossless
  · rw [Json.sorted, Json.sortedMembers_of_increasing (by simpa [hkeys] using hincrease),
      List.nil_append, List.map_map]
    exact readMap_entries (fun a => (h a).sorted) m

end Restores

/-! ## Records -/

/-- Reading the members that are written for fields turns the record `r` into the record `x`. -/
inductive Recovers (depth : Nat) :
    List (RecordField ρ) → List (Option (String × Json)) → ρ → ρ → Prop
  | nil {x : ρ} : Recovers depth [] [] x x
  | written {f : RecordField ρ} {fields : List (RecordField ρ)}
      {members : List (Option (String × Json))} {j : Json} {r r' x : ρ}
      (h : Restores depth (f.read r) j r') (rest : Recovers depth fields members r' x) :
      Recovers depth (f :: fields) (Json.member f.name j :: members) r x
  | omitted {f : RecordField ρ} {fields : List (RecordField ρ)}
      {members : List (Option (String × Json))} {r x : ρ} (hf : f.required = false)
      (rest : Recovers depth fields members r x) :
      Recovers depth (f :: fields) (none :: members) r x

namespace Recovers

variable {depth : Nat} {fields : List (RecordField ρ)} {members : List (Option (String × Json))}
  {r x : ρ}

theorem mandatory {name : String} {read : Document → Except JsonShapeError α} {set : ρ → α → ρ}
    {j : Json} {a : α} (h : Restores depth read j a)
    (rest : Recovers depth fields members (set r a) x) :
    Recovers depth (.mandatory name read set :: fields) (Json.member name j :: members) r x :=
  .written (h.apply (set r)) rest

theorem defaulted {name : String} {read : Document → Except JsonShapeError α} {set : ρ → α → ρ}
    {j : Json} {a : α} (h : Restores depth read j a)
    (rest : Recovers depth fields members (set r a) x) :
    Recovers depth (.defaulted name read set :: fields) (Json.member name j :: members) r x :=
  .written (h.apply (set r)) rest

/-- A member that is left out where there is no value is not missed. -/
theorem optional {name : String} {read : Document → Except JsonShapeError α}
    {set : ρ → Option α → ρ} {f : α → Json} {o : Option α}
    (h : ∀ a, Restores depth read (f a) a) (hnull : ∀ a, f a ≠ .null) (hnone : set r none = r)
    (rest : Recovers depth fields members (set r o) x) :
    Recovers depth (.defaulted name (Document.optional read) set :: fields)
      (Json.member? name f o :: members) r x := by
  cases o with
  | none => exact .omitted rfl (hnone ▸ rest)
  | some a => exact defaulted ((h a).optional (hnull a)) rest

/-- Members are written under the names of fields, in their order. -/
theorem sublist_keys (h : Recovers depth fields members r x) :
    ((members.filterMap id).map Prod.fst).Sublist (fields.map RecordField.name) := by
  induction h with
  | nil => exact .slnil
  | written _ _ ih => exact ih.cons_cons _
  | omitted _ _ ih => exact ih.cons _

/-- No member is left out for a field that has to be there. -/
theorem mem_keys (h : Recovers depth fields members r x) :
    ∀ f ∈ fields, f.required = true → f.name ∈ (members.filterMap id).map Prod.fst := by
  induction h with
  | nil => exact fun f hf => absurd hf (by simp)
  | written _ _ ih =>
    intro f hf hrequired
    rcases List.mem_cons.1 hf with rfl | hf
    · exact List.mem_cons_self
    · exact List.mem_cons_of_mem _ (ih f hf hrequired)
  | omitted hoptional _ ih =>
    intro f hf hrequired
    rcases List.mem_cons.1 hf with rfl | hf
    · simp [hoptional] at hrequired
    · exact ih f hf hrequired

theorem lossless (h : Recovers depth fields members r x) :
    ∀ m ∈ members.filterMap id, m.2.Lossless depth := by
  induction h with
  | nil => exact fun m hm => absurd hm (by simp)
  | written h _ ih => exact List.forall_mem_cons.2 ⟨h.lossless, ih⟩
  | omitted _ _ ih => exact ih

/-- Running through the members recovers the record, in whichever form their values are restored. -/
theorem run (h : Recovers depth fields members r x) {s : RecordShape ρ}
    (hfields : ∀ f ∈ fields, s.fields.find? (·.name == f.name) = some f) (form : Json → Json)
    (hform : ∀ (read : Document → Except JsonShapeError ρ) j r, Restores depth read j r →
      read (.ofJson (form j)) = .ok r) :
    ((members.filterMap id).map fun m => (m.1, form m.2)).foldlM s.step r = some x := by
  -- over the fields and members in step, as the record is put together
  induction h with
  | nil => rfl
  | @written f fields members j r r' x h _ ih =>
    have hstep : s.step r (f.name, form j) = some r' := by
      rw [RecordShape.step, hfields f List.mem_cons_self]
      exact congrArg Except.toOption (hform _ _ _ h)
    have hrest := ih fun f hf => hfields f (List.mem_cons_of_mem _ hf)
    show (s.step r (f.name, form j)).bind _ = some x
    rw [hstep]
    exact hrest
  | omitted _ _ ih => exact ih fun f hf => hfields f (List.mem_cons_of_mem _ hf)

end Recovers

namespace RecordShape

variable {s : RecordShape ρ}

/-- A shape whose fields have different names and are independent of one another. -/
structure Orderless (s : RecordShape ρ) : Prop where
  names : (s.fields.map RecordField.name).Nodup
  commute : s.fields.Pairwise RecordField.Commute

/-- A field is found by its name. -/
theorem find?_name {fields : List (RecordField ρ)} (hnames : (fields.map RecordField.name).Nodup)
    {f : RecordField ρ} (hf : f ∈ fields) : fields.find? (·.name == f.name) = some f := by
  induction fields with
  | nil => exact absurd hf (by simp)
  | cons g fields ih =>
    rw [List.map_cons, List.nodup_cons] at hnames
    rcases List.mem_cons.1 hf with rfl | hf
    · exact List.find?_cons_of_pos (by simp)
    · have hne : g.name ≠ f.name := fun heq => hnames.1 (heq ▸ List.mem_map_of_mem hf)
      rw [List.find?_cons_of_neg (by simpa using hne)]
      exact ih hnames.2 hf

/-- **A record is restored** from what is written for its fields. -/
theorem restores {depth : Nat} {members : List (Option (String × Json))} {x : ρ}
    (hs : s.Orderless) (h : Recovers depth s.fields members s.blank x) :
    Restores (depth + 1) s.read (.ofMembers members) x := by
  have hkeys : ((members.filterMap id).map Prod.fst).Nodup := hs.names.sublist h.sublist_keys
  have hfields : ∀ f ∈ s.fields, s.fields.find? (·.name == f.name) = some f :=
    fun _ => find?_name hs.names
  refine ⟨.object hkeys h.lossless, ?_, ?_⟩
  · have hrun : (members.filterMap id).foldlM s.step s.blank = some x := by
      simpa using h.run hfields id fun _ _ _ h => h.written
    exact read_of_run hkeys hrun h.mem_keys
  · have hrun := h.run hfields Json.sorted fun _ _ _ h => h.sorted
    have hperm : (Json.sortedMembers [] (members.filterMap id)).Perm
        ((members.filterMap id).map fun m => (m.1, m.2.sorted)) :=
      Json.perm_sortedMembers hkeys
    have hsame : ((members.filterMap id).map fun m => (m.1, m.2.sorted)).map Prod.fst =
        (members.filterMap id).map Prod.fst := by
      simp [Function.comp_def]
    have hkeys' : (((members.filterMap id).map fun m => (m.1, m.2.sorted)).map Prod.fst).Nodup :=
      hsame ▸ hkeys
    -- the sorted members run through to the same record as those written
    rw [run_perm hs.commute hperm.symm hkeys'] at hrun
    refine read_of_run ((hperm.map Prod.fst).nodup_iff.2 hkeys') hrun fun f hf hrequired => ?_
    rw [(hperm.map Prod.fst).mem_iff, hsame]
    exact h.mem_keys f hf hrequired

/-- Nothing is found under a name that no field has. -/
theorem lookup_sorted_eq_none {depth : Nat} {members : List (Option (String × Json))} {x : ρ}
    (hs : s.Orderless) (h : Recovers depth s.fields members s.blank x) {k : String}
    (hk : k ∉ s.fields.map RecordField.name) :
    (Json.sortedMembers [] (members.filterMap id)).lookup k = none := by
  have hkeys : ((members.filterMap id).map Prod.fst).Nodup := hs.names.sublist h.sublist_keys
  rw [List.lookup_eq_none_iff]
  intro m hm
  obtain ⟨m', hm', rfl⟩ := List.mem_map.1 ((Json.perm_sortedMembers hkeys).mem_iff.1 hm)
  -- sorting adds no key, and all keys are names of fields
  have hname : m'.1 ∈ s.fields.map RecordField.name :=
    h.sublist_keys.subset (List.mem_map_of_mem hm')
  have hne : k ≠ m'.1 := fun heq => hk (heq ▸ hname)
  simpa using hne

end RecordShape

end TxForensics
