import Mathlib.Data.List.Pairwise
import TxForensics.Json.Record
import TxForensics.Proofs.Json.Document

/-!
# Members in any order

Reading a tree puts the members of every object in the order of their keys. A record does not
notice: where the fields of its shape are independent of one another and the keys of the members
differ, the members may come in any order.

    run_perm : ms.Perm ns → ms.foldlM s.step r = ns.foldlM s.step r
-/

namespace TxForensics

/-! ## Sorting by keys -/

section

variable {β : Type} {key : String} {value : β} {entries : List (String × β)}

/-- A new key goes in somewhere. -/
theorem perm_insertByKey (h : key ∉ entries.map Prod.fst) :
    (insertByKey key value entries).Perm ((key, value) :: entries) := by
  induction entries with
  | nil => exact .refl _
  | cons e rest ih =>
    obtain ⟨k, v⟩ := e
    rw [List.map_cons, List.mem_cons, not_or] at h
    rw [insertByKey]
    split
    · exact .refl _
    · rw [if_neg h.1]
      exact ((ih h.2).cons _).trans (.swap _ _ _)

/-- A key above all others goes to the end. -/
theorem insertByKey_of_lt (h : ∀ e ∈ entries, e.1 < key) :
    insertByKey key value entries = entries ++ [(key, value)] := by
  induction entries with
  | nil => rfl
  | cons e rest ih =>
    obtain ⟨k, v⟩ := e
    have hlt : k < key := h (k, v) List.mem_cons_self
    rw [insertByKey, if_neg (String.lt_asymm hlt), if_neg fun heq => String.lt_irrefl _ (heq ▸ hlt),
      ih fun e he => h e (List.mem_cons_of_mem _ he), List.cons_append]

end

namespace Json

/-- Items keep their order; only what is in them is sorted. -/
theorem sortedItems_eq_map (items : List Json) : sortedItems items = items.map sorted := by
  induction items with
  | nil => rfl
  | cons j js ih => rw [sortedItems, ih, List.map_cons]

/-- Members with different keys are sorted without loss. -/
theorem perm_sortedMembers {before ms : List (String × Json)}
    (hkeys : ((before ++ ms).map Prod.fst).Nodup) :
    (sortedMembers before ms).Perm (before ++ ms.map fun m => (m.1, m.2.sorted)) := by
  -- over the members that are left, with those inserted so far
  induction ms generalizing before with
  | nil => simp [sortedMembers]
  | cons m ms ih =>
    obtain ⟨k, j⟩ := m
    have hmiddle : ((before ++ (k, j) :: ms).map Prod.fst).Perm
        (k :: (before ++ ms).map Prod.fst) := by
      simp
    have hsplit := List.nodup_cons.1 (hmiddle.nodup_iff.1 hkeys)
    have hnew : k ∉ before.map Prod.fst := fun hk => hsplit.1 (by simp [List.mem_map.1 hk])
    have hinsert : (insertByKey k j.sorted before).Perm ((k, j.sorted) :: before) :=
      perm_insertByKey hnew
    have hnext : ((insertByKey k j.sorted before ++ ms).map Prod.fst).Nodup := by
      rw [((hinsert.append_right ms).map Prod.fst).nodup_iff]
      exact hmiddle.nodup_iff.1 hkeys
    rw [sortedMembers, List.map_cons]
    exact (ih hnext).trans ((hinsert.append_right _).trans List.perm_middle.symm)

/-- Members in increasing order of their keys stay in place. -/
theorem sortedMembers_of_increasing {before ms : List (String × Json)}
    (h : ((before ++ ms).map Prod.fst).Pairwise (· < ·)) :
    sortedMembers before ms = before ++ ms.map fun m => (m.1, m.2.sorted) := by
  induction ms generalizing before with
  | nil => simp [sortedMembers]
  | cons m ms ih =>
    obtain ⟨k, j⟩ := m
    have hlt : ∀ e ∈ before, e.1 < k := by
      intro e he
      rw [List.map_append, List.map_cons, List.pairwise_append] at h
      exact h.2.2 e.1 (List.mem_map_of_mem he) k List.mem_cons_self
    rw [sortedMembers, insertByKey_of_lt hlt, ih, List.map_cons, List.append_assoc,
      List.singleton_append]
    simpa using h

end Json

/-! ## Records -/

/-- Whether two fields of a record can be read in either order. -/
def RecordField.Commute (f g : RecordField ρ) : Prop :=
  ∀ r d e, ((f.read r d).toOption.bind fun r => (g.read r e).toOption) =
    (g.read r e).toOption.bind fun r => (f.read r d).toOption

instance : Std.Symm (@RecordField.Commute ρ) := ⟨fun _ _ h r d e => (h r e d).symm⟩

theorem toOption_map (f : α → β) (x : Except ε α) : (x.map f).toOption = x.toOption.map f := by
  cases x <;> rfl

/-- Fields that set different parts of a record can be read in either order. -/
@[simp] theorem RecordField.commute_of_set {name name' : String} {required required' : Bool}
    {read : Document → Except JsonShapeError α} {read' : Document → Except JsonShapeError β}
    {set : ρ → α → ρ} {set' : ρ → β → ρ}
    (hset : ∀ r a b, set' (set r a) b = set (set' r b) a) :
    Commute ⟨name, required, fun r d => (read d).map (set r)⟩
      ⟨name', required', fun r d => (read' d).map (set' r)⟩ := by
  intro r d e
  simp only [toOption_map]
  cases (read d).toOption with
  | none => cases (read' e).toOption <;> rfl
  | some a =>
    cases (read' e).toOption with
    | none => rfl
    | some b => exact congrArg some (hset r a b)

namespace RecordShape

variable {s : RecordShape ρ} {ms ns : List (String × Json)}

/-- What a member does to a record. -/
def step (s : RecordShape ρ) (r : ρ) (m : String × Json) : Option ρ :=
  match s.fields.find? (·.name == m.1) with
  | none => some r
  | some field => (field.read r (.ofJson m.2)).toOption

/-- Members with different keys can be read in either order. -/
theorem step_comm (hs : s.fields.Pairwise RecordField.Commute) {m n : String × Json}
    (hkey : m.1 ≠ n.1) (r : ρ) :
    ((s.step r m).bind fun r => s.step r n) = (s.step r n).bind fun r => s.step r m := by
  unfold step
  cases hf : s.fields.find? (·.name == m.1) with
  | none => simp
  | some f =>
    cases hg : s.fields.find? (·.name == n.1) with
    | none => simp
    | some g =>
      have hfname : f.name = m.1 := by simpa using List.find?_some hf
      have hgname : g.name = n.1 := by simpa using List.find?_some hg
      -- fields with different names are different, and so independent
      have hne : f ≠ g := by
        rintro rfl
        exact hkey (hfname.symm.trans hgname)
      exact hs.forall (List.mem_of_find?_eq_some hf)
        (List.mem_of_find?_eq_some hg) hne r _ _

/-- **The order of members does not matter.** -/
theorem run_perm (hs : s.fields.Pairwise RecordField.Commute) (hperm : ms.Perm ns)
    (hkeys : (ms.map Prod.fst).Nodup) (r : ρ) : ms.foldlM s.step r = ns.foldlM s.step r := by
  -- a permutation is a chain of swaps, and a swap is the independence of two fields
  induction hperm generalizing r with
  | nil => rfl
  | cons m _ ih =>
    rw [List.foldlM_cons, List.foldlM_cons]
    exact congrArg _ (funext (ih (List.nodup_cons.1 hkeys).2))
  | swap m n ms =>
    have hkey : m.1 ≠ n.1 := by
      rintro heq
      simp [heq] at hkeys
    have hcomm := step_comm hs hkey r
    show ((s.step r n).bind fun r => (s.step r m).bind fun r => ms.foldlM s.step r) =
      (s.step r m).bind fun r => (s.step r n).bind fun r => ms.foldlM s.step r
    rw [← Option.bind_assoc, ← Option.bind_assoc, hcomm]
  | trans hperm _ ih ih' =>
    rw [ih hkeys, ih' ((hperm.map Prod.fst).nodup_iff.1 hkeys)]

/-- A member that no field is named after is passed over. -/
theorem readMembers_cons_of_unknown {k : String} {d : Document} {rest : DocumentMembers}
    {seen : List String} {r : ρ} (h : s.fields.find? (·.name == k) = none) :
    s.readMembers seen r (.cons (.ok k) d rest) = s.readMembers seen r rest := by
  rw [readMembers]
  simp only [Except.mapError, bind, Except.bind, h]

/-- A member is read by its field, and its name is remembered. -/
theorem readMembers_cons_of_field {k : String} {d : Document} {rest : DocumentMembers}
    {seen : List String} {r r' : ρ} {f : RecordField ρ}
    (h : s.fields.find? (·.name == k) = some f) (hk : k ∉ seen) (hread : f.read r d = .ok r') :
    s.readMembers seen r (.cons (.ok k) d rest) = s.readMembers (k :: seen) r' rest := by
  have hseen : seen.contains k = false := by simpa using hk
  rw [readMembers]
  simp only [Except.mapError, bind, Except.bind, h, hseen, Bool.false_eq_true, if_false, hread]

/-- Reading members is running through them; every field among them has then been seen. -/
theorem readMembers_of_run {seen : List String} (hkeys : (ms.map Prod.fst).Nodup)
    (hseen : ∀ k ∈ seen, k ∉ ms.map Prod.fst) {r x : ρ} (hrun : ms.foldlM s.step r = some x) :
    ∃ seen', s.readMembers seen r (Document.membersOfJson ms) = .ok (seen', x) ∧
      (∀ k ∈ seen, k ∈ seen') ∧ ∀ f ∈ s.fields, f.name ∈ ms.map Prod.fst → f.name ∈ seen' := by
  -- over the members; no name of those to come has been seen
  induction ms generalizing seen r with
  | nil =>
    cases hrun
    exact ⟨seen, rfl, fun _ hk => hk, fun f _ hf => absurd hf (by simp)⟩
  | cons m ms ih =>
    obtain ⟨k, j⟩ := m
    rw [List.map_cons, List.nodup_cons] at hkeys
    rw [List.foldlM_cons] at hrun
    obtain ⟨r', hstep, hrest⟩ := Option.bind_eq_some_iff.1 hrun
    have hlater : ∀ k ∈ seen, k ∉ ms.map Prod.fst := fun k hk hms =>
      hseen k hk (List.mem_cons_of_mem _ hms)
    unfold step at hstep
    rw [Document.membersOfJson]
    cases hfield : s.fields.find? (·.name == k) with
    | none =>
      simp only [hfield, Option.some.injEq] at hstep
      subst hstep
      obtain ⟨seen', hread, hold, hnew⟩ := ih hkeys.2 hlater hrest
      refine ⟨seen', (readMembers_cons_of_unknown hfield).trans hread, hold, fun f hf hname => ?_⟩
      rcases List.mem_cons.1 hname with hk | hms
      · exact absurd (List.find?_eq_none.1 hfield f hf) (by simp [hk])
      · exact hnew f hf hms
    | some field =>
      simp only [hfield] at hstep
      have hk : k ∉ seen := fun hk => hseen k hk List.mem_cons_self
      have hvalue : field.read r (.ofJson j) = .ok r' := by
        cases hvalue : field.read r (.ofJson j) with
        | error e => simp [hvalue, Except.toOption] at hstep
        | ok a => simpa [hvalue, Except.toOption] using hstep
      have hlater' : ∀ k' ∈ k :: seen, k' ∉ ms.map Prod.fst := by
        intro k' hk'
        rcases List.mem_cons.1 hk' with rfl | hk'
        · exact hkeys.1
        · exact hlater k' hk'
      obtain ⟨seen', hread, hold, hnew⟩ := ih hkeys.2 hlater' hrest
      refine ⟨seen', (readMembers_cons_of_field hfield hk hvalue).trans hread,
        fun k' hk' => hold k' (List.mem_cons_of_mem _ hk'), fun f hf hname => ?_⟩
      rcases List.mem_cons.1 hname with hk | hms
      · exact hk ▸ hold k List.mem_cons_self
      · exact hnew f hf hms

/-- A record is read from members that run through to it, if none is missing that must be there. -/
theorem read_of_run (hkeys : (ms.map Prod.fst).Nodup) {x : ρ}
    (hrun : ms.foldlM s.step s.blank = some x)
    (hrequired : ∀ f ∈ s.fields, f.required = true → f.name ∈ ms.map Prod.fst) :
    s.read (.ofJson (.object ms)) = .ok x := by
  have hfresh : ∀ k ∈ ([] : List String), k ∉ ms.map Prod.fst := fun k hk => absurd hk (by simp)
  obtain ⟨seen, hread, -, hfields⟩ := readMembers_of_run hkeys hfresh hrun
  have hmissing : s.fields.find? (fun f => f.required && !seen.contains f.name) = none := by
    rw [List.find?_eq_none]
    intro f hf h
    rw [Bool.and_eq_true, Bool.not_eq_true', List.contains_eq_mem, decide_eq_false_iff_not] at h
    exact h.2 (hfields f hf (hrequired f hf h.1))
  rw [Document.ofJson, read, hread]
  simp only [bind, Except.bind, hmissing]

end RecordShape

end TxForensics
