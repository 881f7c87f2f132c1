import TxForensics.Bytecode.Listing

/-!
# Where instructions start

`starts` lists the pcs of the instructions from left to right, so they increase strictly and no pc
is listed twice. A lookup in `pcIndex` therefore finds the index of a pc exactly where `starts` has
that pc:

    lookup_pcIndex_eq_some_iff : (pcIndex code).lookup pc = some ic ↔ (starts code)[ic]? = some pc
-/

namespace TxForensics.Bytecode

/-- Everything listed from `pc` on lies at `pc` or behind it. -/
theorem le_of_mem_startsFrom {pc p : Nat} {code : Bytes} (h : p ∈ startsFrom pc code) :
    pc ≤ p := by
  induction pc, code using startsFrom.induct with
  | case1 pc => simp [startsFrom] at h
  | case2 pc op rest ih =>
    rw [startsFrom] at h
    rcases List.mem_cons.mp h with rfl | h'
    · exact Nat.le_refl _
    · have hle := ih h'
      omega

/-- Every start is behind those before it. -/
theorem pairwise_lt_startsFrom (pc : Nat) (code : Bytes) :
    (startsFrom pc code).Pairwise (· < ·) := by
  induction pc, code using startsFrom.induct with
  | case1 pc => simp [startsFrom]
  | case2 pc op rest ih =>
    rw [startsFrom]
    refine List.pairwise_cons.mpr ⟨?_, ih⟩
    intro p hp
    have hle := le_of_mem_startsFrom hp
    omega

/-- The pcs of the instructions increase strictly. -/
theorem pairwise_lt_starts (code : Bytes) : (starts code).Pairwise (· < ·) :=
  pairwise_lt_startsFrom 0 code

theorem nodup_starts (code : Bytes) : (starts code).Nodup :=
  (pairwise_lt_starts code).imp fun h => Nat.ne_of_lt h

/-- In a list without repetitions, the index paired with a member is where the member stands. -/
theorem lookup_zipIdx_eq_some_iff {l : List Nat} (hl : l.Nodup) {a i k : Nat} :
    (l.zipIdx k).lookup a = some i ↔ k ≤ i ∧ l[i - k]? = some a := by
  induction l generalizing k with
  | nil => simp
  | cons b bs ih =>
    obtain ⟨hb, hbs⟩ := List.nodup_cons.mp hl
    rw [List.zipIdx_cons, List.lookup_cons]
    -- the first match is the only one, since nothing stands in the list twice
    by_cases hab : a = b
    · subst hab
      simp only [BEq.rfl, Option.some.injEq]
      constructor
      · rintro rfl
        simp
      · rintro ⟨hki, hget⟩
        by_cases hik : i = k
        · exact hik.symm
        · obtain ⟨j, hj⟩ : ∃ j, i - k = j + 1 := ⟨i - k - 1, by omega⟩
          rw [hj, List.getElem?_cons_succ] at hget
          exact absurd (List.mem_of_getElem? hget) hb
    · rw [beq_false_of_ne hab]
      simp only [ih hbs]
      constructor
      · rintro ⟨hki, hget⟩
        refine ⟨by omega, ?_⟩
        have hj : i - k = (i - (k + 1)) + 1 := by omega
        rw [hj, List.getElem?_cons_succ]
        exact hget
      · rintro ⟨hki, hget⟩
        have hik : i ≠ k := by
          rintro rfl
          simp [Ne.symm hab] at hget
        have hj : i - k = (i - (k + 1)) + 1 := by omega
        rw [hj, List.getElem?_cons_succ] at hget
        exact ⟨by omega, hget⟩

/-- The table holds `ic` for `pc` exactly when `pc` starts the instruction with that index. -/
theorem lookup_pcIndex_eq_some_iff {code : Bytes} {pc ic : Nat} :
    (pcIndex code).lookup pc = some ic ↔ (starts code)[ic]? = some pc := by
  rw [pcIndex, lookup_zipIdx_eq_some_iff (nodup_starts code)]
  simp

end TxForensics.Bytecode
