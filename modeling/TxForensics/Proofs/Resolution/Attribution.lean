import TxForensics.Proofs.Bytecode.Starts
import TxForensics.Resolution.PcMap

/-!
# What a pc is attributed to, in closed form

`attributedEntry?` chains two bounded scans: `nearestEntry?` alternates between both sides of an
instruction without an entry, and `lastHandwritten?` walks back from what that found. Neither scan
is needed to say where they end up.

* Entries are missing only at the end of a map, so the first scan can only find the last entry. It
  starts the walk at `baseIndex?`, whatever the side it looks at first.
* The walk takes the greatest handwritten index up to the base and within the lookback bound
  (`AttributedAt`).

Hence nothing behind the instruction is ever returned, nothing generated is, and a greater bound
can only add attributions.
-/

namespace TxForensics

namespace PcMap

/-! ## The closed form -/

/-- The index that the walk back for the instruction `ic` starts at, in a map of `size` entries:
its own, or else the last one if that is no more than the tolerance before it. -/
def baseIndex? (size tolerance ic : Nat) : Option Nat :=
  if ic < size then some ic
  else if 0 < size ∧ ic - (size - 1) ≤ tolerance then some (size - 1)
  else none

/-- The entry `e` stands at the greatest index up to `base`, and no more than `lookback` before
it, that has a handwritten entry. -/
def AttributedAt (m : SourceMap) (lookback base : Nat) (e : SourceMap.Entry) : Prop :=
  ∃ j, j ≤ base ∧ base - j ≤ lookback ∧ m.get? j = some e ∧ e.isHandwritten = true ∧
    ∀ k e', j < k → k ≤ base → m.get? k = some e' → e'.isHandwritten = false

/-- The walk starts at an entry that is not behind the instruction. -/
theorem baseIndex?_le {size tolerance ic base : Nat}
    (h : baseIndex? size tolerance ic = some base) : base ≤ ic ∧ base < size := by
  unfold baseIndex? at h
  split at h
  · next hlt =>
    cases h
    exact ⟨Nat.le_refl _, hlt⟩
  · next hge =>
    split at h
    · cases h
      omega
    · cases h

/-- A greater tolerance finds the same base. -/
theorem baseIndex?_mono {size tolerance tolerance' ic base : Nat} (ht : tolerance ≤ tolerance')
    (h : baseIndex? size tolerance ic = some base) : baseIndex? size tolerance' ic = some base := by
  unfold baseIndex? at h ⊢
  split at h
  · next hlt => rw [if_pos hlt, h]
  · next hge =>
    rw [if_neg hge]
    split at h
    · next hlast => rw [if_pos ⟨hlast.1, Nat.le_trans hlast.2 ht⟩, h]
    · cases h

/-- A greater lookback bound finds the same entry: the greatest index does not move. -/
theorem AttributedAt.mono {m : SourceMap} {lookback lookback' base : Nat} {e : SourceMap.Entry}
    (hl : lookback ≤ lookback') (h : AttributedAt m lookback base e) :
    AttributedAt m lookback' base e := by
  obtain ⟨j, hj, hjl, he⟩ := h
  exact ⟨j, hj, Nat.le_trans hjl hl, he⟩

/-! ## Scans over distances -/

/-- A scan over distances stops at the least one that finds something. -/
theorem findSome?_range'_eq_some_iff {f : Nat → Option α} {n : Nat} {a : α} :
    (List.range' 1 n).findSome? f = some a ↔
      ∃ d, 1 ≤ d ∧ d ≤ n ∧ f d = some a ∧ ∀ d', 1 ≤ d' → d' < d → f d' = none := by
  rw [List.findSome?_eq_some_iff]
  constructor
  · rintro ⟨before, d, after, hsplit, hd, hnone⟩
    obtain ⟨k, hk, rfl, hrest⟩ := List.range'_eq_append_iff.mp hsplit
    obtain ⟨rfl, hlen, -⟩ := List.range'_eq_cons_iff.mp hrest.symm
    refine ⟨1 + k * 1, by omega, by omega, hd, ?_⟩
    intro d' hd' hlt
    exact hnone d' (List.mem_range'_1.mpr ⟨hd', by omega⟩)
  · rintro ⟨d, hd, hdn, hfd, hnone⟩
    refine ⟨List.range' 1 (d - 1), d, List.range' (d + 1) (n - d), ?_, hfd, ?_⟩
    · refine List.range'_eq_append_iff.mpr ⟨d - 1, by omega, rfl, ?_⟩
      refine (List.range'_eq_cons_iff.mpr ⟨by omega, by omega, ?_⟩).symm
      congr 1
      omega
    · intro d' hd'
      obtain ⟨hle, hlt⟩ := List.mem_range'_1.mp hd'
      exact hnone d' hle (by omega)

/-- A scan that finds nothing has looked at every distance. -/
theorem findSome?_range'_eq_none {f : Nat → Option α} {n : Nat}
    (h : ∀ d, 1 ≤ d → d ≤ n → f d = none) : (List.range' 1 n).findSome? f = none := by
  rw [List.findSome?_eq_none_iff]
  intro d hd
  obtain ⟨hle, hlt⟩ := List.mem_range'_1.mp hd
  exact h d hle (by omega)

variable {m : PcMap}

theorem indexedEntry?_eq_none (h : m.sourceMap.size ≤ ic) : m.indexedEntry? ic = none := by
  have hget : m.sourceMap.get? ic = none := List.getElem?_eq_none h
  unfold indexedEntry?
  rw [hget, Option.map_none]

theorem indexedEntry?_eq_some (m : PcMap) {ic : Nat} (h : ic < m.sourceMap.size) :
    ∃ e, m.sourceMap.get? ic = some e ∧ m.indexedEntry? ic = some (ic, e) := by
  have hget : m.sourceMap.get? ic = some m.sourceMap.entries[ic] := List.getElem?_eq_getElem h
  refine ⟨_, hget, ?_⟩
  unfold indexedEntry?
  rw [hget, Option.map_some]

/-- From an instruction past the end of the map, only a step back that reaches into the map finds
an entry. -/
theorem entryAtDistance?_of_size_le (h : m.sourceMap.size ≤ ic) (d : Nat) :
    m.entryAtDistance? ic d = if d ≤ ic then m.indexedEntry? (ic - d) else none := by
  have hforward : m.indexedEntry? (ic + d) = none := indexedEntry?_eq_none (by omega)
  rw [entryAtDistance?, hforward]
  split <;> simp

/-- It finds nothing if it goes in front of the code, or is too short to reach into the map. -/
theorem entryAtDistance?_eq_none (h : m.sourceMap.size ≤ ic) {d : Nat}
    (hd : ic < d ∨ m.sourceMap.size ≤ ic - d) : m.entryAtDistance? ic d = none := by
  rw [entryAtDistance?_of_size_le h]
  split
  · next hle =>
    apply indexedEntry?_eq_none
    omega
  · rfl

/-- The search in both directions ends at the base. -/
theorem nearestEntry?_eq (m : PcMap) (ic : Nat) :
    m.nearestEntry? ic =
      (baseIndex? m.sourceMap.size m.tolerance.toNat ic).bind m.indexedEntry? := by
  unfold nearestEntry? baseIndex?
  by_cases hic : ic < m.sourceMap.size
  · obtain ⟨e, -, he⟩ := indexedEntry?_eq_some m hic
    simp [hic, he]
  · have hsize : m.sourceMap.size ≤ ic := Nat.le_of_not_lt hic
    rw [if_neg hic, indexedEntry?_eq_none hsize]
    split
    · next hlast =>
      -- the last entry is near enough, and no shorter step back reaches into the map
      obtain ⟨hpos, htol⟩ := hlast
      have hin : m.sourceMap.size - 1 < m.sourceMap.size := by omega
      obtain ⟨e, -, he⟩ := indexedEntry?_eq_some m hin
      have hscan : (List.range' 1 (min m.tolerance.toNat (max ic m.sourceMap.size))).findSome?
          (m.entryAtDistance? ic) = some (m.sourceMap.size - 1, e) := by
        refine findSome?_range'_eq_some_iff.mpr
          ⟨ic - (m.sourceMap.size - 1), by omega, by omega, ?_, ?_⟩
        · have hback : ic - (ic - (m.sourceMap.size - 1)) = m.sourceMap.size - 1 := by omega
          rw [entryAtDistance?_of_size_le hsize, if_pos (by omega), hback, he]
        · intro d hd hlt
          exact entryAtDistance?_eq_none hsize (by omega)
      rw [hscan]
      simp [he]
    · next hfar =>
      have hscan : (List.range' 1 (min m.tolerance.toNat (max ic m.sourceMap.size))).findSome?
          (m.entryAtDistance? ic) = none := by
        apply findSome?_range'_eq_none
        intro d hd hdn
        exact entryAtDistance?_eq_none hsize (by omega)
      rw [hscan]
      simp

/-- The walk back stops at the greatest handwritten index within the bound. -/
theorem lastHandwritten?_eq_some_iff {base : Nat} {e : SourceMap.Entry} :
    m.lastHandwritten? base = some e ↔
      ∃ j, j < base ∧ base - j ≤ m.lookback.toNat ∧ m.sourceMap.get? j = some e ∧
        e.isHandwritten = true ∧
        ∀ k e', j < k → k < base → m.sourceMap.get? k = some e' → e'.isHandwritten = false := by
  rw [lastHandwritten?, findSome?_range'_eq_some_iff]
  constructor
  · rintro ⟨d, hd, hdn, hfound, hbetween⟩
    obtain ⟨hget, hhand⟩ := Option.filter_eq_some_iff.mp hfound
    refine ⟨base - d, by omega, by omega, hget, hhand, ?_⟩
    intro k e' hjk hk hget'
    have hskip := hbetween (base - k) (by omega) (by omega)
    rw [show base - (base - k) = k by omega, hget'] at hskip
    simpa using hskip
  · rintro ⟨j, hj, hjl, hget, hhand, hbetween⟩
    refine ⟨base - j, by omega, by omega, ?_, ?_⟩
    · rw [show base - (base - j) = j by omega, hget]
      simp [hhand]
    · intro d hd hlt
      refine Option.filter_eq_none_iff.mpr fun e' hget' => ?_
      simp [hbetween (base - d) e' (by omega) (by omega) hget']

/-- What is found from an entry: itself if it is handwritten, else the walk back. -/
theorem attributedAt_iff {base : Nat} {near e : SourceMap.Entry}
    (hnear : m.sourceMap.get? base = some near) :
    (if near.isHandwritten then some near else m.lastHandwritten? base) = some e ↔
      AttributedAt m.sourceMap m.lookback.toNat base e := by
  by_cases hhand : near.isHandwritten = true
  · rw [if_pos hhand]
    constructor
    · intro h
      cases h
      exact ⟨base, Nat.le_refl _, by omega, hnear, hhand, fun k _ hjk hk _ => by omega⟩
    · rintro ⟨j, hj, -, hget, -, hlast⟩
      -- a handwritten base ends the walk before it begins
      by_cases hjb : j = base
      · rw [← hnear, ← hjb, hget]
      · have hnot := hlast base near (by omega) (Nat.le_refl _) hnear
        rw [hhand] at hnot
        cases hnot
  · rw [if_neg hhand, lastHandwritten?_eq_some_iff]
    rw [Bool.not_eq_true] at hhand
    constructor
    · rintro ⟨j, hj, hjl, hget, hhand', hlast⟩
      refine ⟨j, by omega, hjl, hget, hhand', ?_⟩
      intro k e' hjk hk hget'
      rcases Nat.lt_or_eq_of_le hk with hlt | heq
      · exact hlast k e' hjk hlt hget'
      · rw [heq, hnear] at hget'
        cases hget'
        exact hhand
    · rintro ⟨j, hj, hjl, hget, hhand', hlast⟩
      have hjb : j ≠ base := by
        rintro rfl
        rw [hnear] at hget
        cases hget
        rw [hhand] at hhand'
        cases hhand'
      exact ⟨j, by omega, hjl, hget, hhand', fun k e' hjk hk => hlast k e' hjk (by omega)⟩

/-- The attribution of an instruction in closed form. -/
theorem attributedEntry?_eq_some_iff {pc : Nat} {e : SourceMap.Entry} :
    m.attributedEntry? pc = some e ↔
      ∃ ic base, m.instructionIndex? pc = some ic ∧
        baseIndex? m.sourceMap.size m.tolerance.toNat ic = some base ∧
        AttributedAt m.sourceMap m.lookback.toNat base e := by
  unfold attributedEntry?
  simp only [Option.bind_eq_bind, Option.bind_eq_some_iff, nearestEntry?_eq]
  constructor
  · rintro ⟨ic, hic, near, ⟨base, hbase, hnear⟩, hentry⟩
    obtain ⟨e', hget, he'⟩ := indexedEntry?_eq_some m (baseIndex?_le hbase).2
    obtain rfl : near = (base, e') := Option.some.inj (hnear.symm.trans he')
    exact ⟨ic, base, hic, hbase, (attributedAt_iff hget).mp hentry⟩
  · rintro ⟨ic, base, hic, hbase, hat⟩
    obtain ⟨e', hget, he'⟩ := indexedEntry?_eq_some m (baseIndex?_le hbase).2
    exact ⟨ic, hic, (base, e'), ⟨base, hbase, he'⟩, (attributedAt_iff hget).mpr hat⟩

/-! ## The attribution of a pc of a code -/

theorem instructionIndex?_build {code : Bytes} {map source : String} {settings : Settings}
    {pc ic : Nat} : (build code map source settings).instructionIndex? pc = some ic ↔
      (Bytecode.starts code)[ic]? = some pc :=
  Bytecode.lookup_pcIndex_eq_some_iff

/-- The same for a map that is built from a code, read off its pcs. -/
theorem attributedEntry?_build {code : Bytes} {map source : String} {settings : Settings}
    {pc : Nat} {e : SourceMap.Entry} :
    attributedEntry? (build code map source settings) pc = some e ↔
      ∃ ic base, (Bytecode.starts code)[ic]? = some pc ∧
        baseIndex? (SourceMap.parse map).size settings.tolerance.toNat ic = some base ∧
        AttributedAt (.parse map) settings.lookback.toNat base e := by
  rw [attributedEntry?_eq_some_iff]
  simp only [instructionIndex?_build]
  rfl

/-- An attribution names a handwritten entry at or before the instruction. -/
theorem handwritten_and_before {code : Bytes} {map source : String} {settings : Settings}
    {pc : Nat} {e : SourceMap.Entry}
    (h : attributedEntry? (build code map source settings) pc = some e) :
    e.isHandwritten = true ∧ ∃ ic j, (Bytecode.starts code)[ic]? = some pc ∧ j ≤ ic ∧
      (SourceMap.parse map).get? j = some e := by
  obtain ⟨ic, base, hic, hbase, j, hj, -, hget, hhand, -⟩ := attributedEntry?_build.mp h
  have hle := (baseIndex?_le hbase).1
  exact ⟨hhand, ic, j, hic, by omega, hget⟩

/-- Greater bounds keep every attribution that smaller ones find. -/
theorem attributedEntry?_mono {code : Bytes} {map source : String} {settings settings' : Settings}
    {pc : Nat} {e : SourceMap.Entry} (hl : settings.lookback ≤ settings'.lookback)
    (ht : settings.tolerance ≤ settings'.tolerance)
    (h : attributedEntry? (build code map source settings) pc = some e) :
    attributedEntry? (build code map source settings') pc = some e := by
  obtain ⟨ic, base, hic, hbase, hat⟩ := attributedEntry?_build.mp h
  refine attributedEntry?_build.mpr ⟨ic, base, hic, ?_, ?_⟩
  · exact baseIndex?_mono (UInt64.le_iff_toNat_le.mp ht) hbase
  · exact hat.mono (UInt64.le_iff_toNat_le.mp hl)

/-- **The attribution of a pc in closed form**, with what follows from it: a pc that starts no
instruction has none, no generated entry and none behind the instruction is returned, greater
bounds neither lose nor change an attribution, and the position of the pc is where the entry it is
attributed to starts. -/
theorem attribution_closed_form (code : Bytes) (map source : String) (settings : Settings)
    (pc : Nat) :
    (∀ e, attributedEntry? (build code map source settings) pc = some e ↔
      ∃ ic base, (Bytecode.starts code)[ic]? = some pc ∧
        baseIndex? (SourceMap.parse map).size settings.tolerance.toNat ic = some base ∧
        AttributedAt (.parse map) settings.lookback.toNat base e) ∧
    (pc ∉ Bytecode.starts code →
      attributedEntry? (build code map source settings) pc = none) ∧
    (∀ e, attributedEntry? (build code map source settings) pc = some e →
      e.isHandwritten = true ∧ ∃ ic j, (Bytecode.starts code)[ic]? = some pc ∧ j ≤ ic ∧
        (SourceMap.parse map).get? j = some e) ∧
    (∀ settings', settings.lookback ≤ settings'.lookback →
      settings.tolerance ≤ settings'.tolerance →
      ∀ e, attributedEntry? (build code map source settings) pc = some e →
        attributedEntry? (build code map source settings') pc = some e) ∧
    ∀ p, (build code map source settings).position? pc = some p ↔
      ∃ e, attributedEntry? (build code map source settings) pc = some e ∧
        (SourceFile.mk source).position? e.start.toNat = some p := by
  refine ⟨fun e => attributedEntry?_build, ?_, fun e => handwritten_and_before,
    fun settings' hl ht e => attributedEntry?_mono hl ht, ?_⟩
  · intro hpc
    refine Option.eq_none_iff_forall_ne_some.mpr fun e he => ?_
    obtain ⟨ic, base, hic, -⟩ := attributedEntry?_build.mp he
    exact hpc (List.mem_of_getElem? hic)
  · intro p
    exact Option.bind_eq_some_iff

end PcMap

end TxForensics
