import TxForensics.Proofs.Bounds.Function
import TxForensics.Proofs.Resolution.Attribution
import TxForensics.Trace.Check

/-!
# Queries at any position

A pc, an offset, a line number, an index or a position on a stack is a number of 64 bits that a
caller is free to choose, and so are the bounds of the settings. This file goes through what can be
asked at such a number as a machine answers it:

* The searches for an entry add a distance to an index and subtract it. Both are checked, a sum or
  difference that is no number is passed over, and no entry is missed by that.
* A text answers through the index of its lines, where no guard ever closes.
* A stack is read at the position plus one. That sum overflows at the last position of all, the only
  one at which a query does not answer. An index into the stack is never outside of it.
-/

namespace TxForensics

namespace Machine

/-! ## Entries -/

/-- The entry for `ic`, or the first one at a distance within the tolerance before or behind it. -/
def nearestEntry? (m : PcMap) (ic : Nat) : Option (Nat × SourceMap.Entry) :=
  m.indexedEntry? ic <|>
    ((List.range' 1 m.tolerance.toNat).flatMap fun distance =>
      (sub? ic distance).toList ++ (add? ic distance).toList).findSome? m.indexedEntry?

/-- The images of items up to the first that has none. -/
def mapWhile (f : α → Option β) : List α → List β
  | [] => []
  | a :: as =>
    match f a with
    | none => []
    | some b => b :: mapWhile f as

/-- The first handwritten entry on the way back from `ic` within the lookback bound. -/
def lastHandwritten? (m : PcMap) (ic : Nat) : Option SourceMap.Entry :=
  ((mapWhile (sub? ic) (List.range' 1 m.lookback.toNat)).filterMap m.sourceMap.get?).find?
    (·.isHandwritten)

def attributedEntry? (m : PcMap) (pc : Nat) : Option SourceMap.Entry := do
  let ic ← m.instructionIndex? pc
  let (near, entry) ← nearestEntry? m ic
  if entry.isHandwritten then some entry else lastHandwritten? m near

/-- Distances at which a scan finds nothing may be left out at its end. -/
theorem findSome?_range'_min {f : Nat → Option α} {bound : Nat} (h : ∀ d, bound < d → f d = none)
    (n : Nat) : (List.range' 1 n).findSome? f = (List.range' 1 (min n bound)).findSome? f := by
  ext a
  rw [PcMap.findSome?_range'_eq_some_iff, PcMap.findSome?_range'_eq_some_iff]
  constructor
  · rintro ⟨d, hpos, hd, hfound, hfirst⟩
    have hle : d ≤ bound := by
      refine Nat.le_of_not_lt fun hlt => ?_
      rw [h d hlt] at hfound
      cases hfound
    exact ⟨d, hpos, Nat.le_min.mpr ⟨hd, hle⟩, hfound, hfirst⟩
  · rintro ⟨d, hpos, hd, hfound, hfirst⟩
    exact ⟨d, hpos, (Nat.le_min.mp hd).1, hfound, hfirst⟩

variable {m : PcMap}

/-- The two sides of an index that are numbers of 64 bits have the entry of the two sides. -/
theorem findSome?_sides (h : m.sourceMap.size < 2 ^ 63) (ic distance : Nat) :
    ((sub? ic distance).toList ++ (add? ic distance).toList).findSome? m.indexedEntry? =
      m.entryAtDistance? ic distance := by
  have hback : (sub? ic distance).toList.findSome? m.indexedEntry? =
      if distance ≤ ic then m.indexedEntry? (ic - distance) else none := by
    rw [sub?]
    split <;> simp
  have hforth : (add? ic distance).toList.findSome? m.indexedEntry? =
      m.indexedEntry? (ic + distance) := by
    rw [add?]
    split
    · simp
    · rw [PcMap.indexedEntry?_eq_none (by omega)]
      rfl
  rw [List.findSome?_append, hback, hforth, PcMap.entryAtDistance?, Option.orElse_eq_orElse,
    Option.orElse_eq_or]

theorem findSome?_flatMap (f : α → List β) (g : β → Option γ) (as : List α) :
    (as.flatMap f).findSome? g = as.findSome? fun a => (f a).findSome? g := by
  rw [← List.head?_filterMap, List.filterMap_flatMap, List.head?_flatMap]
  simp only [List.head?_filterMap]

theorem isSome_get?_iff {ic : Nat} :
    (m.sourceMap.get? ic).isSome ↔ ic < m.sourceMap.size := by
  rw [SourceMap.get?, isSome_getElem?]
  rfl

theorem nearestEntry?_eq (h : m.sourceMap.size < 2 ^ 63) (ic : Nat) :
    nearestEntry? m ic = m.nearestEntry? ic := by
  -- at a distance past the end of the map and the first instruction there is nothing on either side
  have hfar : ∀ d, max ic m.sourceMap.size < d → m.entryAtDistance? ic d = none := by
    intro d hd
    have hforth : m.indexedEntry? (ic + d) = none := PcMap.indexedEntry?_eq_none (by omega)
    rw [PcMap.entryAtDistance?, if_neg (by omega), hforth]
    rfl
  unfold nearestEntry? PcMap.nearestEntry?
  rw [findSome?_flatMap]
  simp only [findSome?_sides h]
  rw [findSome?_range'_min hfar]

/-- The way back ends at the first instruction. -/
theorem mapWhile_sub? (ic first count : Nat) :
    mapWhile (sub? ic) (List.range' (first + 1) count) =
      (List.range' (first + 1) (min count (ic - first))).map (ic - ·) := by
  induction count generalizing first with
  | zero => simp [mapWhile]
  | succ count ih =>
    rw [List.range'_succ, mapWhile, sub?]
    -- a difference that would be negative ends the way
    by_cases hle : first + 1 ≤ ic
    · have hmin : min (count + 1) (ic - first) = min count (ic - (first + 1)) + 1 := by omega
      rw [if_pos hle, hmin, List.range'_succ, List.map_cons, ← ih]
    · have hmin : min (count + 1) (ic - first) = 0 := by omega
      rw [if_neg hle, hmin]
      rfl

theorem find?_filterMap_eq (f : α → Option β) (p : β → Bool) (as : List α) :
    (as.filterMap f).find? p = as.findSome? fun a => (f a).filter p := by
  rw [← List.head?_filter, List.filter_filterMap, List.head?_filterMap]

theorem lastHandwritten?_eq (m : PcMap) (ic : Nat) :
    lastHandwritten? m ic = m.lastHandwritten? ic := by
  rw [lastHandwritten?, mapWhile_sub? ic 0, find?_filterMap_eq, List.findSome?_map]
  rfl

theorem attributedEntry?_eq (h : m.sourceMap.size < 2 ^ 63) (pc : Nat) :
    attributedEntry? m pc = m.attributedEntry? pc := by
  unfold attributedEntry? PcMap.attributedEntry?
  simp only [nearestEntry?_eq h, lastHandwritten?_eq]

/-! ## Places -/

/-- The position of `pc`, with the function around it if the settings ask for that. -/
def site (m : PcMap) (ix : LineIndex) (pc : Nat) : Except Fault (Option SourceSite) :=
  match attributedEntry? m pc with
  | none => return none
  | some entry => do
    match ← ix.position entry.start.toNat with
    | none => return none
    | some position =>
      let function ← if m.withFunction then functionAt ix position.line.toNat else pure none
      return some { position, function }

theorem site_eq (hmap : m.sourceMap.size < 2 ^ 63) (hsource : m.source.size < 2 ^ 63) (pc : Nat) :
    site m (index m.source) pc = .ok (m.site? pc) := by
  rw [site, attributedEntry?_eq hmap, PcMap.site?, PcMap.position?]
  -- both stop where there is no entry, no position or no function to look for
  cases m.attributedEntry? pc with
  | none => rfl
  | some entry =>
    simp only [position_eq hsource, ok_bind, Option.bind_eq_bind, Option.bind_some]
    cases m.source.position? entry.start.toNat with
    | none => rfl
    | some position =>
      simp only [functionAt_eq hsource]
      cases m.withFunction <;> rfl

end Machine

/-! ## Stacks -/

namespace Step

/-- A stack is read from its end, except at the last position of all, and never outside of it. -/
theorem fromTop_eq (s : Step) (n : UInt64) :
    s.fromTop n =
      if n.toNat + 1 < 2 ^ 64 then .ok s.stack.reverse[n.toNat]? else .error .overflow := by
  rw [fromTop]
  by_cases hlast : n.toNat + 1 < 2 ^ 64
  · rw [if_pos hlast, if_neg (Nat.not_le_of_lt hlast)]
    split
    case isTrue hshort =>
      rw [List.getElem?_eq_none (by rw [List.length_reverse]; omega)]
    case isFalse hlong =>
      have hindex : s.stack.length - (n.toNat + 1) < s.stack.length := by omega
      have hcount : s.stack.length - 1 - n.toNat = s.stack.length - (n.toNat + 1) := by omega
      rw [List.getElem?_reverse (by omega), hcount]
      -- counting down a word at least and no more than there are stays inside of the stack
      simp only [List.getElem?_eq_getElem hindex]
  · rw [if_neg hlast, if_pos (Nat.le_of_not_lt hlast)]

theorem fromTop_of_lt {s : Step} {n : UInt64} (h : n.toNat + 1 < 2 ^ 64) :
    s.fromTop n = .ok s.stack.reverse[n.toNat]? := by
  rw [fromTop_eq, if_pos h]

/-- The only fault is the overflow at the last position. -/
theorem fromTop_eq_error_iff {s : Step} {n : UInt64} {fault : StackFault} :
    s.fromTop n = .error fault ↔ n.toNat + 1 = 2 ^ 64 ∧ fault = .overflow := by
  have hn := n.toNat_lt
  rw [fromTop_eq]
  split
  case isTrue hlt =>
    constructor
    · intro h
      cases h
    · rintro ⟨hlast, -⟩
      omega
  case isFalse hge =>
    constructor
    · intro h
      cases h
      exact ⟨by omega, rfl⟩
    · rintro ⟨-, rfl⟩
      rfl

theorem fromTop_zero (s : Step) : s.fromTop 0 = .ok s.top? := by
  rw [fromTop_of_lt (by decide), top?, List.getLast?_eq_head?_reverse, List.head?_eq_getElem?]
  rfl

end Step

namespace Machine

/-- **Every query answers, but for one.** A text and a map that are in memory have less than
`2 ^ 63` octets and entries. Whatever the numbers are that they are asked at, a machine comes to the
answer that the lines of the text, the entries of the map and the bounds of the settings give,
without a fault on the way. A stack is read at every position but the last one of 64 bits: there is
the word so far from its top, or none if the stack ends before. At the last position the sum
overflows. -/
theorem queries_answer_iff (m : PcMap) (s : Step) (hsource : m.source.size < 2 ^ 63)
    (hmap : m.sourceMap.size < 2 ^ 63) :
    ∃ ix, LineIndex.build m.source = .ok ix ∧ ∀ n k : UInt64,
      ix.line n.toNat = .ok (m.source.line? n.toNat) ∧
      ix.lines n.toNat k.toNat = .ok (m.source.slice? n.toNat k.toNat) ∧
      ix.lineColumn n.toNat = .ok (m.source.coordinates? n.toNat) ∧
      ix.position n.toNat = .ok (m.source.position? n.toNat) ∧
      functionAt ix n.toNat = .ok (m.source.functionAt? n.toNat) ∧
      ((m.sourceMap.get? n.toNat).isSome ↔ n.toNat < m.sourceMap.size) ∧
      attributedEntry? m n.toNat = m.attributedEntry? n.toNat ∧
      site m ix n.toNat = .ok (m.site? n.toNat) ∧
      s.fromTop 0 = .ok s.top? ∧
      (n.toNat + 1 < 2 ^ 64 → s.fromTop n = .ok s.stack.reverse[n.toNat]?) ∧
      ∀ fault, s.fromTop n = .error fault ↔ n.toNat + 1 = 2 ^ 64 ∧ fault = .overflow := by
  refine ⟨index m.source, build_eq hsource, ?_⟩
  intro n k
  exact ⟨line_eq _ _, lines_eq _ _ _, lineColumn_eq hsource _, position_eq hsource _,
    functionAt_eq hsource _, isSome_get?_iff, attributedEntry?_eq hmap _, site_eq hmap hsource _,
    s.fromTop_zero, Step.fromTop_of_lt, fun _ => Step.fromTop_eq_error_iff⟩

/-- A text of two lines, the first of which is attributed, with bounds as great as they can be. -/
def twoLines : PcMap :=
  .build [0x5b] "0:7:0" "uint x;\nuint y;"
    { lookback := 18446744073709551615, tolerance := 18446744073709551615 }

theorem queries_answer_two_lines :
    twoLines.source.size < 2 ^ 63 ∧ twoLines.sourceMap.size < 2 ^ 63 ∧
      ∃ ix, LineIndex.build twoLines.source = .ok ix ∧
        ix.line (2 : UInt64).toNat = .ok (some "uint y;".toList) ∧
        ix.line (18446744073709551615 : UInt64).toNat = .ok none ∧
        ({ stack := [.ofNat 1, .ofNat 2] } : Step).fromTop 1 = .ok (some (.ofNat 1)) := by
  have hsource : twoLines.source.size < 2 ^ 63 := by decide +kernel
  have hmap : twoLines.sourceMap.size < 2 ^ 63 := by decide +kernel
  obtain ⟨ix, hix, hanswers⟩ :=
    queries_answer_iff twoLines { stack := [.ofNat 1, .ofNat 2] } hsource hmap
  obtain ⟨hsecond, -⟩ := hanswers 2 0
  obtain ⟨hlast, -⟩ := hanswers 18446744073709551615 0
  obtain ⟨-, -, -, -, -, -, -, -, -, hstack, -⟩ := hanswers 1 0
  have hline : twoLines.source.line? (2 : UInt64).toNat = some "uint y;".toList := by
    decide +kernel
  have hnone : twoLines.source.line? (18446744073709551615 : UInt64).toNat = none := by
    decide +kernel
  rw [hline] at hsecond
  rw [hnone] at hlast
  exact ⟨hsource, hmap, ix, hix, hsecond, hlast, hstack (by decide)⟩

/-- Not every position on the stack of a step of a trace gets an answer. -/
theorem last_position_faults :
    ¬ ∀ (logs : List StepLog) (steps : List Step), checkSteps logs = .ok steps →
      ∀ step ∈ steps, ∀ n : UInt64, ∃ word, step.fromTop n = .ok word := by
  intro h
  obtain ⟨word, hword⟩ := h [{ op := "STOP", gas := 1, depth := 1 }] _ rfl _
    List.mem_cons_self 18446744073709551615
  have hfault (s : Step) : s.fromTop 18446744073709551615 = .error .overflow :=
    Step.fromTop_eq_error_iff.mpr ⟨rfl, rfl⟩
  rw [hfault] at hword
  cases hword

end Machine

end TxForensics
