import TxForensics.Source.Function

/-!
# The function around a line: declaration and body

`functionAt?` puts two independent scans together. Upwards, `Declaration.above?` looks for the
nearest line with a declaration; downwards, `Declaration.lastLine` looks for the end of the body
from there. This file says what each of them finds.

* Upwards: the greatest line up to the target that declares something (`above?_eq_some_iff`).
* Downwards: the state of the scan is a function of the code it has read, its brace depth and
  whether a brace was opened (`Scan.after`). So the scan stops at the first character that ends the
  body (`EndsBody`), and the body reaches a line exactly when no earlier line holds such a
  character (`le_lastLine_iff`).

The two scans share no more than the line they meet at: nothing makes the body reach the target.
-/

namespace TxForensics

/-- A number fits into four bytes as itself or not at all. -/
theorem fitUInt32?_eq_some_iff {n : Nat} {u : UInt32} : fitUInt32? n = some u ↔ u.toNat = n := by
  unfold fitUInt32?
  split
  · next hlt =>
    rw [Option.some.injEq]
    constructor
    · rintro rfl
      exact UInt32.toNat_ofNat_of_lt' hlt
    · rintro rfl
      exact UInt32.ofNat_toNat
  · next hge =>
    constructor
    · intro h
      cases h
    · rintro rfl
      exact absurd u.toNat_lt hge

namespace Declaration

/-! ## Upwards: the nearest declaration -/

/-- A line further down is looked at first, and then those above it. -/
theorem above?_succ (s : SourceFile) (target : Nat) :
    above? s (target + 1) =
      (((s.line? (target + 1)).bind name?).map (target + 1, ·)).or (above? s target) := by
  unfold above?
  -- a target past the text has the lines of the text above it and nothing more
  by_cases h : target < s.lines.length
  · have hline : s.line? (target + 1) = some s.lines[target] := by
      simp [SourceFile.line?, h]
    rw [List.take_succ_eq_append_getElem h, List.zipIdx_append, List.reverse_append,
      List.findSome?_append, hline]
    have hlen : (s.lines.take target).length = target := by simp; omega
    simp [hlen, Nat.add_comm 1 target]
  · have hnone : s.line? (target + 1) = none := by
      simpa [SourceFile.line?] using h
    rw [hnone, List.take_of_length_le (by omega), List.take_of_length_le (by omega)]
    simp

/-- The declaration found is the one on the greatest line up to the target that has one. -/
theorem above?_eq_some_iff {s : SourceFile} {target start : Nat} {name : List Char} :
    above? s target = some (start, name) ↔
      start ≤ target ∧ (s.line? start).bind name? = some name ∧
        ∀ k, start < k → k ≤ target → (s.line? k).bind name? = none := by
  -- over the target, from the first line on
  induction target with
  | zero =>
    constructor
    · intro h
      simp [above?] at h
    · rintro ⟨hle, hname, -⟩
      rw [Nat.le_zero.mp hle] at hname
      simp [SourceFile.line?] at hname
  | succ target ih =>
    rw [above?_succ]
    cases hname : (s.line? (target + 1)).bind name? with
    | none =>
      rw [Option.map_none, Option.none_or, ih]
      constructor
      · rintro ⟨hle, hstart, hlast⟩
        refine ⟨by omega, hstart, ?_⟩
        intro k hk hkt
        rcases Nat.lt_or_eq_of_le hkt with hlt | rfl
        · exact hlast k hk (by omega)
        · exact hname
      · rintro ⟨hle, hstart, hlast⟩
        have hne : start ≠ target + 1 := by
          rintro rfl
          rw [hname] at hstart
          cases hstart
        exact ⟨by omega, hstart, fun k hk hkt => hlast k hk (by omega)⟩
    | some found =>
      rw [Option.map_some, Option.some_or]
      constructor
      · intro h
        cases h
        exact ⟨Nat.le_refl _, hname, fun k hk hkt => by omega⟩
      · rintro ⟨hle, hstart, hlast⟩
        have heq : start = target + 1 := by
          refine Classical.byContradiction fun hne => ?_
          have hnone := hlast (target + 1) (by omega) (Nat.le_refl _)
          rw [hname] at hnone
          cases hnone
        rw [heq, hname] at hstart
        rw [heq, Option.some.inj hstart]

/-! ## Downwards: the end of the body -/

/-- The number of braces that are open behind a piece of code. A closing brace that closes none
does not count. -/
def braceDepth (code : List Char) : Nat :=
  code.foldl (fun depth c => if c = '{' then depth + 1 else if c = '}' then depth - 1 else depth) 0

/-- Whether `c` ends the body that `front` begins: as the brace that closes the last open one, or
as a semicolon before the first brace. -/
def EndsBody (front : List Char) (c : Char) : Prop :=
  (c = '}' ∧ '{' ∈ front ∧ braceDepth (front ++ [c]) = 0) ∨ (c = ';' ∧ '{' ∉ front)

instance (front : List Char) (c : Char) : Decidable (EndsBody front c) :=
  inferInstanceAs (Decidable (_ ∨ _))

/-- Whether the body that `front` begins ends within the code behind it. -/
def EndsWithin (front code : List Char) : Prop :=
  ∃ before c after, code = before ++ c :: after ∧ EndsBody (front ++ before) c

theorem endsWithin_nil (front : List Char) : ¬ EndsWithin front [] := by
  rintro ⟨before, c, after, h, -⟩
  simp at h

/-- A body ends with the first character, or within those behind it. -/
theorem endsWithin_cons {front : List Char} {c : Char} {code : List Char} :
    EndsWithin front (c :: code) ↔ EndsBody front c ∨ EndsWithin (front ++ [c]) code := by
  constructor
  · rintro ⟨before, d, after, h, hd⟩
    cases before with
    | nil =>
      obtain ⟨rfl, -⟩ := List.cons.inj h
      exact .inl (by simpa using hd)
    | cons b before =>
      obtain ⟨rfl, htail⟩ := List.cons.inj h
      exact .inr ⟨before, d, after, htail, by simpa using hd⟩
  · rintro (h | ⟨before, d, after, rfl, hd⟩)
    · exact ⟨[], c, code, rfl, by simpa using h⟩
    · exact ⟨c :: before, d, after, rfl, by simpa using hd⟩

namespace Scan

/-- The scan behind a piece of code in which no body ends. -/
def after (front : List Char) : Scan := ⟨braceDepth front, decide ('{' ∈ front)⟩

/-- One character more: it ends the body, or the scan goes on behind it. -/
theorem line?_after_cons (front : List Char) (c : Char) (cs : List Char) :
    (after front).line? (c :: cs) =
      if EndsBody front c then none else (after (front ++ [c])).line? cs := by
  by_cases hopen : c = '{'
  · subst hopen
    rw [Scan.line?, if_neg (by simp [EndsBody])]
    simp [after, braceDepth]
  · by_cases hclose : c = '}'
    · subst hclose
      rw [Scan.line?]
      by_cases hmem : '{' ∈ front <;> by_cases hdepth : braceDepth front ≤ 1 <;>
        simp_all [after, EndsBody, braceDepth, Nat.sub_eq_zero_iff_le]
    · rw [Scan.line?]
      · by_cases hmem : '{' ∈ front <;> by_cases hsemi : c = ';' <;>
          simp_all [after, EndsBody, braceDepth, Ne.symm hopen]
      · exact hopen
      · exact hclose

/-- The scan stops exactly in code that ends the body. -/
theorem line?_after_eq_none_iff {front code : List Char} :
    (after front).line? code = none ↔ EndsWithin front code := by
  induction code generalizing front with
  | nil => simp [Scan.line?, endsWithin_nil]
  | cons c cs ih =>
    rw [line?_after_cons, endsWithin_cons]
    split
    · next hc => simp [hc]
    · next hc => simp [hc, ih]

theorem line?_append (s : Scan) (front back : List Char) :
    s.line? (front ++ back) = (s.line? front).bind (·.line? back) := by
  fun_induction Scan.line? s front with
  | case1 => rfl
  | case2 s cs ih => rw [List.cons_append, Scan.line?, ih]
  | case3 s cs h => rw [List.cons_append, Scan.line?, if_pos h, Option.bind_none]
  | case4 s cs h ih => rw [List.cons_append, Scan.line?, if_neg h, ih]
  | case5 s c cs hopen hclose h =>
    rw [List.cons_append, Scan.line?, if_pos h, Option.bind_none]
    · exact hopen
    · exact hclose
  | case6 s c cs hopen hclose h ih =>
    rw [List.cons_append, Scan.line?, if_neg h, ih]
    · exact hopen
    · exact hclose

end Scan

/-- The body reaches past `k` lines exactly when the scan reads them all. -/
theorem le_linesBeforeEnd?_iff {s : Scan} {lines : List (List Char)} {k : Nat} :
    (∀ n, linesBeforeEnd? s lines = some n → k ≤ n) ↔
      s.line? ((lines.take k).flatMap beforeComment) ≠ none := by
  -- the scan goes from line to line, so the induction is over all states it can be in
  induction lines generalizing s k with
  | nil => simp [linesBeforeEnd?, Scan.line?]
  | cons line lines ih =>
    cases k with
    | zero => simp [Scan.line?]
    | succ k =>
      rw [List.take_succ_cons, List.flatMap_cons, Scan.line?_append, linesBeforeEnd?]
      cases hline : s.line? (beforeComment line) with
      | none => simp
      | some s' =>
        rw [Option.bind_some, ← ih]
        constructor
        · intro h n hn
          have hle := h (n + 1) (Option.map_eq_some_iff.mpr ⟨n, hn, rfl⟩)
          omega
        · intro h n hn
          obtain ⟨n', hn', rfl⟩ := Option.map_eq_some_iff.mp hn
          have hle := h n' hn'
          omega

def codeBefore (s : SourceFile) (first last : Nat) : List Char :=
  ((s.lines.drop (first - 1)).take (last - first)).flatMap beforeComment

/-- The body of a declaration reaches a line of the text exactly when it does not end on a line
between. -/
theorem le_lastLine_iff {s : SourceFile} {start line : Nat} (hstart : start ≤ line)
    (hline : line ≤ s.lineCount) :
    line ≤ lastLine s start ↔ ¬ EndsWithin [] (codeBefore s start line) := by
  -- a body that never ends takes the whole text, which has the line in it
  have hscan : line ≤ lastLine s start ↔
      ∀ n, linesBeforeEnd? {} (s.lines.drop (start - 1)) = some n → line - start ≤ n := by
    unfold lastLine
    split
    · next n hn =>
      simp only [hn, Option.some.injEq, forall_eq']
      omega
    · next hnone => simpa [hnone] using hline
  rw [hscan, le_linesBeforeEnd?_iff]
  show ¬ (Scan.after []).line? (codeBefore s start line) = none ↔ _
  exact not_congr Scan.line?_after_eq_none_iff

end Declaration

/-! ## The function -/

namespace SourceFile

/-- What a function around a line is made of. -/
theorem functionAt?_eq_some_iff {s : SourceFile} {target : Nat} {f : EnclosingFunction} :
    s.functionAt? target = some f ↔
      0 < target ∧ target ≤ s.lineCount ∧
        Declaration.above? s target = some (f.firstLine.toNat, f.name.toList) ∧
        f.lastLine.toNat = Declaration.lastLine s f.firstLine.toNat ∧
        f.askedLine.toNat = target ∧
        s.slice? f.firstLine.toNat f.lastLine.toNat = some f.code := by
  unfold functionAt?
  split
  · next hrange =>
    constructor
    · intro h
      cases h
    · rintro ⟨hpos, hle, -⟩
      omega
  · next hrange =>
    simp only [Option.bind_eq_bind, Option.bind_eq_some_iff, fitUInt32?_eq_some_iff,
      Option.pure_def, Option.some.injEq]
    constructor
    · rintro ⟨⟨start, name⟩, habove, code, hcode, first, rfl, last, hlast, asked, hasked, rfl⟩
      refine ⟨by omega, by omega, ?_, hlast, hasked, ?_⟩
      · simpa using habove
      · rw [hlast]
        exact hcode
    · rintro ⟨-, -, habove, hlast, hasked, hcode⟩
      refine ⟨_, habove, f.code, ?_, f.firstLine, rfl, f.lastLine, hlast, f.askedLine, hasked, ?_⟩
      · rw [← hlast]
        exact hcode
      · rw [String.ofList_toList]

end SourceFile

end TxForensics
