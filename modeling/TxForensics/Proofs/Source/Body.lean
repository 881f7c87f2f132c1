import TxForensics.Proofs.Source.Declaration
import TxForensics.Proofs.Source.Lines

/-!
# Where the body of a declaration ends

The scan that looks for the end of a body begins with the line of the declaration, and not with the
declaration. What stands before the declaration on its line is scanned along with it: a semicolon
there ends the body before it begins, and a brace opened there must be closed as well.

    uint x; function f() {          the scan ends at the semicolon
      g();
    }                               the body ends here

`ReachesLine` says which line a scan reaches that begins with a given piece of code. The line
reported is the one that the scan of the whole line reaches, and `body_end_iff` says when it is also
the one that the body itself reaches.
-/

namespace TxForensics

namespace Declaration

/-! ## Bodies that end in a longer text -/

/-- A body that has ended stays ended, whatever follows. -/
theorem EndsWithin.append {front code : List Char} (h : EndsWithin front code)
    (more : List Char) : EndsWithin front (code ++ more) := by
  obtain ⟨before, c, after, rfl, hc⟩ := h
  exact ⟨before, c, after ++ more, by simp, hc⟩

/-- Without a brace and a semicolon in front the scan is still where it began. -/
theorem Scan.line?_append_of_idle {front : List Char} (h : ∀ c ∈ front, c ≠ '{' ∧ c ≠ ';')
    (code : List Char) : Scan.line? {} (front ++ code) = Scan.line? {} code := by
  induction front with
  | nil => rfl
  | cons c front ih =>
    obtain ⟨⟨hopen, hsemi⟩, hfront⟩ := List.forall_mem_cons.mp h
    rw [List.cons_append]
    -- a closing brace that closes none leaves the scan as it was
    by_cases hclose : c = '}'
    · rw [hclose, Scan.line?]
      exact ih hfront
    · rw [Scan.line?.eq_4 _ _ _ hopen hclose, if_neg (by simp [hsemi])]
      exact ih hfront

/-- Nor does such a front end the body, or keep it from ending. -/
theorem endsWithin_append_of_idle {front : List Char} (h : ∀ c ∈ front, c ≠ '{' ∧ c ≠ ';')
    (code : List Char) : EndsWithin [] (front ++ code) ↔ EndsWithin [] code := by
  rw [← Scan.line?_after_eq_none_iff, ← Scan.line?_after_eq_none_iff]
  show Scan.line? {} (front ++ code) = none ↔ Scan.line? {} code = none
  rw [Scan.line?_append_of_idle h]

/-! ## The line that a scan reaches -/

/-- A scan that begins with `code` on the line `start` and goes on with the lines behind it ends the
body on the line `last`, or reaches the end of the text there without ending it. -/
structure ReachesLine (s : SourceFile) (start : Nat) (code : List Char) (last : Nat) : Prop where
  start_le : start ≤ last
  le_lineCount : last ≤ s.lineCount
  notBefore : start < last → ¬ EndsWithin [] (code ++ codeBefore s (start + 1) last)
  ends : last < s.lineCount → EndsWithin [] (code ++ codeBefore s (start + 1) (last + 1))

/-- The code of more lines begins with that of fewer. -/
theorem codeBefore_eq_append (s : SourceFile) (first : Nat) {k k' : Nat} (h : k ≤ k') :
    ∃ more, codeBefore s first k' = codeBefore s first k ++ more := by
  unfold codeBefore
  generalize s.lines.drop (first - 1) = lines
  have hsum : k' - first = (k - first) + (k' - first - (k - first)) := by omega
  refine ⟨((lines.drop (k - first)).take (k' - first - (k - first))).flatMap beforeComment, ?_⟩
  rw [hsum, List.take_add, List.flatMap_append]
  simp

/-- With more lines a body has still ended. -/
theorem EndsWithin.later {s : SourceFile} {start : Nat} {code : List Char} {k k' : Nat}
    (h : EndsWithin [] (code ++ codeBefore s (start + 1) k)) (hk : k ≤ k') :
    EndsWithin [] (code ++ codeBefore s (start + 1) k') := by
  obtain ⟨more, hmore⟩ := codeBefore_eq_append s (start + 1) hk
  rw [hmore, ← List.append_assoc]
  exact h.append more

/-- Two scans from the same line reach the same line exactly when no line ends between them: at the
end of every line either both bodies have ended or none. -/
theorem ReachesLine.iff_of_same_start {s : SourceFile} {start last : Nat} {code code' : List Char}
    (h : ReachesLine s start code last) :
    ReachesLine s start code' last ↔ ∀ k, start < k → k ≤ s.lineCount →
      (EndsWithin [] (code ++ codeBefore s (start + 1) k) ↔
        EndsWithin [] (code' ++ codeBefore s (start + 1) k)) := by
  -- a body has ended by a line exactly if the line reached comes before it
  have decided {code : List Char} (h : ReachesLine s start code last) {k : Nat} (hstart : start < k)
      (hk : k ≤ s.lineCount) : EndsWithin [] (code ++ codeBefore s (start + 1) k) ↔ last < k := by
    constructor
    · intro hends
      refine Nat.lt_of_not_le fun hle => ?_
      exact h.notBefore (Nat.lt_of_lt_of_le hstart hle) (hends.later hle)
    · intro hlt
      exact (h.ends (Nat.lt_of_lt_of_le hlt hk)).later hlt
  constructor
  · intro h' k hstart hk
    rw [decided h hstart hk, decided h' hstart hk]
  · intro hsame
    refine ⟨h.start_le, h.le_lineCount, ?_, ?_⟩
    · intro hlt
      rw [← hsame last hlt h.le_lineCount]
      exact h.notBefore hlt
    · intro hlt
      rw [← hsame (last + 1) (Nat.lt_succ_of_le h.start_le) hlt]
      exact h.ends hlt

/-! ## The line that is reported -/

/-- The code from a line on begins with the code of that line. -/
theorem codeBefore_of_line {s : SourceFile} {start : Nat} {line : List Char}
    (hline : s.line? start = some line) {k : Nat} (hk : start < k) :
    codeBefore s start k = beforeComment line ++ codeBefore s (start + 1) k := by
  unfold SourceFile.line? at hline
  split at hline
  · cases hline
  · next hpos =>
    obtain ⟨hlt, rfl⟩ := List.getElem?_eq_some_iff.mp hline
    unfold codeBefore
    have hcount : k - start = (k - (start + 1)) + 1 := by omega
    have hnext : start - 1 + 1 = start + 1 - 1 := by omega
    rw [List.drop_eq_getElem_cons hlt, hcount, List.take_succ_cons, List.flatMap_cons, hnext]

theorem line?_range {s : SourceFile} {k : Nat} {line : List Char} (h : s.line? k = some line) :
    0 < k ∧ k ≤ s.lineCount := by
  apply SourceFile.isSome_line?_iff.mp
  rw [h]
  rfl

/-- The line of a declaration that is found is one of the text. -/
theorem above?_range {s : SourceFile} {target start : Nat} {name : List Char}
    (h : above? s target = some (start, name)) : 0 < start ∧ start ≤ s.lineCount := by
  obtain ⟨-, hname, -⟩ := above?_eq_some_iff.mp h
  obtain ⟨line, hline, -⟩ := Option.bind_eq_some_iff.mp hname
  exact line?_range hline

theorem le_lastLine {s : SourceFile} {start : Nat} (h : start ≤ s.lineCount) :
    start ≤ lastLine s start := by
  rw [le_lastLine_iff (Nat.le_refl _) h]
  have hnothing : codeBefore s start start = [] := by simp [codeBefore]
  rw [hnothing]
  exact endsWithin_nil []

theorem linesBeforeEnd?_lt {scan : Scan} {lines : List (List Char)} {n : Nat}
    (h : linesBeforeEnd? scan lines = some n) : n < lines.length := by
  induction lines generalizing scan n with
  | nil => cases h
  | cons line lines ih =>
    rw [linesBeforeEnd?] at h
    split at h
    · cases h
      exact Nat.succ_pos _
    · obtain ⟨m, hm, rfl⟩ := Option.map_eq_some_iff.mp h
      exact Nat.succ_lt_succ (ih hm)

/-- A body ends in the text. -/
theorem lastLine_le_lineCount {s : SourceFile} {start : Nat} (h : 0 < start) :
    lastLine s start ≤ s.lineCount := by
  unfold lastLine
  split
  · next n hn =>
    have hlt := linesBeforeEnd?_lt hn
    rw [List.length_drop, ← SourceFile.lineCount_eq] at hlt
    omega
  · exact Nat.le_refl _

/-- The scan of the whole line reaches the last line of the body. -/
theorem reachesLine_lastLine {s : SourceFile} {start : Nat} {line : List Char}
    (hline : s.line? start = some line) :
    ReachesLine s start (beforeComment line) (lastLine s start) := by
  obtain ⟨hpos, hcount⟩ := line?_range hline
  have hstart := le_lastLine hcount
  have hlast : lastLine s start ≤ s.lineCount := lastLine_le_lineCount hpos
  refine ⟨hstart, hlast, ?_, ?_⟩
  · intro hlt
    rw [← codeBefore_of_line hline hlt]
    exact (le_lastLine_iff hstart hlast).mp (Nat.le_refl _)
  · intro hlt
    rw [← codeBefore_of_line hline (Nat.lt_succ_of_le hstart)]
    have hbeyond := le_lastLine_iff (Nat.le_succ_of_le hstart) hlt
    exact Classical.not_not.mp fun hends => Nat.not_succ_le_self _ (hbeyond.mpr hends)

end Declaration

/-! ## The body of a function -/

namespace SourceFile

open Declaration

def block (s : SourceFile) (first last : Nat) : List (List Char) :=
  (s.lines.drop (first - 1)).take (last + 1 - first)

theorem slice?_eq_block {s : SourceFile} {first last : Nat} (hpos : 0 < first) (hle : first ≤ last)
    (hlast : last ≤ s.lineCount) :
    s.slice? first last = some (.ofList (Text.joinWith '\n' (s.block first last))) := by
  unfold slice? lineRange?
  rw [if_neg (by omega), if_neg (by omega)]
  rfl

/-- In a text whose lines can be numbered in four bytes, every declaration at or above a line gives
a function around that line. -/
theorem exists_functionAt? {s : SourceFile} (hsize : s.lineCount < 2 ^ 32) {target : Nat}
    (hpos : 0 < target) (hle : target ≤ s.lineCount) {start : Nat} {name : List Char}
    (habove : above? s target = some (start, name)) :
    ∃ f, s.functionAt? target = some f ∧ f.name.toList = name ∧ f.firstLine.toNat = start ∧
      f.lastLine.toNat = lastLine s start ∧ f.askedLine.toNat = target ∧
      f.code.toList = Text.joinWith '\n' (s.block start (lastLine s start)) := by
  obtain ⟨hstart, hcount⟩ := above?_range habove
  have hfirst := le_lastLine hcount
  have hlast : lastLine s start ≤ s.lineCount := lastLine_le_lineCount hstart
  have hfits {n : Nat} (hn : n ≤ s.lineCount) : n.toUInt32.toNat = n :=
    UInt32.toNat_ofNat_of_lt' (Nat.lt_of_le_of_lt hn hsize)
  refine ⟨⟨.ofList name, start.toUInt32, (lastLine s start).toUInt32, target.toUInt32,
    .ofList (Text.joinWith '\n' (s.block start (lastLine s start)))⟩, ?_, String.toList_ofList,
    hfits hcount, hfits hlast, hfits hle, String.toList_ofList⟩
  rw [functionAt?_eq_some_iff]
  dsimp only
  rw [hfits hcount, hfits hlast, hfits hle, String.toList_ofList]
  exact ⟨hpos, hle, habove, rfl, rfl, slice?_eq_block hstart hfirst hlast⟩

/-- **The last line of a function.** The declaration is matched behind `front` on the line where the
function begins. The line reported as its last is the one that a scan of that whole line reaches. It
is also the line that the scan from the declaration on reaches exactly when no line ends between
the two ends, and always when `front` has no opening brace and no semicolon in it. -/
theorem body_end_iff {s : SourceFile} {target : Nat} {f : EnclosingFunction}
    (h : s.functionAt? target = some f) :
    ∃ line front rest, s.line? f.firstLine.toNat = some line ∧
      MatchedAt false (beforeComment line) front rest f.name.toList ∧
      ReachesLine s f.firstLine.toNat (front ++ rest) f.lastLine.toNat ∧
      (ReachesLine s f.firstLine.toNat rest f.lastLine.toNat ↔
        ∀ k, f.firstLine.toNat < k → k ≤ s.lineCount →
          (EndsWithin [] (front ++ rest ++ codeBefore s (f.firstLine.toNat + 1) k) ↔
            EndsWithin [] (rest ++ codeBefore s (f.firstLine.toNat + 1) k))) ∧
      ((∀ c ∈ front, c ≠ '{' ∧ c ≠ ';') →
        ReachesLine s f.firstLine.toNat rest f.lastLine.toNat) := by
  obtain ⟨-, -, habove, hlast, -, -⟩ := functionAt?_eq_some_iff.mp h
  obtain ⟨-, hname, -⟩ := above?_eq_some_iff.mp habove
  obtain ⟨line, hline, hname⟩ := Option.bind_eq_some_iff.mp hname
  obtain ⟨front, rest, hmatch⟩ := exists_matchedAt hname
  have hreaches : ReachesLine s f.firstLine.toNat (front ++ rest) f.lastLine.toNat := by
    -- the scan of the whole line does not know where the declaration begins
    rw [← hmatch.split, hlast]
    exact reachesLine_lastLine hline
  refine ⟨line, front, rest, hline, hmatch, hreaches, hreaches.iff_of_same_start, ?_⟩
  intro hidle
  rw [hreaches.iff_of_same_start]
  intro k _ _
  rw [List.append_assoc]
  exact endsWithin_append_of_idle hidle _

/-- A closing brace in front of the declaration leaves the end of the body where it is. -/
theorem body_end_behind_brace :
    (SourceFile.mk "  \x7d function f() \x7b\n    g();\n  \x7d\n\x7d").functionAt? 2 =
        some ⟨"f", 1, 3, 2, "  \x7d function f() \x7b\n    g();\n  \x7d"⟩ ∧
      ∃ line front rest,
        (SourceFile.mk "  \x7d function f() \x7b\n    g();\n  \x7d\n\x7d").line? 1 = some line ∧
        MatchedAt false (beforeComment line) front rest "f".toList ∧
        front = "  \x7d ".toList ∧
        ReachesLine ⟨"  \x7d function f() \x7b\n    g();\n  \x7d\n\x7d"⟩ 1 rest 3 := by
  have hf : (SourceFile.mk "  \x7d function f() \x7b\n    g();\n  \x7d\n\x7d").functionAt? 2 =
      some ⟨"f", 1, 3, 2, "  \x7d function f() \x7b\n    g();\n  \x7d"⟩ := by
    decide +kernel
  obtain ⟨line, front, rest, hline, hmatch, -, -, hidle⟩ := body_end_iff hf
  obtain rfl : "  \x7d function f() \x7b".toList = line := Option.some.inj hline
  have hplaces : ∀ k ≤ 18, nameAt? ("  \x7d function f() \x7b".toList.drop k) ≠ none → k = 4 := by
    decide +kernel
  have hfront : front = "  \x7d ".toList := by
    obtain ⟨k, hk, hfront, hrest⟩ := hmatch.place
    have hdeclares : nameAt? ("  \x7d function f() \x7b".toList.drop k) = some "f".toList :=
      hrest ▸ hmatch.declares
    have h4 := hplaces k hk (by rw [hdeclares]; exact Option.some_ne_none _)
    rw [hfront, h4]
    rfl
  exact ⟨hf, _, front, rest, hline, hmatch, hfront, hidle (by simp [hfront])⟩

/-- The line reported need not be where the body ends: a semicolon in front of the declaration ends
the scan. -/
theorem body_cut_short :
    ¬ ∀ (s : SourceFile) (target : Nat) (f : EnclosingFunction), s.functionAt? target = some f →
        ∃ line front rest, s.line? f.firstLine.toNat = some line ∧
          MatchedAt false (beforeComment line) front rest f.name.toList ∧
          ReachesLine s f.firstLine.toNat rest f.lastLine.toNat := by
  intro h
  have hf : (SourceFile.mk "uint x; function f() \x7b\n  g();\n\x7d").functionAt? 2 =
      some ⟨"f", 1, 1, 2, "uint x; function f() \x7b"⟩ := by
    decide +kernel
  obtain ⟨line, front, rest, hline, hmatch, hreaches⟩ := h _ _ _ hf
  obtain rfl : "uint x; function f() \x7b".toList = line := Option.some.inj hline
  -- the declaration stands behind the semicolon, and no body ends in what follows it there
  have hplaces : ∀ k ≤ 22, nameAt? ("uint x; function f() \x7b".toList.drop k) = none ∨
      Scan.line? {} ("uint x; function f() \x7b".toList.drop k) ≠ none := by
    decide +kernel
  obtain ⟨k, hk, -, hrest⟩ := hmatch.place
  have hends : EndsWithin [] rest := by
    have hnext : codeBefore (SourceFile.mk "uint x; function f() \x7b\n  g();\n\x7d") 2 2 = [] := by
      decide +kernel
    have hall : EndsWithin [] (rest ++ codeBefore _ 2 2) := hreaches.ends (by decide +kernel)
    rwa [hnext, List.append_nil] at hall
  rcases hplaces k hk with hnone | hopen
  · have hdeclares : nameAt? ("uint x; function f() \x7b".toList.drop k) = some "f".toList :=
      hrest ▸ hmatch.declares
    rw [hnone] at hdeclares
    cases hdeclares
  · have hended := Scan.line?_after_eq_none_iff.mpr hends
    rw [hrest] at hended
    exact hopen hended

end SourceFile

end TxForensics
