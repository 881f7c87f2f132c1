import Mathlib.Algebra.GroupWithZero.Nat
import Mathlib.Algebra.Order.BigOperators.Group.List
import Mathlib.Algebra.Order.Group.Nat
import TxForensics.Proofs.Bounds.Lines
import TxForensics.Proofs.Source.Body
import TxForensics.Proofs.Source.Literal

/-!
# The function around a line in 64 bits

The search for the function around a line goes through an index of the lines: upwards to the nearest
declaration, then down to the end of its body. The machine cuts every line at the offset of its
comment, and counts the braces that are open.

The count is the one number of the search that no position bounds. It grows with every brace, and a
brace is an octet of the text, so it is no greater than the number of octets that have been read
(`depth_le_of_line?`) and never overflows.
-/

namespace TxForensics

namespace Machine

open Declaration

/-! ## The code of a line -/

/-- The offset of the comment of a line that `offset` octets come before, from a state of the scan
on. -/
def commentFrom? (offset : Nat) (σ : Quoting) : List Char → Option Nat
  | [] => none
  | c :: cs =>
    if σ = .code ∧ c = '/' ∧ cs.head? = some '/' then some offset
    else commentFrom? (offset + Text.Utf8.width c) (σ.next c) cs

def codePart (line : List Char) : Except Fault (List Char) :=
  match commentFrom? 0 .code line with
  | none => return line
  | some stop =>
    match cutAt? stop line with
    | some (front, _) => return front
    | none => throw .outOfBounds

/-- A comment begins where the code of its line ends. -/
theorem commentFrom?_cases (offset : Nat) (σ : Quoting) (cs : List Char) :
    (commentFrom? offset σ cs = none ∧ beforeCommentFrom σ cs = cs) ∨
      commentFrom? offset σ cs = some (offset + Text.Utf8.size (beforeCommentFrom σ cs)) ∧
        beforeCommentFrom σ cs <+: cs := by
  -- over the line; the offset and the state move on with it
  induction cs generalizing offset σ with
  | nil => exact .inl ⟨rfl, by cases σ <;> rfl⟩
  | cons c cs ih =>
    rw [commentFrom?, beforeCommentFrom_cons]
    split
    · exact .inr ⟨rfl, List.nil_prefix⟩
    · obtain ⟨hnone, hwhole⟩ | ⟨hsome, hprefix⟩ :=
        ih (offset + Text.Utf8.width c) (σ.next c)
      · exact .inl ⟨hnone, by rw [hwhole]⟩
      · refine .inr ⟨?_, List.cons_prefix_cons.mpr ⟨rfl, hprefix⟩⟩
        rw [hsome, Text.Utf8.size, Nat.add_assoc]

/-- The cut in front of a comment never fails, for it lies between two characters. -/
theorem codePart_eq (line : List Char) : codePart line = .ok (beforeComment line) := by
  rw [codePart]
  obtain ⟨hnone, hwhole⟩ | ⟨hsome, back, hback⟩ := commentFrom?_cases 0 .code line
  · rw [hnone, beforeComment, hwhole]
    rfl
  · have hcut := cutAt?_append (beforeCommentFrom .code line) back
    rw [hback] at hcut
    rw [hsome, Nat.zero_add]
    dsimp only
    rw [hcut]
    rfl

theorem length_beforeComment_le (line : List Char) :
    (beforeComment line).length ≤ line.length := by
  obtain ⟨-, hwhole⟩ | ⟨-, hprefix⟩ := commentFrom?_cases 0 .code line
  · exact Nat.le_of_eq (congrArg List.length hwhole)
  · exact hprefix.length_le

/-! ## Upwards: the nearest declaration -/

def declarationIn (ix : LineIndex) : List Nat → Except Fault (Option (Nat × List Char))
  | [] => return none
  | k :: ks => do
    match ← ix.line k with
    | none => declarationIn ix ks
    | some line =>
      match nameFrom? false (← codePart line) with
      | none => declarationIn ix ks
      | some name => return some (k, name)

/-- The search upwards finds the nearest declaration above. -/
theorem declarationIn_eq (s : SourceFile) (target : Nat) :
    declarationIn (index s) (List.range' 1 target).reverse = .ok (above? s target) := by
  -- over the target: its own line comes first, then those above it
  induction target with
  | zero => rfl
  | succ target ih =>
    rw [List.range'_concat, List.reverse_append, Nat.one_mul, Nat.add_comm 1 target, above?_succ]
    show declarationIn (index s) ((target + 1) :: (List.range' 1 target).reverse) = _
    rw [declarationIn, line_eq, ok_bind, ih]
    cases s.line? (target + 1) with
    | none => rfl
    | some line =>
      dsimp only
      rw [codePart_eq, ok_bind, Option.bind_some, name?]
      cases nameFrom? false (beforeComment line) <;> rfl

/-! ## Downwards: the end of the body -/

/-- Scans the code of one line; none if the body ends on it. -/
def scanLine (scan : Scan) : List Char → Except Fault (Option Scan)
  | [] => return some scan
  | '{' :: cs => do scanLine ⟨← add scan.depth 1, true⟩ cs
  | '}' :: cs =>
    if scan.opened && scan.depth - 1 = 0 then return none
    else scanLine { scan with depth := scan.depth - 1 } cs
  | c :: cs => if c = ';' && !scan.opened then return none else scanLine scan cs

def bodyEndIn (ix : LineIndex) (scan : Scan) : List Nat → Except Fault (Option Nat)
  | [] => return none
  | k :: ks => do
    match ← ix.line k with
    | none => return none
    | some line =>
      match ← scanLine scan (← codePart line) with
      | none => return some k
      | some scan => bodyEndIn ix scan ks

/-- The last line of the body of a declaration on the line `start`. -/
def bodyEnd (ix : LineIndex) (start : Nat) : Except Fault Nat := do
  let count := ix.starts.length
  return (← bodyEndIn ix {} (List.range' start (count + 1 - start))).getD count

/-- The scan of one line does not overflow if there is room for all its characters. -/
theorem scanLine_eq {scan : Scan} {code : List Char} (h : scan.depth + code.length < 2 ^ 64) :
    scanLine scan code = .ok (scan.line? code) := by
  induction code generalizing scan with
  | nil => rfl
  | cons c cs ih =>
    rw [List.length_cons] at h
    by_cases hopen : c = '{'
    · rw [hopen, scanLine, Scan.line?, add_of_lt (by omega)]
      -- one brace more is open and one character less is left
      exact ih (by simp only; omega)
    by_cases hclose : c = '}'
    · have hzero : scan.depth - 1 = 0 ↔ scan.depth ≤ 1 := Nat.sub_eq_zero_iff_le
      rw [hclose, scanLine, Scan.line?]
      simp only [hzero]
      split
      · rfl
      · exact ih (by simp only; omega)
    · rw [scanLine.eq_4 _ _ _ hopen hclose, Scan.line?.eq_4 _ _ _ hopen hclose]
      split
      · rfl
      · exact ih (by omega)

/-- Every brace that is open has been read. -/
theorem depth_le_of_line? {scan scan' : Scan} {code : List Char}
    (h : scan.line? code = some scan') : scan'.depth ≤ scan.depth + code.length := by
  fun_induction Scan.line? scan code with
  | case1 scan =>
    obtain rfl := Option.some.inj h
    exact Nat.le_refl _
  | case2 scan cs ih =>
    have hle := ih h
    rw [List.length_cons]
    dsimp only at hle
    omega
  | case3 => cases h
  | case4 scan cs hgo ih =>
    have hle := ih h
    rw [List.length_cons]
    dsimp only at hle
    omega
  | case5 => cases h
  | case6 scan c cs hopen hclose hgo ih =>
    have hle := ih h
    rw [List.length_cons]
    omega

/-- The scan of the lines behind `first` counts the braces that are open without overflow, if the
count stays a number of 64 bits with all that is left to read. -/
theorem bodyEndIn_eq {s : SourceFile} {scan : Scan} {first count : Nat}
    (h : scan.depth + ((s.lines.drop first).map List.length).sum < 2 ^ 64) :
    bodyEndIn (index s) scan (List.range' (first + 1) count) =
      .ok ((linesBeforeEnd? scan ((s.lines.drop first).take count)).map (first + 1 + ·)) := by
  -- over the lines that are left, with room for their characters as the invariant
  induction count generalizing scan first with
  | zero => simp [bodyEndIn, linesBeforeEnd?, pure, Except.pure]
  | succ count ih =>
    rw [List.range'_succ, bodyEndIn, line_eq]
    have hline : s.line? (first + 1) = s.lines[first]? := rfl
    by_cases hlt : first < s.lines.length
    · rw [List.drop_eq_getElem_cons hlt, List.map_cons, List.sum_cons] at h
      rw [hline, List.getElem?_eq_getElem hlt, List.drop_eq_getElem_cons hlt, List.take_succ_cons,
        linesBeforeEnd?]
      have hcode := length_beforeComment_le s.lines[first]
      have hfits : scan.depth + (beforeComment s.lines[first]).length < 2 ^ 64 := by omega
      simp only [ok_bind, codePart_eq, scanLine_eq hfits]
      cases hscan : scan.line? (beforeComment s.lines[first]) with
      | none => rfl
      | some scan' =>
        -- what the count may have grown by is no longer left to read
        have hdepth := depth_le_of_line? hscan
        dsimp only
        rw [ih (by omega), Option.map_map]
        congr 2
        funext n
        show first + 1 + 1 + n = first + 1 + (n + 1)
        omega
    · rw [hline, List.getElem?_eq_none (by omega), List.drop_eq_nil_of_le (by omega)]
      rfl

/-! ## The length of the lines -/

theorem sum_length_le_joinWith (sep : Char) (fields : List (List Char)) :
    (fields.map List.length).sum ≤ (Text.joinWith sep fields).length := by
  induction fields with
  | nil => exact Nat.le_refl _
  | cons field fields ih =>
    cases fields with
    | nil => simp [Text.joinWith]
    | cons next fields =>
      rw [Text.joinWith.eq_3 _ _ _ (List.cons_ne_nil next fields), List.map_cons, List.sum_cons,
        List.length_append, List.length_cons]
      omega

theorem length_dropCarriageReturn_le (line : List Char) :
    (SourceFile.dropCarriageReturn line).length ≤ line.length := by
  unfold SourceFile.dropCarriageReturn
  split
  · rw [List.length_dropLast]
    exact Nat.sub_le _ _
  · exact Nat.le_refl _

/-- The lines of a text are no longer than the text. -/
theorem sum_length_lines_le (s : SourceFile) : (s.lines.map List.length).sum ≤ s.size := by
  have hlines : (s.lines.map List.length).sum ≤ (s.rawLines.map List.length).sum := by
    rw [SourceFile.lines, List.map_map]
    exact List.sum_le_sum fun line _ => length_dropCarriageReturn_le line
  calc (s.lines.map List.length).sum ≤ (s.rawLines.map List.length).sum := hlines
    _ ≤ (Text.joinWith '\n' s.rawLines).length := sum_length_le_joinWith '\n' s.rawLines
    _ = s.text.toList.length := by rw [SourceFile.rawLines, Text.joinWith_splitOn]
    _ ≤ s.size := Text.Utf8.length_le_size _

theorem length_starts (s : SourceFile) : (index s).starts.length = s.lineCount :=
  length_startsFrom 0 s.rawLines

/-- In a text of less than `2 ^ 63` octets the end of a body is found without overflow. -/
theorem bodyEnd_eq {s : SourceFile} (h : s.size < 2 ^ 63) {start : Nat} (hpos : 0 < start) :
    bodyEnd (index s) start = .ok (lastLine s start) := by
  obtain ⟨first, rfl⟩ := Nat.exists_eq_succ_of_ne_zero (Nat.ne_of_gt hpos)
  have hsum : ((s.lines.drop first).map List.length).sum ≤ (s.lines.map List.length).sum :=
    ((List.drop_sublist first s.lines).map List.length).sum_le_sum fun _ _ => Nat.zero_le _
  have hbound := sum_length_lines_le s
  have hscan : ({} : Scan).depth + ((s.lines.drop first).map List.length).sum < 2 ^ 64 := by
    show 0 + _ < 2 ^ 64
    omega
  -- the range of lines goes to the end of the text
  have hall : (s.lines.drop first).take (s.lineCount + 1 - (first + 1)) = s.lines.drop first := by
    apply List.take_of_length_le
    rw [List.length_drop, SourceFile.lineCount_eq]
    omega
  rw [bodyEnd, length_starts, bodyEndIn_eq hscan, hall, lastLine, Nat.succ_sub_one]
  cases linesBeforeEnd? {} (s.lines.drop first) <;> rfl

/-! ## The function -/

def functionAt (ix : LineIndex) (target : Nat) : Except Fault (Option EnclosingFunction) := do
  if target = 0 ∨ ix.starts.length < target then return none
  match ← declarationIn ix (List.range' 1 target).reverse with
  | none => return none
  | some (start, name) =>
    let last ← bodyEnd ix start
    match ← ix.lines start last with
    | none => return none
    | some code =>
      return do
        return { name := .ofList name
                 firstLine := ← fitUInt32? start
                 lastLine := ← fitUInt32? last
                 askedLine := ← fitUInt32? target
                 code }

theorem functionAt_eq {s : SourceFile} (h : s.size < 2 ^ 63) (target : Nat) :
    functionAt (index s) target = .ok (s.functionAt? target) := by
  rw [functionAt, SourceFile.functionAt?, length_starts]
  split
  · rfl
  rw [declarationIn_eq]
  cases habove : above? s target with
  | none => rfl
  | some found =>
    obtain ⟨start, name⟩ := found
    have hpos : 0 < start := (above?_range habove).1
    simp only [ok_bind, bodyEnd_eq h hpos, lines_eq, Option.bind_eq_bind, Option.bind_some]
    cases s.slice? start (lastLine s start) <;> rfl

end Machine

end TxForensics
