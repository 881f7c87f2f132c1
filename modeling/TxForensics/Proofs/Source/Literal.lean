import TxForensics.Proofs.Source.Body

/-!
# Declarations in string literals

A line is searched for a declaration as a whole, string literals and all. So the text of a literal
is taken for a declaration whenever it reads as one, such as the message in

    function f() {
      revert("function g");        the function around this line is g
    }

Since no declaration reaches across a quote, a line with a literal declares what stands in front of
the literal, or else what its content declares as a text of its own, or else what stands behind it
(`name?_filled`). That decides when another content changes the function that is found around a
line (`found_changes_iff`).
-/

namespace TxForensics

namespace Declaration

/-! ## The scan for comments -/

/-- The state of the scan behind one more character. -/
def Quoting.next : Quoting → Char → Quoting
  | .code, c => if c = '"' ∨ c = '\x27' then .literal c else .code
  | .literal q, c => if c = '\\' then .escaped q else if c = q then .code else .literal q
  | .escaped q, _ => .literal q

/-- The state of the scan behind a piece of code. -/
def Quoting.after (σ : Quoting) (code : List Char) : Quoting := code.foldl Quoting.next σ

/-- One character more: a comment begins with it, or the scan goes on behind it. -/
theorem beforeCommentFrom_cons (σ : Quoting) (c : Char) (cs : List Char) :
    beforeCommentFrom σ (c :: cs) =
      if σ = .code ∧ c = '/' ∧ cs.head? = some '/' then []
      else c :: beforeCommentFrom (σ.next c) cs := by
  cases σ with
  | code =>
    by_cases hcomment : c = '/' ∧ cs.head? = some '/'
    · obtain ⟨rfl, hhead⟩ := hcomment
      obtain ⟨rest, rfl⟩ := List.head?_eq_some_iff.mp hhead
      rw [if_pos ⟨rfl, rfl, rfl⟩, beforeCommentFrom]
    · rw [if_neg fun h => hcomment h.2, beforeCommentFrom]
      · rfl
      · rintro rest rfl hcs
        exact hcomment ⟨rfl, by rw [hcs, List.head?_cons]⟩
  | literal q => rw [if_neg fun h => Quoting.noConfusion h.1, beforeCommentFrom, Quoting.next]
  | escaped q => rw [if_neg fun h => Quoting.noConfusion h.1, beforeCommentFrom, Quoting.next]

/-- Where no comment begins up to a quote, the scan goes on behind the quote. -/
theorem beforeCommentFrom_append_quote {q : Char} (hq : IsQuote q) {σ : Quoting}
    {front : List Char} (h : beforeCommentFrom σ (front ++ [q]) = front ++ [q])
    (back : List Char) :
    beforeCommentFrom σ (front ++ q :: back) =
      front ++ q :: beforeCommentFrom (σ.after (front ++ [q])) back := by
  -- over what stands in front of the quote, none of which begins a comment
  induction front generalizing σ with
  | nil =>
    have hslash : q ≠ '/' := by rcases hq with rfl | rfl <;> decide
    rw [List.nil_append, beforeCommentFrom_cons, if_neg fun h => hslash h.2.1]
    rfl
  | cons c front ih =>
    rw [List.cons_append, beforeCommentFrom_cons] at h
    rw [List.cons_append, beforeCommentFrom_cons]
    have hhead : (front ++ q :: back).head? = (front ++ [q]).head? := by cases front <;> rfl
    rw [hhead]
    split at h
    · cases h
    · next hcomment =>
      rw [if_neg hcomment, ih (List.cons.inj h).2]
      rfl

/-- A literal of which the scan is inside is closed by a quote. -/
def Quoting.Valid : Quoting → Prop
  | .code => True
  | .literal q => IsQuote q
  | .escaped q => IsQuote q

/-- Only a quote opens a literal. -/
theorem Quoting.Valid.next {σ : Quoting} (h : σ.Valid) (c : Char) : (σ.next c).Valid := by
  cases σ with
  | code =>
    rw [Quoting.next]
    split
    · next hquote => exact hquote
    · trivial
  | literal q =>
    rw [Quoting.next]
    split
    · exact h
    · split
      · trivial
      · exact h
  | escaped q => exact h

theorem Quoting.Valid.after {σ : Quoting} (h : σ.Valid) (code : List Char) :
    (σ.after code).Valid := by
  induction code generalizing σ with
  | nil => exact h
  | cons c code ih => exact ih (h.next c)

/-- Behind a quote the scan is in code or inside a literal, but not behind a backslash. -/
theorem Quoting.Valid.next_quote {σ : Quoting} (h : σ.Valid) {q : Char} (hq : IsQuote q) :
    σ.next q = .code ∨ ∃ q', IsQuote q' ∧ σ.next q = .literal q' := by
  cases σ with
  | code => exact .inr ⟨q, hq, if_pos hq⟩
  | literal q' =>
    have hescape : q ≠ '\\' := by rcases hq with rfl | rfl <;> decide
    rw [Quoting.next, if_neg hescape]
    split
    · exact .inl rfl
    · exact .inr ⟨q', h, rfl⟩
  | escaped q' => exact .inr ⟨q', h, rfl⟩

/-- There it stays over characters that are neither quotes nor backslashes. -/
theorem Quoting.after_plain {σ : Quoting} (hσ : σ = .code ∨ ∃ q, IsQuote q ∧ σ = .literal q)
    {content : List Char} (h : ∀ c ∈ content, ¬ IsQuote c ∧ c ≠ '\\') : σ.after content = σ := by
  induction content with
  | nil => rfl
  | cons c content ih =>
    obtain ⟨⟨hquote, hescape⟩, hcontent⟩ := List.forall_mem_cons.mp h
    have hnext : σ.next c = σ := by
      rcases hσ with rfl | ⟨q, hq, rfl⟩
      · exact if_neg hquote
      · have hne : c ≠ q := by
          rintro rfl
          exact hquote hq
        rw [Quoting.next, if_neg hescape, if_neg hne]
    show (σ.next c).after content = σ
    rw [hnext]
    exact ih hcontent

/-! ## Lines with a literal -/

/-- A line with a string literal in it, whose content is left open. Any two quotes of one kind may
be its ends: a gap between two literals, or a part of a literal in quotes of the other kind, is such
a line too. -/
structure LiteralLine where
  front : List Char
  quote : Char
  back : List Char
  isQuote : IsQuote quote

namespace LiteralLine

def filled (l : LiteralLine) (content : List Char) : List Char :=
  l.front ++ l.quote :: (content ++ l.quote :: l.back)

/-- The literal can have the content: there are neither quotes nor backslashes in it, and no comment
begins before the second quote. The scan need not be in code in front of the first quote, so the
content of a gap between two literals is admitted as well. -/
structure Admits (l : LiteralLine) (content : List Char) : Prop where
  plain : ∀ c ∈ content, ¬ IsQuote c ∧ c ≠ '\\'
  noComment : beforeComment (l.front ++ l.quote :: (content ++ [l.quote])) =
    l.front ++ l.quote :: (content ++ [l.quote])

def behind (l : LiteralLine) : List Char :=
  beforeCommentFrom ((Quoting.code.after (l.front ++ [l.quote])).next l.quote) l.back

/-- The code of the line is the same for every content up to the content itself. -/
theorem beforeComment_filled {l : LiteralLine} {content : List Char} (h : l.Admits content) :
    beforeComment (l.filled content) = l.front ++ l.quote :: (content ++ l.quote :: l.behind) := by
  have hkept : beforeCommentFrom .code (l.front ++ l.quote :: content ++ [l.quote]) =
      l.front ++ l.quote :: content ++ [l.quote] := by
    rw [List.append_assoc, List.cons_append]
    exact h.noComment
  -- the scan is in one state at both quotes, whatever stands between them
  have hstate : Quoting.code.after (l.front ++ l.quote :: content ++ [l.quote]) =
      (Quoting.code.after (l.front ++ [l.quote])).next l.quote := by
    have hcode : Quoting.code.Valid := trivial
    have hvalid := hcode.after l.front
    have hcontent := Quoting.after_plain (hvalid.next_quote l.isQuote) h.plain
    unfold Quoting.after at hcontent ⊢
    simp only [List.foldl_append, List.foldl_cons, List.foldl_nil, hcontent]
  have hline := beforeCommentFrom_append_quote l.isQuote hkept l.back
  rw [hstate, List.append_assoc, List.append_assoc] at hline
  exact hline

/-- What a line with a literal declares: what stands in front of the literal does, or what the
content does as a text of its own, or what stands behind the literal. -/
theorem name?_filled {l : LiteralLine} {content : List Char} (h : l.Admits content) :
    name? (l.filled content) =
      (nameFrom? false l.front).or ((nameFrom? false content).or (nameFrom? false l.behind)) := by
  rw [name?, beforeComment_filled h, nameFrom?_append_quote l.isQuote,
    nameFrom?_append_quote l.isQuote]

end LiteralLine

/-! ## The search upwards -/

/-- What is above a line is decided by what the lines up to it declare. -/
theorem above?_congr {s s' : SourceFile} {target : Nat}
    (h : ∀ k ≤ target, (s.line? k).bind name? = (s'.line? k).bind name?) :
    above? s target = above? s' target := by
  induction target with
  | zero => rfl
  | succ target ih =>
    rw [above?_succ, above?_succ, h (target + 1) (Nat.le_refl _),
      ih fun k hk => h k (Nat.le_succ_of_le hk)]

/-- What is found on the line `line` or above it, if nothing below the line is found. -/
theorem or_map_ne_iff {line : Nat} {name name' : Option (List Char)}
    {found : Option (Nat × List Char)} (h : ∀ start n, found = some (start, n) → start < line) :
    (name.map (line, ·)).or found ≠ (name'.map (line, ·)).or found ↔ name ≠ name' := by
  have hnot {n : List Char} : found ≠ some (line, n) := by
    intro hfound
    exact Nat.lt_irrefl _ (h line n hfound)
  cases name with
  | none =>
    cases name' with
    | none => simp
    | some n' => simpa using hnot
  | some n =>
    cases name' with
    | none => simpa using hnot.symm
    | some n' => simp

/-- Where two texts differ in one line only, the search finds different declarations exactly when it
gets as far as that line and the line declares different things. -/
theorem above?_ne_iff {s s' : SourceFile} {line target : Nat}
    (hsame : ∀ k, k ≠ line → s.line? k = s'.line? k) :
    above? s target ≠ above? s' target ↔
      line ≤ target ∧ (∀ k, line < k → k ≤ target → (s.line? k).bind name? = none) ∧
        (s.line? line).bind name? ≠ (s'.line? line).bind name? := by
  have hbelow {k : Nat} (hlt : k < line) : above? s k = above? s' k := by
    apply above?_congr
    intro j hj
    rw [hsame j (by omega)]
  by_cases hlt : target < line
  · simp only [hbelow hlt, ne_eq, not_true_eq_false, false_iff, not_and]
    omega
  · obtain ⟨n, rfl⟩ := Nat.exists_eq_add_of_le (Nat.le_of_not_lt hlt)
    clear hlt
    -- over the lines between: a declaration there hides the line from both searches
    induction n with
    | zero =>
      cases line with
      | zero => simp [above?, SourceFile.line?]
      | succ above =>
        rw [Nat.add_zero, above?_succ, above?_succ, ← hbelow (Nat.lt_succ_self above),
          or_map_ne_iff]
        · constructor
          · intro hne
            exact ⟨Nat.le_refl _, fun k hk hle => absurd hk (Nat.not_lt.mpr hle), hne⟩
          · rintro ⟨-, -, hne⟩
            exact hne
        · intro start n hfound
          exact Nat.lt_succ_of_le (above?_eq_some_iff.mp hfound).1
    | succ n ih =>
      rw [← Nat.add_assoc, above?_succ, above?_succ, ← hsame (line + n + 1) (by omega)]
      cases hname : (s.line? (line + n + 1)).bind name? with
      | none =>
        rw [Option.map_none, Option.none_or, Option.none_or]
        refine ih.trans ?_
        constructor
        · rintro ⟨hle, hnone, hne⟩
          refine ⟨Nat.le_succ_of_le hle, ?_, hne⟩
          intro k hk hkt
          rcases Nat.lt_or_eq_of_le hkt with hlt | rfl
          · exact hnone k hk (Nat.le_of_lt_succ hlt)
          · exact hname
        · rintro ⟨-, hnone, hne⟩
          exact ⟨Nat.le_add_right _ _, fun k hk hkt => hnone k hk (Nat.le_succ_of_le hkt), hne⟩
      | some found =>
        constructor
        · intro hne
          exact absurd rfl hne
        · rintro ⟨-, hnone, -⟩
          rw [hnone (line + n + 1) (by omega) (Nat.le_refl _)] at hname
          cases hname

end Declaration

/-! ## The function that is found -/

namespace SourceFile

open Declaration

def found? (s : SourceFile) (target : Nat) : Option (String × UInt32) :=
  (s.functionAt? target).map fun f => (f.name, f.firstLine)

/-- In a text whose lines can be numbered in four bytes, a function is found exactly when the search
upwards finds a declaration. -/
theorem found?_eq {s : SourceFile} (hsize : s.lineCount < 2 ^ 32) (target : Nat) :
    s.found? target =
      if target = 0 ∨ s.lineCount < target then none
      else (above? s target).map fun (start, name) => (.ofList name, start.toUInt32) := by
  unfold found?
  split
  · next hrange =>
    rw [functionAt?, if_pos hrange, Option.map_none]
  · next hrange =>
    cases habove : above? s target with
    | none =>
      rw [functionAt?, if_neg hrange, habove]
      rfl
    | some found =>
      obtain ⟨start, name⟩ := found
      obtain ⟨f, hf, rfl, rfl, -⟩ := exists_functionAt? hsize (by omega) (by omega) habove
      rw [hf, Option.map_some, Option.map_some]
      dsimp only
      rw [String.ofList_toList, Nat.toUInt32, UInt32.ofNat_toNat]

/-- The function that is found tells which declaration the search upwards has found. -/
theorem found?_ne_iff {s s' : SourceFile} (hcount : s.lineCount = s'.lineCount)
    (hsize : s.lineCount < 2 ^ 32) (target : Nat) :
    s.found? target ≠ s'.found? target ↔
      target ≤ s.lineCount ∧ above? s target ≠ above? s' target := by
  rw [found?_eq hsize, found?_eq (hcount ▸ hsize), ← hcount]
  by_cases hrange : target = 0 ∨ s.lineCount < target
  · rw [if_pos hrange, if_pos hrange]
    constructor
    · intro hne
      exact absurd rfl hne
    · rintro ⟨hle, hne⟩
      rcases hrange with rfl | hlt
      · exact absurd rfl hne
      · omega
  · rw [if_neg hrange, if_neg hrange]
    -- the numbers of lines are told apart by their four bytes
    have hstart {s : SourceFile} {start : Nat} {name : List Char}
        (h : above? s target = some (start, name)) : start.toUInt32.toNat = start := by
      have hle := (above?_eq_some_iff.mp h).1
      have hlt : start < 2 ^ 32 := by omega
      exact UInt32.toNat_ofNat_of_lt' hlt
    have hinj : (above? s target).map (fun (start, name) => (String.ofList name, start.toUInt32)) =
        (above? s' target).map (fun (start, name) => (String.ofList name, start.toUInt32)) →
          above? s target = above? s' target := by
      intro hmap
      cases h : above? s target with
      | none =>
        rw [h, Option.map_none, eq_comm, Option.map_eq_none_iff] at hmap
        exact hmap.symm
      | some found =>
        rw [h, Option.map_some, eq_comm, Option.map_eq_some_iff] at hmap
        obtain ⟨found', h', heq⟩ := hmap
        obtain ⟨hname, hline⟩ := Prod.mk.inj heq
        have hline := congrArg UInt32.toNat hline
        rw [hstart h, hstart h'] at hline
        rw [h', Prod.ext hline (String.ofList_injective hname)]
    constructor
    · intro hne
      exact ⟨by omega, fun hsame => hne (by rw [hsame])⟩
    · rintro ⟨-, hne⟩ hmap
      exact hne (hinj hmap)

/-- **When the content of a literal changes the function that is found.** The two texts differ in
what stands between two quotes on one line only, with no comment in front of it in either of them:
in the content of one string literal, or else in a gap between two. They have different functions
around a line, or functions that begin on different lines, exactly when nothing is declared between
the literal and that line, nor in front of the literal on its own line, and what is declared first
from the literal on depends on the content: read as a text of its own, the one content declares
something that the other one does not. -/
theorem found_changes_iff {s s' : SourceFile} {before after : List (List Char)} {l : LiteralLine}
    {content content' : List Char} (hl : l.Admits content) (hl' : l.Admits content')
    (hs : s.lines = before ++ l.filled content :: after)
    (hs' : s'.lines = before ++ l.filled content' :: after)
    (hsize : s.lineCount < 2 ^ 32) (target : Nat) :
    s.found? target ≠ s'.found? target ↔
      before.length < target ∧ target ≤ s.lineCount ∧
        (∀ k, before.length + 1 < k → k ≤ target → (s.line? k).bind name? = none) ∧
        nameFrom? false l.front = none ∧
        (nameFrom? false content).or (nameFrom? false l.behind) ≠
          (nameFrom? false content').or (nameFrom? false l.behind) := by
  have hcount : s.lineCount = s'.lineCount := by
    rw [lineCount_eq, lineCount_eq, hs, hs', List.length_append, List.length_append,
      List.length_cons, List.length_cons]
  have hline : s.line? (before.length + 1) = some (l.filled content) := by
    simp [line?, hs]
  have hline' : s'.line? (before.length + 1) = some (l.filled content') := by
    simp [line?, hs']
  have hsame : ∀ k, k ≠ before.length + 1 → s.line? k = s'.line? k := by
    intro k hk
    unfold line?
    split
    · rfl
    · rw [hs, hs', List.getElem?_append, List.getElem?_append]
      split
      · rfl
      · obtain ⟨j, hj⟩ : ∃ j, k - 1 - before.length = j + 1 := ⟨k - before.length - 2, by omega⟩
        rw [hj, List.getElem?_cons_succ, List.getElem?_cons_succ]
  rw [found?_ne_iff hcount hsize, above?_ne_iff hsame, hline, hline', Option.bind_some,
    Option.bind_some, LiteralLine.name?_filled hl, LiteralLine.name?_filled hl']
  constructor
  · rintro ⟨hcount, hle, hnone, hne⟩
    cases hfront : nameFrom? false l.front with
    | none =>
      rw [hfront, Option.none_or, Option.none_or] at hne
      exact ⟨hle, hcount, hnone, rfl, hne⟩
    | some name =>
      rw [hfront, Option.some_or, Option.some_or] at hne
      exact absurd rfl hne
  · rintro ⟨hle, hcount, hnone, hfront, hne⟩
    rw [hfront, Option.none_or, Option.none_or]
    exact ⟨hcount, hle, hnone, hne⟩

/-- The message of a failed check that reads as a declaration hides the function around it. -/
theorem found_changes_message :
    LiteralLine.Admits ⟨"  revert(".toList, '"', ");".toList, .inl rfl⟩ "paused".toList ∧
      LiteralLine.Admits ⟨"  revert(".toList, '"', ");".toList, .inl rfl⟩ "function g".toList ∧
      (SourceFile.mk "function f() \x7b\n  revert(\"paused\");\n\x7d").found? 2 ≠
        (SourceFile.mk "function f() \x7b\n  revert(\"function g\");\n\x7d").found? 2 := by
  have hpaused :
      LiteralLine.Admits ⟨"  revert(".toList, '"', ");".toList, .inl rfl⟩ "paused".toList :=
    ⟨by simp [IsQuote], by decide⟩
  have hfunction :
      LiteralLine.Admits ⟨"  revert(".toList, '"', ");".toList, .inl rfl⟩ "function g".toList :=
    ⟨by simp [IsQuote], by decide⟩
  have hs : (SourceFile.mk "function f() \x7b\n  revert(\"paused\");\n\x7d").lines =
      ["function f() \x7b".toList] ++
        LiteralLine.filled ⟨"  revert(".toList, '"', ");".toList, .inl rfl⟩ "paused".toList ::
          ["\x7d".toList] := by
    decide +kernel
  have hs' : (SourceFile.mk "function f() \x7b\n  revert(\"function g\");\n\x7d").lines =
      ["function f() \x7b".toList] ++
        LiteralLine.filled ⟨"  revert(".toList, '"', ");".toList, .inl rfl⟩ "function g".toList ::
          ["\x7d".toList] := by
    decide +kernel
  refine ⟨hpaused, hfunction, ?_⟩
  rw [found_changes_iff hpaused hfunction hs hs' (by decide +kernel)]
  refine ⟨by decide, by decide +kernel, ?_, by decide +kernel, by decide +kernel⟩
  intro k hk hk2
  exact absurd hk (Nat.not_lt.mpr hk2)

/-- Text inside a literal can be taken for a declaration. -/
theorem literal_read_as_declaration :
    ¬ ∀ (s s' : SourceFile) (before after : List (List Char)) (l : LiteralLine)
        (content content' : List Char), l.Admits content → l.Admits content' →
        s.lines = before ++ l.filled content :: after →
        s'.lines = before ++ l.filled content' :: after →
        ∀ target, s.found? target = s'.found? target := by
  intro h
  have hsame := h ⟨"function f() \x7b\n  revert(\"paused\");\n\x7d"⟩
    ⟨"function f() \x7b\n  revert(\"function g\");\n\x7d"⟩ ["function f() \x7b".toList]
    ["\x7d".toList] ⟨"  revert(".toList, '"', ");".toList, .inl rfl⟩ "paused".toList
    "function g".toList ⟨by simp [IsQuote], by decide⟩ ⟨by simp [IsQuote], by decide⟩
    (by decide +kernel) (by decide +kernel) 2
  exact absurd hsame (by decide +kernel)

end SourceFile

end TxForensics
