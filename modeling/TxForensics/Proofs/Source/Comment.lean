import Mathlib.Data.List.Forall2
import TxForensics.Proofs.Source.Lines
import TxForensics.Proofs.Source.Literal

/-!
# Comments are not read

A comment begins at the first `//` of a line that stands outside of string literals. `CodeOf` says
so by the places where a `//` stands, and `beforeComment` cuts there (`codeOf_iff`):

    string u = "https://x"; // {        code: string u = "https://x";

Both scans for a function read nothing but the code of the lines. So two texts whose lines have the
same code have the same functions around the same lines, up to the text that is quoted
(`functionAt?_of_sameCode`), whatever their comments say.
-/

namespace TxForensics

namespace Declaration

/-! ## Where a comment begins -/

/-- Behind `front` a `//` stands outside of literals. -/
def Opens (σ : Quoting) (line front : List Char) : Prop :=
  σ.after front = .code ∧ ∃ back, line = front ++ '/' :: '/' :: back

/-- A `//` behind `code` is the first one outside of literals. It may begin with the last character
of `code`, where the two slashes are the first two of three. -/
structure BeginsComment (σ : Quoting) (code : List Char) : Prop where
  outside : σ.after code = .code
  first : ∀ front, ¬ Opens σ (code ++ ['/']) front

/-- `code` is the code of a line: all of the line, or what stands in front of its comment. -/
inductive CodeOf (σ : Quoting) : List Char → List Char → Prop
  | whole {line : List Char} (h : ∀ front, ¬ Opens σ line front) : CodeOf σ line line
  | cut {code : List Char} (h : BeginsComment σ code) (comment : List Char) :
      CodeOf σ (code ++ '/' :: '/' :: comment) code

theorem opens_nil_iff {σ : Quoting} {c : Char} {cs : List Char} :
    Opens σ (c :: cs) [] ↔ σ = .code ∧ c = '/' ∧ cs.head? = some '/' := by
  constructor
  · rintro ⟨hcode, back, hline⟩
    obtain ⟨rfl, rfl⟩ := List.cons.inj hline
    exact ⟨hcode, rfl, rfl⟩
  · rintro ⟨hcode, rfl, hhead⟩
    obtain ⟨back, rfl⟩ := List.head?_eq_some_iff.mp hhead
    exact ⟨hcode, back, rfl⟩

theorem opens_cons_iff {σ : Quoting} {c d : Char} {cs front : List Char} :
    Opens σ (c :: cs) (d :: front) ↔ c = d ∧ Opens (σ.next c) cs front := by
  constructor
  · rintro ⟨hcode, back, hline⟩
    obtain ⟨rfl, rfl⟩ := List.cons.inj hline
    exact ⟨rfl, hcode, back, rfl⟩
  · rintro ⟨rfl, hcode, back, rfl⟩
    exact ⟨hcode, back, rfl⟩

/-- Whether a comment begins with the first character does not depend on what a later one says. -/
theorem opens_nil_comment_iff {σ : Quoting} {c : Char} {code comment : List Char} :
    Opens σ (c :: (code ++ '/' :: '/' :: comment)) [] ↔ Opens σ (c :: (code ++ ['/'])) [] := by
  rw [opens_nil_iff, opens_nil_iff]
  cases code <;> rfl

/-- Where no comment begins with the first character, the rest of the line decides. -/
theorem beforeCommentFrom_cons_of_not_opens {σ : Quoting} {c : Char} {cs : List Char}
    (h : ¬ Opens σ (c :: cs) []) :
    beforeCommentFrom σ (c :: cs) = c :: beforeCommentFrom (σ.next c) cs := by
  rw [opens_nil_iff] at h
  rw [beforeCommentFrom_cons, if_neg h]

/-- A line without a comment is all code. -/
theorem beforeCommentFrom_whole {σ : Quoting} {line : List Char}
    (h : ∀ front, ¬ Opens σ line front) : beforeCommentFrom σ line = line := by
  induction line generalizing σ with
  | nil => cases σ <;> rfl
  | cons c cs ih =>
    rw [beforeCommentFrom_cons_of_not_opens (h []), ih]
    intro front hfront
    exact h (c :: front) (opens_cons_iff.mpr ⟨rfl, hfront⟩)

/-- A comment is cut off, whatever it says. -/
theorem beforeCommentFrom_cut {σ : Quoting} {code : List Char} (h : BeginsComment σ code)
    (comment : List Char) : beforeCommentFrom σ (code ++ '/' :: '/' :: comment) = code := by
  induction code generalizing σ with
  | nil =>
    have hcode : σ = .code := h.outside
    rw [hcode]
    rfl
  | cons c code ih =>
    -- behind the first character it is the same with a shorter piece of code
    have htail : BeginsComment (σ.next c) code := by
      refine ⟨h.outside, ?_⟩
      intro front hfront
      exact h.first (c :: front) (opens_cons_iff.mpr ⟨rfl, hfront⟩)
    rw [List.cons_append, beforeCommentFrom_cons_of_not_opens, ih htail]
    rw [opens_nil_comment_iff]
    exact h.first []

theorem codeOf_beforeCommentFrom (σ : Quoting) (line : List Char) :
    CodeOf σ line (beforeCommentFrom σ line) := by
  induction line generalizing σ with
  | nil =>
    have hnil : beforeCommentFrom σ [] = [] := by cases σ <;> rfl
    rw [hnil]
    apply CodeOf.whole
    rintro front ⟨-, back, hline⟩
    simp at hline
  | cons c cs ih =>
    -- a comment begins here, or the first character belongs to the code
    by_cases hopens : Opens σ (c :: cs) []
    · obtain ⟨hcode, comment, hline⟩ := hopens
      have hbegins : BeginsComment σ [] := by
        refine ⟨hcode, ?_⟩
        rintro front ⟨-, back, hslash⟩
        have hlength := congrArg List.length hslash
        simp only [List.nil_append, List.length_append, List.length_cons, List.length_nil]
          at hlength
        omega
      have hcut : beforeCommentFrom σ (c :: cs) = [] := by
        rw [hline]
        exact beforeCommentFrom_cut hbegins comment
      rw [hcut, hline]
      exact .cut hbegins comment
    · rw [beforeCommentFrom_cons_of_not_opens hopens]
      have htail := ih (σ.next c)
      -- the places behind the first character are those of the rest of the line
      generalize beforeCommentFrom (σ.next c) cs = code at htail ⊢
      cases htail with
      | whole h =>
        apply CodeOf.whole
        rintro (_ | ⟨d, front⟩) hfront
        · exact hopens hfront
        · exact h front (opens_cons_iff.mp hfront).2
      | cut h comment =>
        have hbegins : BeginsComment σ (c :: code) := by
          refine ⟨h.outside, ?_⟩
          rintro (_ | ⟨d, front⟩) hfront
          · exact hopens (opens_nil_comment_iff.mpr hfront)
          · exact h.first front (opens_cons_iff.mp hfront).2
        exact .cut hbegins comment

/-- The code of a line is what the scan for comments keeps. -/
theorem codeOf_iff {σ : Quoting} {line code : List Char} :
    CodeOf σ line code ↔ beforeCommentFrom σ line = code := by
  constructor
  · intro h
    cases h with
    | whole h => exact beforeCommentFrom_whole h
    | cut h comment => exact beforeCommentFrom_cut h comment
  · rintro rfl
    exact codeOf_beforeCommentFrom σ line

theorem beginsComment_iff {σ : Quoting} {code : List Char} :
    BeginsComment σ code ↔ beforeCommentFrom σ (code ++ ['/', '/']) = code := by
  constructor
  · intro h
    exact beforeCommentFrom_cut h []
  · intro h
    have hcode := codeOf_iff.mpr h
    generalize hline : code ++ ['/', '/'] = line at hcode
    cases hcode with
    | whole => simp at hline
    | cut hbegins => exact hbegins

instance (σ : Quoting) (code : List Char) : Decidable (BeginsComment σ code) :=
  decidable_of_iff _ beginsComment_iff.symm

/-! ## Lines that differ in their comments -/

/-- The same line, or one with another text in its comment. -/
inductive Recommented : List Char → List Char → Prop
  | same (line : List Char) : Recommented line line
  | comment {code : List Char} (h : BeginsComment .code code) (comment comment' : List Char) :
      Recommented (code ++ '/' :: '/' :: comment) (code ++ '/' :: '/' :: comment')

theorem dropCarriageReturn_append {back : List Char} (h : back ≠ []) (front : List Char) :
    SourceFile.dropCarriageReturn (front ++ back) =
      front ++ SourceFile.dropCarriageReturn back := by
  induction front with
  | nil => rfl
  | cons c front ih =>
    rw [List.cons_append, SourceFile.dropCarriageReturn_cons, if_neg, ih, List.cons_append]
    rintro ⟨-, hnil⟩
    exact h (List.append_eq_nil_iff.mp hnil).2

/-- The terminator of a line with a comment belongs to its comment. -/
theorem dropCarriageReturn_comment (code comment : List Char) :
    SourceFile.dropCarriageReturn (code ++ '/' :: '/' :: comment) =
      code ++ '/' :: '/' :: SourceFile.dropCarriageReturn comment := by
  rw [dropCarriageReturn_append (List.cons_ne_nil _ _), SourceFile.dropCarriageReturn_cons,
    if_neg (by simp), SourceFile.dropCarriageReturn_cons, if_neg (by simp)]

/-- Lines that differ in their comments have the same code. -/
theorem Recommented.beforeComment_eq {line line' : List Char} (h : Recommented line line') :
    beforeComment (SourceFile.dropCarriageReturn line) =
      beforeComment (SourceFile.dropCarriageReturn line') := by
  cases h with
  | same => rfl
  | comment h comment comment' =>
    rw [dropCarriageReturn_comment, dropCarriageReturn_comment]
    unfold beforeComment
    rw [beforeCommentFrom_cut h, beforeCommentFrom_cut h]

def SameCode (s s' : SourceFile) : Prop := s.lines.map beforeComment = s'.lines.map beforeComment

theorem sameCode_of_recommented {s s' : SourceFile}
    (h : List.Forall₂ Recommented s.rawLines s'.rawLines) : SameCode s s' := by
  unfold SameCode SourceFile.lines
  generalize s.rawLines = lines, s'.rawLines = lines' at h
  induction h with
  | nil => rfl
  | cons hline _ ih => rw [List.map_cons, List.map_cons, List.map_cons, List.map_cons, ih,
      hline.beforeComment_eq]

/-! ## Both scans read the code -/

theorem SameCode.lineCount_eq {s s' : SourceFile} (h : SameCode s s') :
    s.lineCount = s'.lineCount := by
  have hlength := congrArg List.length h
  rwa [List.length_map, List.length_map, ← SourceFile.lineCount_eq, ← SourceFile.lineCount_eq]
    at hlength

/-- The search upwards sees the code of the lines only. -/
theorem SameCode.above?_eq {s s' : SourceFile} (h : SameCode s s') (target : Nat) :
    above? s target = above? s' target := by
  have hname (s : SourceFile) (k : Nat) : (s.line? k).bind name? =
      if k = 0 then none else (s.lines.map beforeComment)[k - 1]?.bind (nameFrom? false) := by
    unfold SourceFile.line?
    split
    · rfl
    · rw [List.getElem?_map]
      cases s.lines[k - 1]? <;> rfl
  apply above?_congr
  intro k _
  rw [hname, hname, h]

/-- The scan for the end of a body as one over code. -/
theorem linesBeforeEnd?_congr {scan : Scan} {lines lines' : List (List Char)}
    (h : lines.map beforeComment = lines'.map beforeComment) :
    linesBeforeEnd? scan lines = linesBeforeEnd? scan lines' := by
  induction lines generalizing scan lines' with
  | nil =>
    rw [List.map_nil, eq_comm, List.map_eq_nil_iff] at h
    rw [h]
  | cons line lines ih =>
    cases lines' with
    | nil => cases h
    | cons line' lines' =>
      obtain ⟨hline, hlines⟩ := List.cons.inj h
      rw [linesBeforeEnd?, linesBeforeEnd?, hline]
      split
      · rfl
      · rw [ih hlines]

/-- So does the search for the end of a body. -/
theorem SameCode.lastLine_eq {s s' : SourceFile} (h : SameCode s s') (start : Nat) :
    lastLine s start = lastLine s' start := by
  have hscan : linesBeforeEnd? {} (s.lines.drop (start - 1)) =
      linesBeforeEnd? {} (s'.lines.drop (start - 1)) := by
    apply linesBeforeEnd?_congr
    rw [List.map_drop, List.map_drop, h]
  unfold lastLine
  rw [hscan, h.lineCount_eq]

end Declaration

namespace SourceFile

open Declaration

/-- Lines can be quoted if they exist. -/
theorem isSome_slice?_congr {s s' : SourceFile} (h : s.lineCount = s'.lineCount)
    (first last : Nat) : (s.slice? first last).isSome = (s'.slice? first last).isSome := by
  unfold slice? lineRange?
  rw [h]
  split
  · rfl
  · split <;> rfl

/-- Texts with the same code have the same functions, up to the text of them. -/
theorem functionAt?_of_sameCode {s s' : SourceFile} (h : SameCode s s') {target : Nat}
    {f : EnclosingFunction} (hf : s.functionAt? target = some f) :
    ∃ code, s'.functionAt? target = some { f with code } := by
  obtain ⟨hpos, hle, habove, hlast, hasked, hcode⟩ := functionAt?_eq_some_iff.mp hf
  have hsome : (s'.slice? f.firstLine.toNat f.lastLine.toNat).isSome = true := by
    rw [← isSome_slice?_congr h.lineCount_eq, hcode]
    rfl
  obtain ⟨code, hcode'⟩ := Option.isSome_iff_exists.mp hsome
  refine ⟨code, functionAt?_eq_some_iff.mpr ⟨hpos, ?_, ?_, ?_, hasked, hcode'⟩⟩
  · rwa [← h.lineCount_eq]
  · rwa [← h.above?_eq]
  · rwa [← h.lastLine_eq]

/-- The function around a line without the text of it: its name, its first and its last line. -/
def outline? (s : SourceFile) (target : Nat) : Option (String × UInt32 × UInt32) :=
  (s.functionAt? target).map fun f => (f.name, f.firstLine, f.lastLine)

/-- **Comments never change the function that is found.** The lines of two texts are the same but
for what follows the `//` that begins a comment on any of them. Then there is a function around a
line of the one text exactly when there is one in the other, and it has the same name, the same
first line and the same last line. -/
theorem outline?_eq_of_recommented {s s' : SourceFile}
    (h : List.Forall₂ Recommented s.rawLines s'.rawLines) (target : Nat) :
    s.outline? target = s'.outline? target := by
  have hcode : SameCode s s' := sameCode_of_recommented h
  unfold outline?
  cases hf : s.functionAt? target with
  | some f =>
    obtain ⟨code, hf'⟩ := functionAt?_of_sameCode hcode hf
    rw [hf']
    rfl
  | none =>
    cases hf' : s'.functionAt? target with
    | none => rfl
    | some f' =>
      obtain ⟨code, hf''⟩ := functionAt?_of_sameCode hcode.symm hf'
      rw [hf] at hf''
      cases hf''

/-- A comment that reads as a brace, a quote and a declaration, behind a literal with slashes. -/
theorem outline?_eq_of_recommented_declaration :
    List.Forall₂ Recommented
        (SourceFile.mk "function f() \x7b\n u = \"//\"; // ok\r\n\x7d").rawLines
        (SourceFile.mk "function f() \x7b\n u = \"//\"; //\x7d\"function g()\n\x7d").rawLines ∧
      (SourceFile.mk "function f() \x7b\n u = \"//\"; // ok\r\n\x7d").outline? 3 =
        some ("f", 1, 3) ∧
      (SourceFile.mk "function f() \x7b\n u = \"//\"; //\x7d\"function g()\n\x7d").outline? 3 =
        some ("f", 1, 3) := by
  have hlines : (SourceFile.mk "function f() \x7b\n u = \"//\"; // ok\r\n\x7d").rawLines =
      ["function f() \x7b".toList, " u = \"//\"; ".toList ++ '/' :: '/' :: " ok\r".toList,
        "\x7d".toList] := by
    decide +kernel
  have hlines' :
      (SourceFile.mk "function f() \x7b\n u = \"//\"; //\x7d\"function g()\n\x7d").rawLines =
        ["function f() \x7b".toList,
          " u = \"//\"; ".toList ++ '/' :: '/' :: "\x7d\"function g()".toList, "\x7d".toList] := by
    decide +kernel
  have hbegins : BeginsComment .code " u = \"//\"; ".toList := by decide
  have hrecommented : List.Forall₂ Recommented
      (SourceFile.mk "function f() \x7b\n u = \"//\"; // ok\r\n\x7d").rawLines
      (SourceFile.mk "function f() \x7b\n u = \"//\"; //\x7d\"function g()\n\x7d").rawLines := by
    rw [hlines, hlines']
    exact .cons (.same _) (.cons (.comment hbegins _ _) (.cons (.same _) .nil))
  have houtline : (SourceFile.mk "function f() \x7b\n u = \"//\"; // ok\r\n\x7d").outline? 3 =
      some ("f", 1, 3) := by
    decide +kernel
  refine ⟨hrecommented, houtline, ?_⟩
  rw [← outline?_eq_of_recommented hrecommented]
  exact houtline

end SourceFile

end TxForensics
