import TxForensics.Proofs.Source.Comment

/-!
# Functions are found locally

The function around a line depends on the lines from its declaration on and on those up to the line
that was asked for, and on no others:

       front                   put in front of the text: every number grows by their number
    1  function f() {
    2    g();                  the target
    3  }
    4  uint x;                 left out when only the text of the function is searched

Upwards nothing in front of the nearest declaration is read (`above?_below`), downwards nothing
behind the line where the body ends (`linesBeforeEnd?_take`). So the text of a function, searched on
its own, is that function again.
-/

namespace TxForensics

namespace SourceFile

open Declaration

/-! ## Lines with a declaration -/

/-- On the line `k` a declaration stands outside of the comment, where a word may begin. -/
def HasDeclaration (s : SourceFile) (k : Nat) : Prop :=
  ∃ line code front rest name, s.line? k = some line ∧ CodeOf .code line code ∧
    code = front ++ rest ∧ endsInWord false front = false ∧ Declares rest name

/-- A line has a declaration exactly if the search finds a name on it. -/
theorem hasDeclaration_iff {s : SourceFile} {k : Nat} :
    s.HasDeclaration k ↔ (s.line? k).bind name? ≠ none := by
  constructor
  · rintro ⟨line, code, front, rest, name, hline, hcode, hsplit, hboundary, hdeclares⟩
    rw [hline, Option.bind_some, name?, beforeComment, codeOf_iff.mp hcode, nameFrom?_ne_none_iff]
    exact ⟨front, rest, name, hsplit, hboundary, nameAt?_eq_some_iff.mpr hdeclares⟩
  · intro h
    cases hline : s.line? k with
    | none =>
      rw [hline] at h
      exact absurd rfl h
    | some line =>
      rw [hline, Option.bind_some, name?, nameFrom?_ne_none_iff] at h
      obtain ⟨front, rest, name, hsplit, hboundary, hdeclares⟩ := h
      exact ⟨line, _, front, rest, name, hline, codeOf_beforeCommentFrom _ _, hsplit, hboundary,
        nameAt?_eq_some_iff.mp hdeclares⟩

theorem above?_ne_none_iff {s : SourceFile} {target : Nat} :
    above? s target ≠ none ↔ ∃ k ≤ target, s.HasDeclaration k := by
  constructor
  · intro h
    obtain ⟨⟨start, name⟩, habove⟩ := Option.ne_none_iff_exists'.mp h
    obtain ⟨hle, hname, -⟩ := above?_eq_some_iff.mp habove
    refine ⟨start, hle, hasDeclaration_iff.mpr ?_⟩
    rw [hname]
    exact Option.some_ne_none name
  · rintro ⟨k, hk, hdeclaration⟩ hnone
    rw [hasDeclaration_iff] at hdeclaration
    induction target with
    | zero =>
      rw [Nat.le_zero.mp hk] at hdeclaration
      exact hdeclaration rfl
    | succ target ih =>
      rw [above?_succ, Option.or_eq_none_iff, Option.map_eq_none_iff] at hnone
      rcases Nat.lt_or_eq_of_le hk with hlt | rfl
      · exact ih (Nat.le_of_lt_succ hlt) hnone.2
      · exact hdeclaration hnone.1

/-- The declaration found is the one on the greatest line up to the target that has one. -/
theorem HasDeclaration.le_of_above? {s : SourceFile} {target start : Nat} {name : List Char}
    (h : above? s target = some (start, name)) {k : Nat} (hk : s.HasDeclaration k)
    (hle : k ≤ target) : k ≤ start := by
  obtain ⟨-, -, hlast⟩ := above?_eq_some_iff.mp h
  refine Nat.le_of_not_lt fun hlt => ?_
  exact hasDeclaration_iff.mp hk (hlast k hlt hle)

theorem hasDeclaration_of_above? {s : SourceFile} {target start : Nat} {name : List Char}
    (h : above? s target = some (start, name)) : s.HasDeclaration start := by
  rw [hasDeclaration_iff, (above?_eq_some_iff.mp h).2.1]
  exact Option.some_ne_none name

/-! ## Lines in front of a text -/

def below (s : SourceFile) (front : List (List Char)) : SourceFile :=
  ⟨.ofList (front.flatMap (· ++ ['\n']) ++ s.text.toList)⟩

section Below

variable {front : List (List Char)} (hfront : ∀ line ∈ front, '\n' ∉ line) (s : SourceFile)

include hfront

theorem rawLines_below : (s.below front).rawLines = front ++ s.rawLines := by
  unfold rawLines below
  rw [String.toList_ofList]
  induction front with
  | nil => rfl
  | cons line front ih =>
    obtain ⟨hline, hlines⟩ := List.forall_mem_cons.mp hfront
    rw [List.flatMap_cons, List.append_assoc, List.append_assoc, List.singleton_append,
      Text.splitOn_append hline, ih hlines, List.cons_append]

theorem lineCount_below : (s.below front).lineCount = front.length + s.lineCount := by
  unfold lineCount
  rw [rawLines_below hfront, List.length_append]

theorem drop_lines_below {k : Nat} (hk : 0 < k) :
    (s.below front).lines.drop (front.length + k - 1) = s.lines.drop (k - 1) := by
  have hsum : front.length + k - 1 = (front.map dropCarriageReturn).length + (k - 1) := by
    rw [List.length_map]
    omega
  rw [lines, rawLines_below hfront, List.map_append, hsum, List.drop_length_add_append]
  rfl

theorem line?_below {k : Nat} (hk : 0 < k) :
    (s.below front).line? (front.length + k) = s.line? k := by
  unfold line?
  rw [if_neg (by omega), if_neg (by omega), ← List.head?_drop, ← List.head?_drop,
    drop_lines_below hfront s hk]

/-- Lines in front move the nearest declaration and do not replace it. -/
theorem above?_below {target start : Nat} {name : List Char}
    (h : above? s target = some (start, name)) :
    above? (s.below front) (front.length + target) = some (front.length + start, name) := by
  obtain ⟨hle, hname, hlast⟩ := above?_eq_some_iff.mp h
  have hpos := (above?_range h).1
  rw [above?_eq_some_iff, line?_below hfront s hpos]
  refine ⟨Nat.add_le_add_left hle _, hname, ?_⟩
  intro k hk hkt
  obtain ⟨j, rfl⟩ := Nat.exists_eq_add_of_le (Nat.le_trans (Nat.le_add_right _ _) (Nat.le_of_lt hk))
  rw [line?_below hfront s (by omega)]
  exact hlast j (by omega) (by omega)

/-- The end of a body moves with its declaration. -/
theorem lastLine_below {start : Nat} (hpos : 0 < start) :
    lastLine (s.below front) (front.length + start) = front.length + lastLine s start := by
  unfold lastLine
  rw [drop_lines_below hfront s hpos, lineCount_below hfront]
  split <;> omega

theorem block_below {first : Nat} (hpos : 0 < first) (last : Nat) :
    (s.below front).block (front.length + first) (front.length + last) = s.block first last := by
  unfold block
  rw [drop_lines_below hfront s hpos]
  congr 1
  omega

end Below

/-! ## The text of a function on its own -/

/-- A body that ends is read no further than to its last line. -/
theorem linesBeforeEnd?_take {scan : Scan} {lines : List (List Char)} {n : Nat}
    (h : linesBeforeEnd? scan lines = some n) :
    linesBeforeEnd? scan (lines.take (n + 1)) = some n := by
  -- over the lines, until the one on which the body ends
  induction lines generalizing scan n with
  | nil => cases h
  | cons line lines ih =>
    rw [linesBeforeEnd?] at h
    rw [List.take_succ_cons, linesBeforeEnd?]
    split at h
    · exact h
    · obtain ⟨m, hm, rfl⟩ := Option.map_eq_some_iff.mp h
      rw [ih hm, Option.map_some]

section Block

variable {s alone : SourceFile} {start : Nat}

theorem line?_block {last k : Nat} (h : alone.lines = s.block start last) (hstart : 0 < start)
    (hk : 0 < k) (hkl : k ≤ last + 1 - start) : alone.line? k = s.line? (start - 1 + k) := by
  unfold line?
  rw [if_neg (by omega), if_neg (by omega), h, block, List.getElem?_take_of_lt (by omega),
    List.getElem?_drop]
  congr 1
  omega

/-- In the text of a function its declaration is the nearest above any line. -/
theorem above?_block {last target : Nat} {name : List Char} (h : alone.lines = s.block start last)
    (hlast : start ≤ last) (habove : above? s target = some (start, name)) :
    above? alone (min target last - start + 1) = some (1, name) := by
  obtain ⟨hle, hname, hnone⟩ := above?_eq_some_iff.mp habove
  have hpos := (above?_range habove).1
  rw [above?_eq_some_iff]
  refine ⟨Nat.le_add_left _ _, ?_, ?_⟩
  · rwa [line?_block h hpos Nat.one_pos (by omega), Nat.sub_add_cancel hpos]
  · intro k hk hkt
    rw [line?_block h hpos (by omega) (by omega)]
    exact hnone _ (by omega) (by omega)

/-- On its own a body ends where it ended before, or with the text if it never did. -/
theorem lastLine_block (hpos : 0 < start) (hcount : start ≤ s.lineCount)
    (h : alone.lines = s.block start (lastLine s start)) :
    lastLine alone 1 = lastLine s start - start + 1 := by
  unfold block at h
  unfold lastLine at h ⊢
  rw [Nat.sub_self, List.drop_zero, lineCount_eq alone, h]
  cases hscan : linesBeforeEnd? {} (s.lines.drop (start - 1)) with
  | some n =>
    dsimp only
    have hcut : start + n + 1 - start = n + 1 := by omega
    rw [hcut, linesBeforeEnd?_take hscan]
    dsimp only
    omega
  | none =>
    dsimp only
    -- a body that never ends takes all the lines there are
    have hall : (s.lines.drop (start - 1)).length ≤ s.lineCount + 1 - start := by
      rw [List.length_drop, lineCount_eq]
      omega
    rw [List.take_of_length_le hall, hscan]
    dsimp only
    rw [List.length_drop, ← lineCount_eq]
    omega

end Block

theorem dropCarriageReturn_of_not_mem {cs : List Char} (h : '\r' ∉ cs) :
    dropCarriageReturn cs = cs := by
  rw [dropCarriageReturn, if_neg fun hlast => h (List.mem_of_getLast? hlast)]

theorem map_dropCarriageReturn {fields : List (List Char)} (h : ∀ field ∈ fields, '\r' ∉ field) :
    fields.map dropCarriageReturn = fields :=
  calc fields.map dropCarriageReturn
    _ = fields.map id :=
      List.map_congr_left fun field hfield => dropCarriageReturn_of_not_mem (h field hfield)
    _ = fields := List.map_id fields

/-- Lines without carriage returns are the lines of the text that joins them. -/
theorem lines_joinWith_block {s : SourceFile} (h : '\r' ∉ s.text.toList) {first last : Nat}
    (hpos : 0 < first) (hle : first ≤ last) (hlast : last ≤ s.lineCount) :
    (SourceFile.mk (.ofList (Text.joinWith '\n' (s.block first last)))).lines =
      s.block first last := by
  have hraw : ∀ line ∈ s.rawLines, '\r' ∉ line := fun line hline hmem =>
    h (Text.mem_of_mem_splitOn hline hmem)
  -- without carriage returns the lines are the parts between the line feeds
  have hlines : s.lines = s.rawLines := map_dropCarriageReturn hraw
  have hmem {line : List Char} (hline : line ∈ s.block first last) : line ∈ s.rawLines := by
    rw [← hlines]
    exact List.mem_of_mem_drop (List.mem_of_mem_take hline)
  have hne : s.block first last ≠ [] := by
    apply List.ne_nil_of_length_pos
    rw [block, List.length_take, List.length_drop, ← lineCount_eq]
    omega
  rw [lines, rawLines, String.toList_ofList, Text.splitOn_joinWith hne]
  · exact map_dropCarriageReturn fun line hline => hraw line (hmem hline)
  · exact fun line hline => Text.not_mem_of_mem_splitOn (hmem hline)

/-! ## The function around a line -/

section Found

variable {s : SourceFile} {target : Nat} {f : EnclosingFunction}

theorem range_of_functionAt? (h : s.functionAt? target = some f) :
    0 < f.firstLine.toNat ∧ f.firstLine.toNat ≤ f.lastLine.toNat ∧
      f.lastLine.toNat ≤ s.lineCount := by
  obtain ⟨-, -, habove, hlast, -, -⟩ := functionAt?_eq_some_iff.mp h
  obtain ⟨hpos, hcount⟩ := above?_range habove
  rw [hlast]
  exact ⟨hpos, le_lastLine hcount, lastLine_le_lineCount hpos⟩

theorem code_of_functionAt? (h : s.functionAt? target = some f) :
    f.code.toList = Text.joinWith '\n' (s.block f.firstLine.toNat f.lastLine.toNat) := by
  obtain ⟨hpos, hle, hlast⟩ := range_of_functionAt? h
  obtain ⟨-, -, -, -, -, hcode⟩ := functionAt?_eq_some_iff.mp h
  rw [slice?_eq_block hpos hle hlast] at hcode
  rw [← Option.some.inj hcode, String.toList_ofList]

/-- A declaration at or above a line is all that it takes. -/
theorem isSome_functionAt?_iff (hsize : s.lineCount < 2 ^ 32) :
    (s.functionAt? target).isSome ↔
      (1 ≤ target ∧ target ≤ s.lineCount) ∧ ∃ k ≤ target, s.HasDeclaration k := by
  rw [← above?_ne_none_iff]
  constructor
  · intro h
    obtain ⟨f, hf⟩ := Option.isSome_iff_exists.mp h
    obtain ⟨hpos, hle, habove, -⟩ := functionAt?_eq_some_iff.mp hf
    rw [habove]
    exact ⟨⟨hpos, hle⟩, Option.some_ne_none _⟩
  · rintro ⟨⟨hpos, hle⟩, h⟩
    obtain ⟨⟨start, name⟩, habove⟩ := Option.ne_none_iff_exists'.mp h
    obtain ⟨f, hf, -⟩ := exists_functionAt? hsize hpos hle habove
    rw [hf]
    rfl

/-- `g` is the function `f`, with its lines counted from elsewhere. -/
structure SameFunctionAt (f g : EnclosingFunction) (first last asked : Nat) : Prop where
  name : g.name = f.name
  code : g.code = f.code
  firstLine : g.firstLine.toNat = first
  lastLine : g.lastLine.toNat = last
  askedLine : g.askedLine.toNat = asked

/-- A function is found again with lines in front of the text. -/
theorem functionAt?_below (h : s.functionAt? target = some f) {front : List (List Char)}
    (hfront : ∀ line ∈ front, '\n' ∉ line) (hsize : front.length + s.lineCount < 2 ^ 32) :
    ∃ g, (s.below front).functionAt? (front.length + target) = some g ∧
      SameFunctionAt f g (front.length + f.firstLine.toNat) (front.length + f.lastLine.toNat)
        (front.length + target) := by
  obtain ⟨hpos, hle, habove, hlast, -, -⟩ := functionAt?_eq_some_iff.mp h
  have hfirst := (range_of_functionAt? h).1
  have hcount := lineCount_below hfront s
  obtain ⟨g, hg, hname, hgfirst, hglast, hgasked, hgcode⟩ :=
    exists_functionAt? (hcount ▸ hsize) (Nat.add_pos_right _ hpos) (by omega)
      (above?_below hfront s habove)
  rw [lastLine_below hfront s hfirst, ← hlast] at hglast hgcode
  rw [block_below hfront s hfirst, ← code_of_functionAt? h] at hgcode
  exact ⟨g, hg, String.toList_inj.mp hname, String.toList_inj.mp hgcode, hgfirst, hglast, hgasked⟩

/-- A function is found again in its own code. -/
theorem functionAt?_alone (h : s.functionAt? target = some f) (hreturn : '\r' ∉ s.text.toList) :
    ∃ g, (SourceFile.mk f.code).functionAt?
        (min target f.lastLine.toNat - f.firstLine.toNat + 1) = some g ∧
      SameFunctionAt f g 1 (f.lastLine.toNat - f.firstLine.toNat + 1)
        (min target f.lastLine.toNat - f.firstLine.toNat + 1) := by
  obtain ⟨-, hle, habove, hlast, -, -⟩ := functionAt?_eq_some_iff.mp h
  obtain ⟨hpos, hbegins, hends⟩ := range_of_functionAt? h
  have hcode := code_of_functionAt? h
  have hlines : (SourceFile.mk f.code).lines = s.block f.firstLine.toNat f.lastLine.toNat := by
    rw [← lines_joinWith_block hreturn hpos hbegins hends, ← hcode, String.ofList_toList]
  have hcount : (SourceFile.mk f.code).lineCount = f.lastLine.toNat + 1 - f.firstLine.toNat := by
    rw [lineCount_eq, hlines, block, List.length_take, List.length_drop, ← lineCount_eq]
    omega
  have hfits := f.lastLine.toNat_lt
  obtain ⟨g, hg, hname, hgfirst, hglast, hgasked, hgcode⟩ :=
    exists_functionAt? (by omega) (Nat.succ_pos _) (by omega) (above?_block hlines hbegins habove)
  have hlast' : lastLine ⟨f.code⟩ 1 = f.lastLine.toNat - f.firstLine.toNat + 1 := by
    rw [hlast] at hlines ⊢
    exact lastLine_block hpos (Nat.le_trans hbegins hends) hlines
  have hblock : (SourceFile.mk f.code).block 1 (f.lastLine.toNat - f.firstLine.toNat + 1) =
      (SourceFile.mk f.code).lines := by
    rw [block, Nat.sub_self, List.drop_zero, List.take_of_length_le]
    rw [← lineCount_eq]
    omega
  rw [hlast'] at hglast hgcode
  rw [hblock, hlines, ← hcode] at hgcode
  exact ⟨g, hg, String.toList_inj.mp hname, String.toList_inj.mp hgcode, hgfirst, hglast, hgasked⟩

end Found

/-- **A function is found locally.** There is one around a line of the text exactly when a
declaration stands on that line or above it. It begins on the last such line, ends within the text,
and its code is the text of the lines between. Lines in front of the text move it and change nothing
else, and in a text without carriage returns it is found again in its own code. -/
theorem functionAt?_local {s : SourceFile} (hsize : s.lineCount < 2 ^ 32) (target : Nat) :
    ((s.functionAt? target).isSome ↔
      (1 ≤ target ∧ target ≤ s.lineCount) ∧ ∃ k ≤ target, s.HasDeclaration k) ∧
    ∀ f, s.functionAt? target = some f →
      (s.HasDeclaration f.firstLine.toNat ∧ f.firstLine.toNat ≤ target ∧
        ∀ k ≤ target, s.HasDeclaration k → k ≤ f.firstLine.toNat) ∧
      (f.firstLine.toNat ≤ f.lastLine.toNat ∧ f.lastLine.toNat ≤ s.lineCount) ∧
      f.code.toList = Text.joinWith '\n' (s.block f.firstLine.toNat f.lastLine.toNat) ∧
      (∀ front : List (List Char), (∀ line ∈ front, '\n' ∉ line) →
        front.length + s.lineCount < 2 ^ 32 →
        ∃ g, (s.below front).functionAt? (front.length + target) = some g ∧
          SameFunctionAt f g (front.length + f.firstLine.toNat)
            (front.length + f.lastLine.toNat) (front.length + target)) ∧
      ('\r' ∉ s.text.toList →
        ∃ g, (SourceFile.mk f.code).functionAt?
            (min target f.lastLine.toNat - f.firstLine.toNat + 1) = some g ∧
          SameFunctionAt f g 1 (f.lastLine.toNat - f.firstLine.toNat + 1)
            (min target f.lastLine.toNat - f.firstLine.toNat + 1)) := by
  refine ⟨isSome_functionAt?_iff hsize, ?_⟩
  intro f hf
  obtain ⟨-, -, habove, -⟩ := functionAt?_eq_some_iff.mp hf
  have hgreatest : ∀ k ≤ target, s.HasDeclaration k → k ≤ f.firstLine.toNat :=
    fun k hk hhas => hhas.le_of_above? habove hk
  refine ⟨⟨hasDeclaration_of_above? habove, (above?_eq_some_iff.mp habove).1, hgreatest⟩,
    (range_of_functionAt? hf).2, code_of_functionAt? hf, ?_, functionAt?_alone hf⟩
  intro front hfront hbound
  exact functionAt?_below hf hfront hbound

/-- A line behind the body: the function above it is found with a line more in front, and alone. -/
theorem functionAt?_local_behind_body :
    (SourceFile.mk "uint x;\nfunction f() \x7b\n\x7d\nuint y;").lineCount < 2 ^ 32 ∧
      (SourceFile.mk "uint x;\nfunction f() \x7b\n\x7d\nuint y;").functionAt? 4 =
        some ⟨"f", 2, 3, 4, "function f() \x7b\n\x7d"⟩ ∧
      (∃ g, ((SourceFile.mk "uint x;\nfunction f() \x7b\n\x7d\nuint y;").below
          ["// z".toList]).functionAt? 5 = some g ∧
        SameFunctionAt ⟨"f", 2, 3, 4, "function f() \x7b\n\x7d"⟩ g 3 4 5) ∧
      ∃ g, (SourceFile.mk "function f() \x7b\n\x7d").functionAt? 2 = some g ∧
        SameFunctionAt ⟨"f", 2, 3, 4, "function f() \x7b\n\x7d"⟩ g 1 2 2 := by
  have hsize : (SourceFile.mk "uint x;\nfunction f() \x7b\n\x7d\nuint y;").lineCount < 2 ^ 32 := by
    decide +kernel
  have hf : (SourceFile.mk "uint x;\nfunction f() \x7b\n\x7d\nuint y;").functionAt? 4 =
      some ⟨"f", 2, 3, 4, "function f() \x7b\n\x7d"⟩ := by
    decide +kernel
  obtain ⟨-, hlocal⟩ := functionAt?_local hsize 4
  obtain ⟨-, -, -, hbelow, halone⟩ := hlocal _ hf
  refine ⟨hsize, hf, ?_, halone (by decide +kernel)⟩
  exact hbelow ["// z".toList] (by decide) (by decide +kernel)

end SourceFile

end TxForensics
