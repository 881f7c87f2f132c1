import TxForensics.Proofs.Text.Utf8
import TxForensics.Source.Text

/-!
# Lines, columns and offsets

A source text is indexed by its lines. This file compares the index with the octets of the text
themselves: a line feed is one octet, and no other character has that octet in its encoding, so the
line of an offset is told by the line feeds among the octets before it, and its column by the octets
since the last of them:

    octets before the offset = … 10 … 10 since        line = 1 + number of 10s
                                                      column = 1 + length of since

Two offsets are told apart by the octets between them: a line feed among them sets them on different
lines, and without one they lie on the same line at different columns (`cursor_append`).

The other way round, the lines joined again are the text, up to the carriage returns that belong to
their terminators (`joinWith_map_dropCarriageReturn`).
-/

namespace TxForensics

namespace SourceFile

def lineFeed : UInt8 := 10

def octets (s : SourceFile) : List UInt8 := Text.Utf8.encode s.text.toList

/-! ## The octets before an offset -/

/-- The number of octets behind the last line feed; all of them if there is none. -/
def sinceLineFeed (before : List UInt8) : Nat :=
  (before.reverse.takeWhile (· != lineFeed)).length

/-- Octets without a line feed add to the column. -/
theorem sinceLineFeed_append {more : List UInt8} (h : lineFeed ∉ more) (before : List UInt8) :
    sinceLineFeed (before ++ more) = sinceLineFeed before + more.length := by
  have hmore : ∀ b ∈ more.reverse, (b != lineFeed) = true := by
    intro b hb
    rw [bne_iff_ne]
    rintro rfl
    exact h (List.mem_reverse.mp hb)
  rw [sinceLineFeed, List.reverse_append, List.takeWhile_append_of_pos hmore, List.length_append,
    List.length_reverse, Nat.add_comm]
  rfl

theorem sinceLineFeed_of_not_mem {before : List UInt8} (h : lineFeed ∉ before) :
    sinceLineFeed before = before.length := by
  have happend := sinceLineFeed_append h []
  rwa [List.nil_append, show sinceLineFeed [] = 0 from rfl, Nat.zero_add] at happend

/-- A line feed begins a new column. -/
theorem sinceLineFeed_append_lineFeed (front back : List UInt8) :
    sinceLineFeed (front ++ lineFeed :: back) = sinceLineFeed back := by
  unfold sinceLineFeed
  rw [List.reverse_append, List.reverse_cons, List.append_assoc, List.takeWhile_append]
  split
  · next hall =>
    rw [List.singleton_append, List.takeWhile_cons, if_neg (by simp), List.append_nil, hall]
  · rfl

/-- The line and the column behind octets, both counted from one. -/
def cursor (before : List UInt8) : Nat × Nat :=
  (1 + before.count lineFeed, 1 + sinceLineFeed before)

/-- Octets more move the cursor on: down if there is a line feed among them, else to the right. -/
theorem cursor_append (before : List UInt8) {more : List UInt8} (h : more ≠ []) :
    Prod.Lex (· < ·) (· < ·) (cursor before) (cursor (before ++ more)) := by
  unfold cursor
  rw [List.count_append]
  -- down if there is a line feed, else to the right
  by_cases hfeed : lineFeed ∈ more
  · apply Prod.Lex.left
    have hpos : 0 < more.count lineFeed := List.count_pos_iff.mpr hfeed
    omega
  · rw [List.count_eq_zero.mpr hfeed, Nat.add_zero, sinceLineFeed_append hfeed]
    apply Prod.Lex.right
    have hpos : 0 < more.length := List.length_pos_iff.mpr h
    omega

/-! ## The place of an offset -/

/-- The octet of a line feed belongs to no other character. -/
theorem lineFeed_not_mem_encode {cs : List Char} (h : '\n' ∉ cs) :
    lineFeed ∉ Text.Utf8.encode cs := by
  intro hmem
  obtain ⟨c, hc, hfeed⟩ := List.mem_flatMap.mp hmem
  have hnumber : lineFeed.toNat = c.toNat := Text.Utf8.eq_of_mem_encodeChar hfeed (by decide)
  have hchar : c = '\n' := Char.toNat_inj.mp hnumber.symm
  exact h (hchar ▸ hc)

theorem encode_append_lineFeed (front back : List Char) :
    Text.Utf8.encode (front ++ '\n' :: back) =
      Text.Utf8.encode front ++ lineFeed :: Text.Utf8.encode back := by
  unfold Text.Utf8.encode
  rw [List.flatMap_append, List.flatMap_cons]
  rfl

/-- An offset that lies within octets without a line feed is on the line where they begin. -/
theorem feeds_take_of_not_mem {octets : List UInt8} (h : lineFeed ∉ octets) {offset : Nat}
    (hle : offset ≤ octets.length) :
    (octets.take offset).count lineFeed = 0 ∧ sinceLineFeed (octets.take offset) = offset := by
  have hnot : lineFeed ∉ octets.take offset := fun hmem => h (List.mem_of_mem_take hmem)
  rw [List.count_eq_zero, sinceLineFeed_of_not_mem hnot, List.length_take]
  exact ⟨hnot, Nat.min_eq_left hle⟩

/-- Looking an offset up line by line counts the line feeds before it. -/
theorem locate?_eq {fields : List (List Char)} (hne : fields ≠ [])
    (hfields : ∀ field ∈ fields, '\n' ∉ field) (line offset : Nat) :
    locate? line offset fields =
      if offset ≤ (Text.Utf8.encode (Text.joinWith '\n' fields)).length then
        let before := (Text.Utf8.encode (Text.joinWith '\n' fields)).take offset
        some (line + before.count lineFeed, 1 + sinceLineFeed before)
      else none := by
  -- over the lines, with the number of the first of them and the offset in what is left
  induction fields generalizing line offset with
  | nil => exact absurd rfl hne
  | cons field fields ih =>
    have hfeed : lineFeed ∉ Text.Utf8.encode field :=
      lineFeed_not_mem_encode (hfields field List.mem_cons_self)
    rw [locate?, ← Text.Utf8.length_encode]
    dsimp only
    cases fields with
    | nil =>
      rw [Text.joinWith]
      split
      · next hle =>
        obtain ⟨hcount, hsince⟩ := feeds_take_of_not_mem hfeed hle
        rw [hcount, hsince, Nat.add_comm 1 offset]
        rfl
      · rfl
    | cons next fields =>
      have ih := ih (List.cons_ne_nil next fields) fun f hf =>
        hfields f (List.mem_cons_of_mem field hf)
      rw [Text.joinWith.eq_3 _ _ _ (List.cons_ne_nil next fields), encode_append_lineFeed]
      generalize Text.Utf8.encode (Text.joinWith '\n' (next :: fields)) = more at ih ⊢
      generalize Text.Utf8.encode field = here at hfeed ⊢
      split
      · next hle =>
        obtain ⟨hcount, hsince⟩ := feeds_take_of_not_mem hfeed hle
        rw [if_pos (by rw [List.length_append]; omega), List.take_append_of_le_length hle, hcount,
          hsince, Nat.add_comm 1 offset]
        rfl
      · next hlt =>
        -- the offset is behind the line feed: the lines below tell the rest
        obtain ⟨k, rfl⟩ : ∃ k, offset = here.length + (k + 1) :=
          ⟨offset - here.length - 1, by omega⟩
        have hrest : here.length + (k + 1) - here.length - 1 = k := by omega
        have hcount : (here ++ lineFeed :: more.take k).count lineFeed =
            1 + (more.take k).count lineFeed := by
          rw [List.count_append, List.count_eq_zero.mpr hfeed, List.count_cons_self]
          omega
        have hreach : here.length + (k + 1) ≤ (here ++ lineFeed :: more).length ↔
            k ≤ more.length := by
          rw [List.length_append, List.length_cons]
          omega
        rw [hrest, ih, List.take_length_add_append, List.take_succ_cons, hcount,
          sinceLineFeed_append_lineFeed]
        simp only [hreach, Nat.add_assoc]

/-- The place of an offset is that of the cursor behind the octets before it. -/
theorem coordinates?_eq (s : SourceFile) (offset : Nat) :
    s.coordinates? offset =
      if offset ≤ s.octets.length then some (cursor (s.octets.take offset)) else none := by
  unfold coordinates? rawLines octets
  rw [locate?_eq (Text.splitOn_ne_nil _ _) fun field hfield => Text.not_mem_of_mem_splitOn hfield,
    Text.joinWith_splitOn]
  rfl

example : (SourceFile.mk "é\r\nab").coordinates? 5 = some (2, 2) := by
  decide +kernel

/-- A later offset is placed later. -/
theorem coordinates?_lt {s : SourceFile} {offset offset' : Nat} {p p' : Nat × Nat}
    (h : s.coordinates? offset = some p) (h' : s.coordinates? offset' = some p')
    (hlt : offset < offset') : Prod.Lex (· < ·) (· < ·) p p' := by
  rw [coordinates?_eq] at h h'
  split at h
  · split at h'
    · next hle' =>
      rw [← Option.some.inj h, ← Option.some.inj h']
      obtain ⟨n, rfl⟩ := Nat.exists_eq_add_of_lt hlt
      rw [Nat.add_assoc, List.take_add]
      apply cursor_append
      apply List.ne_nil_of_length_pos
      rw [List.length_take, List.length_drop]
      omega
    · cases h'
  · cases h

/-! ## The lines -/

theorem lineCount_eq_count (s : SourceFile) : s.lineCount = 1 + s.text.toList.count '\n' := by
  rw [lineCount, rawLines, Text.length_splitOn, Nat.add_comm]

theorem lineCount_eq (s : SourceFile) : s.lineCount = s.lines.length := by
  rw [lineCount, lines, List.length_map]

theorem isSome_line?_iff {s : SourceFile} {k : Nat} :
    (s.line? k).isSome ↔ 1 ≤ k ∧ k ≤ s.lineCount := by
  unfold line?
  split
  · next hzero => simp [hzero]
  · rw [isSome_getElem?, lineCount_eq]
    omega

/-- A text without one carriage return before each line feed and at the end, if there is one. -/
def withoutReturns : List Char → List Char
  | [] => []
  | c :: cs =>
    if c = '\r' ∧ (cs = [] ∨ cs.head? = some '\n') then withoutReturns cs
    else c :: withoutReturns cs

theorem dropCarriageReturn_cons (c : Char) (field : List Char) :
    dropCarriageReturn (c :: field) =
      if c = '\r' ∧ field = [] then [] else c :: dropCarriageReturn field := by
  unfold dropCarriageReturn
  cases field with
  | nil => by_cases hc : c = '\r' <;> simp [hc]
  | cons d field =>
    rw [List.getLast?_cons_cons, List.dropLast_cons_cons, if_neg (by simp : ¬ (c = '\r' ∧ _))]
    split <;> rfl

/-- A character in front of the first field comes first in the text. -/
theorem joinWith_cons_cons (c : Char) (field : List Char) (fields : List (List Char)) :
    Text.joinWith '\n' ((c :: field) :: fields) = c :: Text.joinWith '\n' (field :: fields) := by
  cases fields <;> rfl

/-- The lines without their terminators, joined by line feeds. -/
theorem joinWith_map_dropCarriageReturn (cs : List Char) :
    Text.joinWith '\n' ((Text.splitOn '\n' cs).map dropCarriageReturn) = withoutReturns cs := by
  induction cs with
  | nil => rfl
  | cons c cs ih =>
    obtain ⟨field, fields, hsplit⟩ := List.exists_cons_of_ne_nil (Text.splitOn_ne_nil '\n' cs)
    rw [hsplit, List.map_cons] at ih
    by_cases hfeed : c = '\n'
    · rw [Text.splitOn, if_pos hfeed, hsplit, List.map_cons, List.map_cons, withoutReturns,
        if_neg (by simp [hfeed]), hfeed, ← ih]
      rfl
    · rw [Text.splitOn, if_neg hfeed, hsplit]
      dsimp only
      -- the first field is empty exactly when the text ends here or goes on with a line feed
      have hempty : field = [] ↔ cs = [] ∨ cs.head? = some '\n' := by
        cases cs with
        | nil => simpa [Text.splitOn, eq_comm] using (List.cons.inj hsplit).1
        | cons d cs =>
          by_cases hd : d = '\n'
          · rw [Text.splitOn, if_pos hd] at hsplit
            simp [hd, ← (List.cons.inj hsplit).1]
          · obtain ⟨field', fields', -, hcons⟩ := Text.splitOn_cons_of_ne hd cs
            rw [hcons] at hsplit
            simp [hd, ← (List.cons.inj hsplit).1]
      rw [List.map_cons, dropCarriageReturn_cons, withoutReturns]
      simp only [← hempty]
      split
      · next hreturn =>
        rw [← ih, hreturn.2]
        rfl
      · rw [joinWith_cons_cons, ih]

/-- The lines from the first to the last are the whole text. -/
theorem slice?_all (s : SourceFile) :
    s.slice? 1 s.lineCount = some (.ofList (withoutReturns s.text.toList)) := by
  have hpos : 1 ≤ s.lineCount := by
    rw [lineCount_eq_count]
    omega
  unfold slice? lineRange?
  rw [if_neg (by omega), if_neg (by omega), Nat.sub_self, List.drop_zero, Nat.add_sub_cancel,
    lineCount_eq, List.take_length, Option.map_some, lines, rawLines,
    joinWith_map_dropCarriageReturn]

/-- **A source text is indexed exactly.** Every offset up to the number of octets has a place, told
by the octets before it, and no offset behind has one. Places are in the order of their offsets, so
no two offsets share one. The lines are those from 1 to the number of lines, and all of them
together are the text without the carriage returns that belong to their ends. -/
theorem line_index_exact (s : SourceFile) :
    (∀ offset, s.coordinates? offset =
      if offset ≤ s.octets.length then
        some (1 + (s.octets.take offset).count lineFeed, 1 + sinceLineFeed (s.octets.take offset))
      else none) ∧
    (∀ offset offset' p p', s.coordinates? offset = some p → s.coordinates? offset' = some p' →
      (offset < offset' → Prod.Lex (· < ·) (· < ·) p p') ∧ (offset ≠ offset' → p ≠ p')) ∧
    s.lineCount = 1 + s.text.toList.count '\n' ∧
    (∀ k, (s.line? k).isSome ↔ 1 ≤ k ∧ k ≤ s.lineCount) ∧
    s.slice? 1 s.lineCount = some (.ofList (withoutReturns s.text.toList)) := by
  refine ⟨s.coordinates?_eq, ?_, s.lineCount_eq_count, fun k => isSome_line?_iff, s.slice?_all⟩
  intro offset offset' p p' h h'
  refine ⟨coordinates?_lt h h', ?_⟩
  rintro hne rfl
  have hirrefl : ¬ Prod.Lex (· < ·) (· < ·) p p := by
    rw [Prod.lex_def]
    omega
  rcases Nat.lt_or_gt_of_ne hne with hlt | hgt
  · exact hirrefl (coordinates?_lt h h' hlt)
  · exact hirrefl (coordinates?_lt h' h hgt)

end SourceFile

end TxForensics
