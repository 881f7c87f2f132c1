import TxForensics.Proofs.Source.Lines
import TxForensics.Proofs.Text.Utf8

/-!
# Source texts in 64 bits

A machine holds the offsets of a text in numbers of 64 bits. A sum or a difference that is no such
number is a fault there, and so is an item that a list does not have. This file goes through the
queries of a text as a machine answers them, by a table of the offsets at which the lines begin:

    text      a   b  \r  \n   c  \n            starts   0  4  6
    offset    0   1   2   3   4   5            line 2   from 4 to 6 - 1

Every step on the way is guarded by `add`, `sub` and `item`. A text in memory has less than `2 ^ 63`
octets, and then no guard ever closes: whatever the argument of a query is, the machine comes to the
answer that the lines of the text give.
-/

namespace TxForensics

inductive Fault where
  /-- A sum or a difference is no number of 64 bits. -/
  | overflow
  /-- A list has no item at a position. -/
  | outOfBounds
deriving DecidableEq, Repr

namespace Machine

def add (a b : Nat) : Except Fault Nat := if a + b < 2 ^ 64 then .ok (a + b) else .error .overflow

def sub (a b : Nat) : Except Fault Nat := if b ≤ a then .ok (a - b) else .error .overflow

/-- The item at a position, which a list has to have. -/
def item (as : List α) (i : Nat) : Except Fault α :=
  match as[i]? with
  | some a => .ok a
  | none => .error .outOfBounds

def add? (a b : Nat) : Option Nat := if a + b < 2 ^ 64 then some (a + b) else none

def sub? (a b : Nat) : Option Nat := if b ≤ a then some (a - b) else none

/-- A machine goes on behind a result. -/
theorem ok_bind (a : α) (f : α → Except Fault β) : ((.ok a : Except Fault α) >>= f) = f a := rfl

theorem add_of_lt {a b : Nat} (h : a + b < 2 ^ 64) : add a b = .ok (a + b) := if_pos h

theorem sub_of_le {a b : Nat} (h : b ≤ a) : sub a b = .ok (a - b) := if_pos h

theorem item_of_getElem? {as : List α} {i : Nat} {a : α} (h : as[i]? = some a) :
    item as i = .ok a := by
  rw [item, h]

/-! ## Parts of a text -/

/-- A text in two parts, the first of which has `count` octets; none if the text is shorter or a
character lies across the end. -/
def cutAt? (count : Nat) : List Char → Option (List Char × List Char)
  | [] => if count = 0 then some ([], []) else none
  | c :: cs =>
    if count = 0 then some ([], c :: cs)
    else if count < Text.Utf8.width c then none
    else (cutAt? (count - Text.Utf8.width c) cs).map fun (front, back) => (c :: front, back)

/-- A text is cut behind every part of it that it begins with. -/
theorem cutAt?_append (front back : List Char) :
    cutAt? (Text.Utf8.size front) (front ++ back) = some (front, back) := by
  induction front with
  | nil => cases back <;> rfl
  | cons c front ih =>
    -- no character is empty, so the cut is not in front of one that belongs to it
    have hwidth := Text.Utf8.width_pos c
    rw [List.cons_append, cutAt?, Text.Utf8.size, if_neg (by omega), if_neg (by omega),
      Nat.add_sub_cancel_left, ih]
    rfl

def octetsBetween? (first last : Nat) (cs : List Char) : Option (List Char) :=
  if first ≤ last then do
    let (_, back) ← cutAt? first cs
    let (front, _) ← cutAt? (last - first) back
    return front
  else none

theorem octetsBetween?_append (front part back : List Char) :
    octetsBetween? (Text.Utf8.size front) (Text.Utf8.size front + Text.Utf8.size part)
      (front ++ (part ++ back)) = some part := by
  rw [octetsBetween?, if_pos (Nat.le_add_right _ _), cutAt?_append, Nat.add_sub_cancel_left]
  simp only [bind, Option.bind_some, cutAt?_append]
  rfl

/-! ## Where the lines begin -/

/-- The offsets behind the line feeds of a text that `offset` octets come before. -/
def behindFeeds (offset : Nat) : List Char → Except Fault (List Nat)
  | [] => return []
  | c :: cs => do
    let rest ← behindFeeds (offset + Text.Utf8.width c) cs
    if c = '\n' then return (← add offset 1) :: rest else return rest

/-- A text with the offsets at which its lines begin. -/
structure LineIndex where
  text : List Char
  starts : List Nat

def LineIndex.build (s : SourceFile) : Except Fault LineIndex := do
  let starts ← behindFeeds 0 s.text.toList
  return ⟨s.text.toList, 0 :: starts⟩

/-- The offsets at which lines begin that are `offset` octets away from the beginning. -/
def startsFrom (offset : Nat) : List (List Char) → List Nat
  | [] => []
  | line :: lines => offset :: startsFrom (offset + Text.Utf8.size line + 1) lines

/-- The offsets behind the line feeds are those at which all lines but the first begin. -/
theorem behindFeeds_eq {cs : List Char} {offset : Nat} (h : offset + Text.Utf8.size cs < 2 ^ 64)
    {line : List Char} {lines : List (List Char)} (hsplit : Text.splitOn '\n' cs = line :: lines) :
    behindFeeds offset cs = .ok (startsFrom (offset + Text.Utf8.size line + 1) lines) := by
  induction cs generalizing offset line lines with
  | nil =>
    obtain ⟨rfl, rfl⟩ := List.cons.inj hsplit
    rfl
  | cons c cs ih =>
    obtain ⟨next, rest, hrest⟩ := List.exists_cons_of_ne_nil (Text.splitOn_ne_nil '\n' cs)
    rw [Text.Utf8.size] at h
    have hbound : offset + Text.Utf8.width c + Text.Utf8.size cs < 2 ^ 64 := by omega
    have ih := ih hbound hrest
    rw [Text.splitOn, hrest] at hsplit
    rw [behindFeeds, ih, ok_bind]
    -- a line feed closes a line, any other character belongs to the first one left
    by_cases hfeed : c = '\n'
    · rw [if_pos hfeed] at hsplit
      obtain ⟨rfl, rfl⟩ := List.cons.inj hsplit
      have hwidth : Text.Utf8.width c = 1 := by rw [hfeed]; rfl
      have hnext : offset + 1 < 2 ^ 64 := by omega
      rw [if_pos hfeed, add_of_lt hnext, ok_bind, hwidth]
      rfl
    · rw [if_neg hfeed] at hsplit
      obtain ⟨rfl, rfl⟩ := List.cons.inj hsplit
      rw [if_neg hfeed, Text.Utf8.size, ← Nat.add_assoc]
      rfl

def index (s : SourceFile) : LineIndex := ⟨s.text.toList, startsFrom 0 s.rawLines⟩

/-- A text of less than `2 ^ 63` octets is indexed without overflow. -/
theorem build_eq {s : SourceFile} (h : s.size < 2 ^ 63) : LineIndex.build s = .ok (index s) := by
  obtain ⟨line, lines, hsplit⟩ :=
    List.exists_cons_of_ne_nil (Text.splitOn_ne_nil '\n' s.text.toList)
  have hsize : 0 + Text.Utf8.size s.text.toList < 2 ^ 64 := by
    rw [Nat.zero_add]
    exact Nat.lt_trans h (by decide)
  rw [LineIndex.build, behindFeeds_eq hsize hsplit, index, SourceFile.rawLines, hsplit]
  rfl

example : (index ⟨"ab\r\nc\n"⟩).starts = [0, 4, 6] := by
  decide +kernel

theorem length_startsFrom (offset : Nat) (lines : List (List Char)) :
    (startsFrom offset lines).length = lines.length := by
  induction lines generalizing offset with
  | nil => rfl
  | cons line lines ih => rw [startsFrom, List.length_cons, List.length_cons, ih]

/-- Where a line begins, and where the next one does if there is one. -/
theorem startsFrom_of_getElem? {lines : List (List Char)} {k : Nat} {line : List Char}
    (h : lines[k]? = some line) (offset : Nat) :
    ∃ front back, Text.joinWith '\n' lines = front ++ (line ++ back) ∧
      (startsFrom offset lines)[k]? = some (offset + Text.Utf8.size front) ∧
      ((startsFrom offset lines)[k + 1]? =
          some (offset + Text.Utf8.size front + Text.Utf8.size line + 1) ∨
        (startsFrom offset lines)[k + 1]? = none ∧ back = []) := by
  induction lines generalizing offset k with
  | nil => simp at h
  | cons first lines ih =>
    cases k with
    | zero =>
      obtain rfl : first = line := by simpa using h
      cases lines with
      | nil => exact ⟨[], [], by simp [Text.joinWith], rfl, .inr ⟨rfl, rfl⟩⟩
      | cons next lines =>
        exact ⟨[], '\n' :: Text.joinWith '\n' (next :: lines), rfl, rfl, .inl rfl⟩
    | succ k =>
      rw [List.getElem?_cons_succ] at h
      have hne : lines ≠ [] := by
        rintro rfl
        cases h
      obtain ⟨front, back, hjoin, hstart, hnext⟩ :=
        ih h (offset + Text.Utf8.size first + 1)
      have hsize : offset + Text.Utf8.size first + 1 + Text.Utf8.size front =
          offset + Text.Utf8.size (first ++ '\n' :: front) := by
        rw [Text.Utf8.size_append, Text.Utf8.size, show Text.Utf8.width '\n' = 1 from rfl]
        omega
      rw [hsize] at hstart hnext
      -- what comes before the line now has the first line and its line feed in front
      refine ⟨first ++ '\n' :: front, back, ?_, hstart, hnext⟩
      rw [Text.joinWith.eq_3 _ _ _ hne, hjoin]
      simp

theorem starts_eq_none {s : SourceFile} {k : Nat} (h : s.rawLines[k]? = none) :
    (index s).starts[k]? = none := by
  rw [List.getElem?_eq_none_iff] at h ⊢
  rwa [index, length_startsFrom]

/-- A line lies between its start and the one after it, or the end of the text. -/
theorem exists_start {s : SourceFile} {k : Nat} {raw : List Char} (h : s.rawLines[k]? = some raw) :
    ∃ start, (index s).starts[k]? = some start ∧
      octetsBetween? start (start + Text.Utf8.size raw) (index s).text = some raw ∧
      ((index s).starts[k + 1]? = some (start + Text.Utf8.size raw + 1) ∨
        (index s).starts[k + 1]? = none ∧
          Text.Utf8.size (index s).text = start + Text.Utf8.size raw) := by
  obtain ⟨front, back, htext, hstart, hnext⟩ := startsFrom_of_getElem? h 0
  rw [SourceFile.rawLines, Text.joinWith_splitOn] at htext
  rw [Nat.zero_add] at hstart hnext
  refine ⟨Text.Utf8.size front, hstart, ?_, ?_⟩
  · rw [index, htext, octetsBetween?_append]
  · obtain hnext | ⟨hnext, rfl⟩ := hnext
    · exact .inl hnext
    · refine .inr ⟨hnext, ?_⟩
      rw [index, htext, List.append_nil, Text.Utf8.size_append]

/-! ## Lines -/

namespace LineIndex

def line (ix : LineIndex) (k : Nat) : Except Fault (Option (List Char)) :=
  match (sub? k 1).bind (ix.starts[·]?) with
  | none => return none
  | some start => do
    let stop ← match ix.starts[k]? with
      | some next => sub next 1
      | none => pure (Text.Utf8.size ix.text)
    return (octetsBetween? start stop ix.text).map SourceFile.dropCarriageReturn

end LineIndex

/-- A line is found by its start and the one after it, whatever its number is. -/
theorem line_eq (s : SourceFile) (k : Nat) : (index s).line k = .ok (s.line? k) := by
  cases k with
  | zero => rfl
  | succ k =>
    have hbefore : (sub? (k + 1) 1).bind ((index s).starts[·]?) = (index s).starts[k]? := by
      rw [sub?, if_pos (by omega), Option.bind_some, Nat.add_sub_cancel]
    have hline : s.line? (k + 1) = s.rawLines[k]?.map SourceFile.dropCarriageReturn := by
      rw [SourceFile.line?, if_neg (Nat.succ_ne_zero k), Nat.add_sub_cancel, SourceFile.lines,
        List.getElem?_map]
    rw [LineIndex.line, hbefore, hline]
    cases hraw : s.rawLines[k]? with
    | none => rw [starts_eq_none hraw]; rfl
    | some raw =>
      -- the line ends before the next start, or with the text
      obtain ⟨start, hstart, hpart, hnext | ⟨hnext, hend⟩⟩ := exists_start hraw
      · simp only [hstart, hnext, sub_of_le (Nat.le_add_left 1 _), ok_bind, Nat.add_sub_cancel,
          hpart]
        rfl
      · simp only [hstart, hnext, hend, pure_bind, hpart]
        rfl

/-! ## Lines and columns -/

namespace LineIndex

def lineColumn (ix : LineIndex) (offset : Nat) : Except Fault (Option (Nat × Nat)) := do
  if Text.Utf8.size ix.text < offset then return none
  -- the starts ascend, so those up to the offset come first
  let line := (ix.starts.takeWhile (· ≤ offset)).length
  let start ← item ix.starts (← sub line 1)
  return some (line, ← add (← sub offset start) 1)

end LineIndex

/-- The last start up to an offset is that of the line of the offset. -/
theorem takeWhile_startsFrom {lines : List (List Char)} {line column offset : Nat} (base : Nat)
    {number : Nat} (h : SourceFile.locate? number offset lines = some (line, column)) :
    ∃ start k, ((startsFrom base lines).takeWhile (· ≤ base + offset)).length = k + 1 ∧
      (startsFrom base lines)[k]? = some start ∧ start ≤ base + offset ∧
      line = number + k ∧ column = base + offset - start + 1 := by
  -- over the lines, as `locate?` goes; `base` is the offset at which the first of them begins
  induction lines generalizing number offset base with
  | nil => cases h
  | cons first lines ih =>
    rw [SourceFile.locate?] at h
    rw [startsFrom, List.takeWhile_cons_of_pos (by simp)]
    split at h
    · next hle =>
      obtain ⟨rfl, rfl⟩ := Prod.mk.inj (Option.some.inj h)
      -- the next line begins behind the offset
      have hstop : (startsFrom (base + Text.Utf8.size first + 1) lines).takeWhile
          (· ≤ base + offset) = [] := by
        cases lines with
        | nil => rfl
        | cons next lines =>
          rw [startsFrom, List.takeWhile_cons_of_neg]
          simpa using by omega
      rw [hstop]
      exact ⟨base, 0, rfl, rfl, Nat.le_add_right base offset, rfl, by omega⟩
    · next hlt =>
      obtain ⟨start, k, hcount, hstart, hle, hline, hcolumn⟩ :=
        ih (base + Text.Utf8.size first + 1) h
      have hoffset : base + Text.Utf8.size first + 1 + (offset - Text.Utf8.size first - 1) =
          base + offset := by omega
      rw [hoffset] at hcount hle hcolumn
      refine ⟨start, k + 1, ?_, hstart, hle, by omega, hcolumn⟩
      rw [List.length_cons, hcount]

theorem coordinates?_eq_none_iff {s : SourceFile} {offset : Nat} :
    s.coordinates? offset = none ↔ s.size < offset := by
  have hsize : s.octets.length = s.size := Text.Utf8.length_encode _
  rw [SourceFile.coordinates?_eq, hsize]
  split <;> simp <;> omega

/-- The start of the line of an offset is there and is not behind the offset. -/
theorem lineColumn_eq {s : SourceFile} (h : s.size < 2 ^ 63) (offset : Nat) :
    (index s).lineColumn offset = .ok (s.coordinates? offset) := by
  have hsize : Text.Utf8.size (index s).text = s.size := rfl
  rw [LineIndex.lineColumn, hsize]
  cases hplace : s.coordinates? offset with
  | none => rw [if_pos (coordinates?_eq_none_iff.mp hplace)]; rfl
  | some place =>
    obtain ⟨line, column⟩ := place
    have hle : ¬ s.size < offset := by
      rw [← coordinates?_eq_none_iff, hplace]
      exact Option.some_ne_none _
    obtain ⟨start, k, hcount, hstart, hstartle, rfl, rfl⟩ := takeWhile_startsFrom 0 hplace
    simp only [Nat.zero_add] at hcount hstartle
    have hstart : (index s).starts[k]? = some start := hstart
    have hcount : ((index s).starts.takeWhile (· ≤ offset)).length = k + 1 := hcount
    have hsum : offset - start + 1 < 2 ^ 64 := by omega
    simp only [if_neg hle, hcount, sub_of_le (Nat.le_add_left 1 k), ok_bind, Nat.add_sub_cancel,
      item_of_getElem? hstart, sub_of_le hstartle, add_of_lt hsum, Nat.add_comm 1 k, Nat.zero_add]
    rfl

/-! ## Positions and ranges of lines -/

namespace LineIndex

/-- The position of an offset, if its numbers fit into four bytes. -/
def position (ix : LineIndex) (offset : Nat) : Except Fault (Option SourcePosition) := do
  match ← ix.lineColumn offset with
  | none => return none
  | some (line, column) =>
    match ← ix.line line with
    | none => return none
    | some text =>
      return do
        return { line := ← fitUInt32? line
                 column := ← fitUInt32? column
                 snippet := .ofList (Text.trim text) }

end LineIndex

theorem position_eq {s : SourceFile} (h : s.size < 2 ^ 63) (offset : Nat) :
    (index s).position offset = .ok (s.position? offset) := by
  rw [LineIndex.position, SourceFile.position?, lineColumn_eq h, ok_bind]
  cases s.coordinates? offset with
  | none => rfl
  | some place =>
    simp only [line_eq, ok_bind, Option.bind_eq_bind, Option.bind_some]
    cases s.line? place.1 <;> rfl

/-- The answers to a query at some numbers, one after the other; none from the first that has
none. -/
def collect (query : Nat → Except Fault (Option α)) : List Nat → Except Fault (Option (List α))
  | [] => return some []
  | k :: ks => do
    match ← query k with
    | none => return none
    | some a => return (← collect query ks).map (a :: ·)

/-- A query that always answers can be collected over any numbers. -/
theorem collect_eq {query : Nat → Except Fault (Option α)} {f : Nat → Option α}
    (h : ∀ k, query k = .ok (f k)) (ks : List Nat) : collect query ks = .ok (ks.mapM f) := by
  induction ks with
  | nil => rfl
  | cons k ks ih =>
    rw [collect, h, ok_bind, List.mapM_cons]
    cases f k with
    | none => rfl
    | some a =>
      dsimp only
      rw [ih, ok_bind]
      cases ks.mapM f <;> rfl

namespace LineIndex

def lines (ix : LineIndex) (first last : Nat) : Except Fault (Option String) := do
  let lines ← collect ix.line (List.range' first (last + 1 - first))
  return lines.map fun lines => .ofList (Text.joinWith '\n' lines)

end LineIndex

/-- Lines that follow one another are a part of all lines, if that many are there. -/
theorem mapM_line?_range' (s : SourceFile) (first count : Nat) :
    (List.range' (first + 1) count).mapM s.line? =
      if count = 0 ∨ first + count ≤ s.lineCount then some ((s.lines.drop first).take count)
      else none := by
  -- over the number of lines that are asked for
  induction count generalizing first with
  | zero => simp
  | succ count ih =>
    have hline : s.line? (first + 1) = s.lines[first]? := rfl
    rw [List.range'_succ, List.mapM_cons, ih, hline, SourceFile.lineCount_eq]
    by_cases hlt : first < s.lines.length
    · rw [List.getElem?_eq_getElem hlt, List.drop_eq_getElem_cons hlt, List.take_succ_cons]
      by_cases hrest : first + (count + 1) ≤ s.lines.length
      · rw [if_pos (by omega), if_pos (by omega)]
        rfl
      · rw [if_neg (by omega), if_neg (by omega)]
        rfl
    · have hrest : ¬ (count + 1 = 0 ∨ first + (count + 1) ≤ s.lines.length) := by omega
      rw [List.getElem?_eq_none (by omega), if_neg hrest]
      rfl

theorem mapM_line?_range (s : SourceFile) (first last : Nat) :
    (List.range' first (last + 1 - first)).mapM s.line? = s.lineRange? first last := by
  unfold SourceFile.lineRange?
  split
  · next hlt => rw [show last + 1 - first = 0 by omega]; rfl
  · next hle =>
    cases first with
    | zero =>
      rw [Nat.sub_zero, List.range'_succ, List.mapM_cons, if_pos (.inl rfl)]
      rfl
    | succ first =>
      rw [mapM_line?_range', Nat.add_sub_cancel]
      by_cases hlast : s.lineCount < last
      · rw [if_neg (by omega), if_pos (.inr hlast)]
      · rw [if_pos (by omega), if_neg (by omega)]

theorem lines_eq (s : SourceFile) (first last : Nat) :
    (index s).lines first last = .ok (s.slice? first last) := by
  rw [LineIndex.lines, collect_eq (line_eq s), mapM_line?_range]
  rfl

end Machine

end TxForensics
