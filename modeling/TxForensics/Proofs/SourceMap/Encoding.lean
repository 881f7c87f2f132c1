import TxForensics.Proofs.SourceMap.Inheritance
import Mathlib.Data.List.TakeWhile

/-!
# Written source maps

`encode` writes every field of every range. Read back, a map gives one entry for each range, up to
the first with a number that a map cannot hold, and that number is what the error names. A range
without source keeps the start and length that were the last to be numbers, and belongs to no file.

The reader is followed along the ranges with what its fields recall of those already read:

    fields recall the ranges before ──read r──▶ fields recall them and r, giving `entryAt before r`

Fields that repeat the range before may be left blank, and blank fields that end a segment left out
(`encodeAbbreviated`). What is left blank is what the fields still hold, so a segment has the same
effect with and without it, and the map reads the same.
-/

namespace TxForensics.SourceMap

/-! ## The numbers of a range -/

def numeral (n : Int) : List Char := (Text.Numeral.signed n).toList

def isOffset (n : Int) : Bool := n = -1 ∨ 0 ≤ n ∧ n < 2 ^ 32

def offset (n : Int) : Option UInt32 := if 0 ≤ n then some n.toNat.toUInt32 else none

namespace Range

/-- The first number of a range that a map cannot hold, with its field. -/
def firstIllegal? (r : Range) : Option (Field × Int) :=
  [(Field.start, r.start), (.length, r.length), (.fileIndex, r.fileIndex)].find?
    fun (_, n) => !isOffset n

def isLegal (r : Range) : Bool := isOffset r.start && isOffset r.length && isOffset r.fileIndex

def text (r : Range) : Field → List Char
  | .start => numeral r.start
  | .length => numeral r.length
  | .fileIndex => numeral r.fileIndex
  | .jump => Jump.regular.text.toList
  | .modifierDepth => []

def segment (r : Range) : Segment :=
  { start := some (offset r.start)
    length := some (offset r.length)
    fileIndex := some (offset r.fileIndex)
    jump := some .regular
    modifierDepth := none }

end Range

/-! ## The entries of ranges -/

def lastOffset (ns : List Int) : UInt32 := ((ns.filter (0 ≤ ·)).getLast?.getD 0).toNat.toUInt32

/-- The entry of a range after others. -/
def entryAt (before : List Range) (r : Range) : Entry :=
  { start := lastOffset (before.map Range.start ++ [r.start])
    length := lastOffset (before.map Range.length ++ [r.length])
    fileIndex :=
      if 0 ≤ r.start ∧ 0 ≤ r.length ∧ 0 ≤ r.fileIndex then some r.fileIndex.toNat.toUInt32 else none
    jump := .regular
    modifierDepth := none }

/-! ## Ranges with fields left blank -/

/-- Some texts without the empty ones at their end, of which the first `keep` texts are none. -/
def dropBlank : Nat → List (List Char) → List (List Char)
  | _, [] => []
  | 0, text :: texts =>
    if text = [] ∧ dropBlank 0 texts = [] then [] else text :: dropBlank 0 texts
  | keep + 1, text :: texts => text :: dropBlank keep texts

def segmentOfTexts (keep : Nat) (texts : Field → List Char) : List Char :=
  Text.joinWith ':' (dropBlank keep [texts .start, texts .length, texts .fileIndex, texts .jump])

/-- The text of a field, left blank if it is to be and repeats the range before. -/
def Range.textAfter (r before : Range) (blank : Field → Bool) (field : Field) : List Char :=
  if blank field = true ∧ r.text field = before.text field then [] else r.text field

/-- How a segment is abbreviated. -/
structure Abbreviation where
  /-- The fields to leave blank where they repeat the segment before. -/
  blank : Field → Bool
  /-- How many fields to write even if they are blank and end the segment. -/
  keep : Nat

/-- The segments of ranges after `before`, the first of them with the index `index`. -/
def abbreviatedAfter (how : Nat → Abbreviation) (index : Nat) (before : Range) :
    List Range → List (List Char)
  | [] => []
  | r :: rs =>
    segmentOfTexts (how index).keep (r.textAfter before (how index).blank) ::
      abbreviatedAfter how (index + 1) r rs

/-- The source map of a list of ranges, every segment but the first abbreviated as `how` says for
its index. -/
def encodeAbbreviated (how : Nat → Abbreviation) : List Range → String
  | [] => ""
  | r :: rs => .ofList (Text.joinWith ';' (segmentOfRange r :: abbreviatedAfter how 1 r rs))

/-! ## Reading a number -/

theorem numeral_of_nonneg {n : Int} (h : 0 ≤ n) : numeral n = Nat.toDigits 10 n.toNat := by
  obtain ⟨m, rfl⟩ := Int.eq_ofNat_of_zero_le h
  rw [numeral, Text.Numeral.signed, if_neg (Int.not_lt.mpr h), Text.Numeral.decimal,
    String.toList_ofList]
  rfl

theorem numeral_of_neg {n : Int} (h : n < 0) : numeral n = '-' :: Nat.toDigits 10 n.natAbs := by
  rw [numeral, Text.Numeral.signed, if_pos h, Text.Numeral.decimal]
  simp

theorem numeral_ne_nil (n : Int) : numeral n ≠ [] := by
  by_cases h : 0 ≤ n
  · rw [numeral_of_nonneg h]
    exact Nat.toDigits_ne_nil
  · rw [numeral_of_neg (Int.not_le.mp h)]
    exact List.cons_ne_nil _ _

theorem mem_numeral {n : Int} {c : Char} (h : c ∈ numeral n) : c = '-' ∨ c.isDigit = true := by
  by_cases hn : 0 ≤ n
  · rw [numeral_of_nonneg hn] at h
    exact .inr (Nat.isDigit_of_mem_toDigits (by decide) (by decide) h)
  · rw [numeral_of_neg (Int.not_le.mp hn)] at h
    rcases List.mem_cons.mp h with rfl | h
    · exact .inl rfl
    · exact .inr (Nat.isDigit_of_mem_toDigits (by decide) (by decide) h)

/-- A numeral is the number of four bytes that it denotes, if it denotes one. -/
theorem number?_numeral (n : Int) :
    number? (numeral n) = if 0 ≤ n ∧ n < 2 ^ 32 then some n.toNat.toUInt32 else none := by
  by_cases h : 0 ≤ n
  · rw [number?, numeral_of_nonneg h, Text.Numeral.unsigned?_toDigits, Option.filter_some]
    by_cases hlt : n.toNat < 2 ^ 32
    · rw [if_pos (decide_eq_true hlt), if_pos (by omega)]
      rfl
    · rw [if_neg (by simpa using hlt), if_neg (by omega)]
      rfl
  · rw [number?, numeral_of_neg (Int.not_le.mp h), if_neg (by omega)]
    rfl

theorem not_minus_mem_toDigits (n : Nat) : '-' ∉ Nat.toDigits 10 n := by
  intro h
  exact absurd (Nat.isDigit_of_mem_toDigits (by decide) (by decide) h) (by decide)

/-- Only the number -1 is written like what stands for no source. -/
theorem numeral_eq_noSource_iff {n : Int} : numeral n = noSource ↔ n = -1 := by
  constructor
  · intro h
    by_cases hn : 0 ≤ n
    · rw [numeral_of_nonneg hn] at h
      exact absurd (h ▸ List.mem_cons_self) (not_minus_mem_toDigits n.toNat)
    · rw [numeral_of_neg (Int.not_le.mp hn)] at h
      have hone : Nat.toDigits 10 n.natAbs = Nat.toDigits 10 1 := (List.cons.inj h).2
      -- the digits of two numbers are the same only if the numbers are
      have habs := congrArg (Nat.ofDigitChars 10 · 0) hone
      simp only [Nat.ofDigitChars_ten_toDigits] at habs
      omega
  · rintro rfl
    decide

/-- A number that a map can hold is read as such, and no other is read. -/
theorem readOffset?_numeral (n : Int) :
    readOffset? (numeral n) = if isOffset n then some (offset n) else none := by
  rw [readOffset?_eq]
  by_cases hsource : n = -1
  · subst hsource
    decide
  · have hlegal : isLegal .start (numeral n) = isOffset n := by
      simp [isLegal, isOffset, numeral_eq_noSource_iff, hsource, number?_numeral]
    rw [hlegal]
    split
    · next hoffset =>
      have hbounds : 0 ≤ n ∧ n < 2 ^ 32 := by simpa [isOffset, hsource] using hoffset
      rw [number?_numeral, if_pos hbounds, offset, if_pos hbounds.1]
    · rfl

/-- A field with a numeral is read, or its numeral is the error. -/
theorem readField_numeral (field : Field) (n : Int) :
    readField field readOffset? (numeral n) =
      if isOffset n then .ok (some (offset n)) else .error (field, numeral n) := by
  rw [readField, if_neg (numeral_ne_nil n), readOffset?_numeral]
  cases isOffset n <;> rfl

/-! ## Reading a segment -/

/-- Texts with the characters of numerals. -/
def IsPlain (texts : Field → List Char) : Prop :=
  ∀ field, ∀ c ∈ texts field, c = '-' ∨ c.isDigit = true

theorem mem_of_mem_dropBlank {keep : Nat} {texts : List (List Char)} {text : List Char}
    (h : text ∈ dropBlank keep texts) : text ∈ texts := by
  induction texts generalizing keep with
  | nil => cases keep <;> cases h
  | cons t texts ih =>
    have hmem {k : Nat} (h : text ∈ t :: dropBlank k texts) : text ∈ t :: texts := by
      rcases List.mem_cons.mp h with rfl | h
      · exact List.mem_cons_self
      · exact List.mem_cons_of_mem t (ih h)
    cases keep with
    | succ keep => exact hmem h
    | zero =>
      rw [dropBlank] at h
      split at h
      · cases h
      · exact hmem h

/-- A text that was left out is as blank as one that was never there. -/
theorem getD_dropBlank (keep : Nat) (texts : List (List Char)) (i : Nat) :
    (dropBlank keep texts).getD i [] = texts.getD i [] := by
  induction texts generalizing keep i with
  | nil => cases keep <;> rfl
  | cons t texts ih =>
    have hcons (k : Nat) : (t :: dropBlank k texts).getD i [] = (t :: texts).getD i [] := by
      cases i with
      | zero => rfl
      | succ i => exact ih k i
    cases keep with
    | succ keep => exact hcons keep
    | zero =>
      rw [dropBlank]
      split
      · next h =>
        -- only empty texts were left out, and reading past the end gives an empty text, too
        rw [← hcons 0, h.1, h.2]
        cases i <;> rfl
      · exact hcons 0

theorem isPlain_fields {texts : Field → List Char} (h : IsPlain texts) {keep : Nat}
    {text : List Char}
    (htext : text ∈ dropBlank keep [texts .start, texts .length, texts .fileIndex, texts .jump])
    {c : Char} (hc : c ∈ text) : c = '-' ∨ c.isDigit = true := by
  have hmem := mem_of_mem_dropBlank htext
  simp only [List.mem_cons, List.not_mem_nil, or_false] at hmem
  rcases hmem with rfl | rfl | rfl | rfl
  · exact h .start c hc
  · exact h .length c hc
  · exact h .fileIndex c hc
  · exact h .jump c hc

/-- The fields of a written segment are its texts; a field that was left out is empty. -/
theorem getD_splitOn_segmentOfTexts (keep : Nat) {texts : Field → List Char} (h : IsPlain texts)
    (i : Nat) :
    (Text.splitOn ':' (segmentOfTexts keep texts)).getD i [] =
      [texts .start, texts .length, texts .fileIndex, texts .jump].getD i [] := by
  rw [segmentOfTexts, Text.getD_splitOn_joinWith, getD_dropBlank]
  intro text htext hcolon
  exact absurd (isPlain_fields h htext hcolon) (by decide)

/-- Reading a written segment is reading its texts one by one. -/
theorem readSegment_segmentOfTexts (keep : Nat) {texts : Field → List Char} (h : IsPlain texts) :
    readSegment (segmentOfTexts keep texts) = (do
      let start ← readField .start readOffset? (texts .start)
      let length ← readField .length readOffset? (texts .length)
      let fileIndex ← readField .fileIndex readOffset? (texts .fileIndex)
      let jump ← readField .jump Jump.ofText? (texts .jump)
      return { start, length, fileIndex, jump, modifierDepth := none }) := by
  simp only [readSegment, getD_splitOn_segmentOfTexts keep h]
  rfl

theorem segmentOfRange_eq (r : Range) : segmentOfRange r = segmentOfTexts 4 r.text := rfl

theorem isPlain_text (r : Range) : IsPlain r.text := by
  intro field c hc
  cases field with
  | start => exact mem_numeral hc
  | length => exact mem_numeral hc
  | fileIndex => exact mem_numeral hc
  | jump => exact .inl (List.mem_singleton.mp hc)
  | modifierDepth => cases hc

/-- The segment of a range is read unless a map cannot hold one of its numbers; the first of these
is reported. -/
theorem readSegment_segmentOfRange (r : Range) :
    readSegment (segmentOfRange r) =
      match r.firstIllegal? with
      | some (field, n) => .error (field, numeral n)
      | none => .ok r.segment := by
  rw [segmentOfRange_eq, readSegment_segmentOfTexts 4 (isPlain_text r)]
  simp only [Range.text, readField_numeral, Range.firstIllegal?, List.find?_cons]
  -- the fields are looked at in the order in which they are reported
  cases isOffset r.start with
  | false => rfl
  | true =>
    cases isOffset r.length with
    | false => rfl
    | true => cases isOffset r.fileIndex <;> rfl

theorem parseSegments_cons (index : Nat) (before : Fields) (seg : List Char)
    (segs : List (List Char)) :
    parseSegments index before (seg :: segs) =
      match (readSegment seg).map before.spell with
      | .error (field, value) => ⟨[], some ⟨index, field, .ofList value⟩⟩
      | .ok fields =>
        let rest := parseSegments (index + 1) fields segs
        ⟨fields.entry :: rest.entries, rest.error⟩ := by
  rw [parseSegments]
  cases readSegment seg <;> rfl

/-! ## What fields recall of the ranges before -/

/-- The fields after some ranges, as far as a later range depends on them. -/
structure Fields.Recalls (f : Fields) (before : List Range) : Prop where
  lastStart : f.lastStart = lastOffset (before.map Range.start)
  lastLength : f.lastLength = lastOffset (before.map Range.length)
  modifierDepth : f.modifierDepth = none

/-- A number that stands for a source is the last one, and any other leaves the one before. -/
theorem lastOffset_concat (ns : List Int) (n : Int) :
    lastOffset (ns ++ [n]) = (offset n).getD (lastOffset ns) := by
  rw [lastOffset, lastOffset, List.filter_append, offset]
  by_cases h : 0 ≤ n
  · rw [if_pos h, List.filter_cons_of_pos (by simpa using h)]
    simp
  · rw [if_neg h, List.filter_cons_of_neg (by simpa using h)]
    simp

variable {f : Fields} {before : List Range}

/-- **One range more**: fields that recall the ranges before also recall one that is read. -/
theorem Fields.Recalls.spell (h : f.Recalls before) (r : Range) :
    (f.spell r.segment).Recalls (before ++ [r]) := by
  refine ⟨?_, ?_, ?_⟩
  · rw [List.map_append, List.map_singleton, lastOffset_concat, ← h.lastStart]
    rfl
  · rw [List.map_append, List.map_singleton, lastOffset_concat, ← h.lastLength]
    rfl
  · exact h.modifierDepth

/-- What the fields then describe is the entry of the range. -/
theorem Fields.Recalls.entry_spell (h : f.Recalls before) (r : Range) :
    (f.spell r.segment).entry = entryAt before r := by
  have hfile : (if (offset r.start).isSome && (offset r.length).isSome then offset r.fileIndex
      else none) =
      if 0 ≤ r.start ∧ 0 ≤ r.length ∧ 0 ≤ r.fileIndex then some r.fileIndex.toNat.toUInt32
      else none := by
    simp only [offset]
    by_cases hstart : 0 ≤ r.start
    · by_cases hlength : 0 ≤ r.length
      · simp [hstart, hlength]
      · simp [hlength]
    · simp [hstart]
  have hlast (n : Int) (last : UInt32) :
      (offset n).getD ((offset n).getD last) = (offset n).getD last := by
    cases offset n <;> rfl
  rw [entryAt, lastOffset_concat, lastOffset_concat, ← h.lastStart, ← h.lastLength, ← hfile]
  simp only [Fields.entry, Fields.spell, Range.segment, Option.getD_some, hlast, h.modifierDepth]
  rfl

theorem Fields.recalls_nil : Fields.Recalls {} [] := ⟨rfl, rfl, rfl⟩

/-! ## Reading ranges -/

theorem firstIllegal?_eq_none_iff {r : Range} : r.firstIllegal? = none ↔ r.isLegal = true := by
  simp [Range.firstIllegal?, Range.isLegal, and_assoc]

/-- **Reading ranges**: every range gives its entry, up to the first that a map cannot hold. -/
theorem parseSegments_map_segmentOfRange (index : Nat) (h : f.Recalls before) (rs : List Range) :
    parseSegments index f (rs.map segmentOfRange) =
      { entries := (rs.takeWhile Range.isLegal).mapIdx fun i r => entryAt (before ++ rs.take i) r
        error := ((rs.dropWhile Range.isLegal).head?.bind Range.firstIllegal?).map
          fun (field, n) => ⟨index + (rs.takeWhile Range.isLegal).length, field,
            Text.Numeral.signed n⟩ } := by
  -- on the ranges still to be read; the fields recall one more of them after each
  induction rs generalizing index f before with
  | nil => rfl
  | cons r rs ih =>
    rw [List.map_cons, parseSegments_cons, readSegment_segmentOfRange]
    cases hillegal : r.firstIllegal? with
    | some found =>
      have hr : r.isLegal = false := by
        rw [← Bool.not_eq_true, ← firstIllegal?_eq_none_iff, hillegal]
        exact Option.some_ne_none found
      obtain ⟨field, n⟩ := found
      simp [Except.map, hr, hillegal, numeral]
    | none =>
      have hr : r.isLegal = true := firstIllegal?_eq_none_iff.mp hillegal
      simp only [Except.map, ih (index + 1) (h.spell r), h.entry_spell r]
      simp [hr, Nat.add_assoc, Nat.add_comm 1]

/-! ## Fields left blank -/

/-- The fields right behind a range that could be read. -/
structure Fields.Holds (f : Fields) (r : Range) : Prop where
  legal : r.isLegal = true
  start : f.start = offset r.start
  length : f.length = offset r.length
  fileIndex : f.fileIndex = offset r.fileIndex
  jump : f.jump = .regular

theorem Fields.holds_spell {r : Range} (h : r.isLegal = true) (f : Fields) :
    (f.spell r.segment).Holds r := ⟨h, rfl, rfl, rfl, rfl⟩

/-- A field shows its text, or it is blank and repeats the range before. -/
theorem Range.textAfter_cases (r last : Range) (blank : Field → Bool) (field : Field) :
    r.textAfter last blank field = r.text field ∨
      r.textAfter last blank field = [] ∧ r.text field = last.text field := by
  rw [textAfter]
  split
  · next h => exact .inr ⟨rfl, h.2⟩
  · exact .inl rfl

theorem isPlain_textAfter (r last : Range) (blank : Field → Bool) :
    IsPlain (r.textAfter last blank) := by
  intro field c hc
  rcases r.textAfter_cases last blank field with h | ⟨h, -⟩
  · exact isPlain_text r field c (h ▸ hc)
  · rw [h] at hc
    cases hc

/-- A field left blank leaves what the text left out would have been read as. -/
theorem map_readField_blank {field : Field} {read? : List Char → Option α} {shown text : List Char}
    {a : α} (h : shown = text ∨ shown = [] ∧ read? text = some a) :
    (readField field read? shown).map (·.getD a) = (readField field read? text).map (·.getD a) := by
  rcases h with rfl | ⟨rfl, hread⟩
  · rfl
  · unfold readField
    rw [if_pos rfl, hread]
    split <;> rfl

/-- Reading a segment changes the fields by what each of its texts leaves. -/
theorem map_spell_readSegment (f : Fields) (keep : Nat) {texts : Field → List Char}
    (h : IsPlain texts) :
    (readSegment (segmentOfTexts keep texts)).map f.spell = (do
      let start ← (readField .start readOffset? (texts .start)).map (·.getD f.start)
      let length ← (readField .length readOffset? (texts .length)).map (·.getD f.length)
      let fileIndex ← (readField .fileIndex readOffset? (texts .fileIndex)).map (·.getD f.fileIndex)
      let jump ← (readField .jump Jump.ofText? (texts .jump)).map (·.getD f.jump)
      return { f with
        start, length, fileIndex, jump
        lastStart := start.getD f.lastStart
        lastLength := length.getD f.lastLength }) := by
  rw [readSegment_segmentOfTexts keep h]
  cases readField .start readOffset? (texts .start) with
  | error e => rfl
  | ok start =>
    cases readField .length readOffset? (texts .length) with
    | error e => rfl
    | ok length =>
      cases readField .fileIndex readOffset? (texts .fileIndex) with
      | error e => rfl
      | ok fileIndex => cases readField .jump Jump.ofText? (texts .jump) <;> rfl

/-- Blank or not, a field is what its text says behind the range before. -/
theorem map_readField_textAfter {r last : Range} {blank : Field → Bool} {field : Field}
    {read? : List Char → Option α} {a : α} (hlast : read? (last.text field) = some a) :
    (readField field read? (r.textAfter last blank field)).map (·.getD a) =
      (readField field read? (r.text field)).map (·.getD a) := by
  apply map_readField_blank
  rcases r.textAfter_cases last blank field with hshown | ⟨hshown, hrepeats⟩
  · exact .inl hshown
  · exact .inr ⟨hshown, hrepeats ▸ hlast⟩

/-- **One segment**: what may be left blank makes no difference behind the range that it repeats. -/
theorem map_spell_textAfter {last : Range} (h : f.Holds last) (r : Range) (keep : Nat)
    (blank : Field → Bool) :
    (readSegment (segmentOfTexts keep (r.textAfter last blank))).map f.spell =
      (readSegment (segmentOfRange r)).map f.spell := by
  have hlegal := h.legal
  rw [Range.isLegal, Bool.and_eq_true, Bool.and_eq_true] at hlegal
  obtain ⟨⟨hstart, hlength⟩, hfile⟩ := hlegal
  have hread {n : Int} (hn : isOffset n = true) : readOffset? (numeral n) = some (offset n) := by
    rw [readOffset?_numeral, if_pos hn]
  have hjump : Jump.ofText? (last.text .jump) = some .regular := Jump.ofText?_text .regular
  rw [segmentOfRange_eq, map_spell_readSegment f 4 (isPlain_text r),
    map_spell_readSegment f keep (isPlain_textAfter r last blank), h.start, h.length, h.fileIndex,
    h.jump, map_readField_textAfter (hread hstart), map_readField_textAfter (hread hlength),
    map_readField_textAfter (hread hfile), map_readField_textAfter hjump]

/-- **All segments**: ranges with fields left blank are read as they are with all of them. -/
theorem parseSegments_abbreviatedAfter (how : Nat → Abbreviation) (index position : Nat)
    {last : Range} (h : f.Holds last) (rs : List Range) :
    parseSegments index f (abbreviatedAfter how position last rs) =
      parseSegments index f (rs.map segmentOfRange) := by
  -- over the ranges; what is left blank repeats the range that the fields still hold
  induction rs generalizing index position f last with
  | nil => rfl
  | cons r rs ih =>
    rw [abbreviatedAfter, List.map_cons, parseSegments_cons, parseSegments_cons,
      map_spell_textAfter h, readSegment_segmentOfRange]
    cases hillegal : r.firstIllegal? with
    | some found => rfl -- both stop here, with the same number
    | none =>
      have hr := Fields.holds_spell (firstIllegal?_eq_none_iff.mp hillegal) f
      simp only [Except.map, ih (index + 1) (position + 1) hr]

/-! ## Whole maps -/

/-- The characters of a segment. -/
theorem mem_segmentOfTexts {keep : Nat} {texts : Field → List Char} (h : IsPlain texts) {c : Char}
    (hc : c ∈ segmentOfTexts keep texts) : c = ':' ∨ c = '-' ∨ c.isDigit = true := by
  rcases Text.mem_joinWith hc with rfl | ⟨text, htext, hc⟩
  · exact .inl rfl
  · exact .inr (isPlain_fields h htext hc)

/-- Segments that are written one after the other are the segments of the map. -/
theorem segments_ofList_joinWith {seg : List Char} {segs : List (List Char)} (hseg : seg ≠ [])
    (hchars : ∀ s ∈ seg :: segs, ∀ c ∈ s, c = ':' ∨ c = '-' ∨ c.isDigit = true) :
    segments (.ofList (Text.joinWith ';' (seg :: segs))) = seg :: segs := by
  have hsemicolon : ∀ s ∈ seg :: segs, ';' ∉ s := by
    intro s hs hmem
    exact absurd (hchars s hs ';' hmem) (by decide)
  have htrim : Text.trim (Text.joinWith ';' (seg :: segs)) = Text.joinWith ';' (seg :: segs) := by
    apply Text.trim_eq_self
    intro c hc
    rcases Text.mem_joinWith hc with rfl | ⟨s, hs, hc⟩
    · decide
    · rcases hchars s hs c hc with rfl | rfl | hdigit
      · decide
      · decide
      · exact Text.Numeral.isBlank_of_isDigit hdigit
  rw [segments, String.toList_ofList, htrim]
  split
  · next hnil => exact absurd hnil (Text.joinWith_ne_nil hseg segs)
  · exact Text.splitOn_joinWith (List.cons_ne_nil seg segs) hsemicolon

theorem segmentOfRange_ne_nil (r : Range) : segmentOfRange r ≠ [] :=
  Text.joinWith_ne_nil (numeral_ne_nil r.start) _

theorem mem_segmentOfRange {r : Range} {c : Char} (hc : c ∈ segmentOfRange r) :
    c = ':' ∨ c = '-' ∨ c.isDigit = true := by
  rw [segmentOfRange_eq] at hc
  exact mem_segmentOfTexts (isPlain_text r) hc

theorem mem_abbreviatedAfter {how : Nat → Abbreviation} {position : Nat} {last : Range}
    {rs : List Range} {s : List Char} (hs : s ∈ abbreviatedAfter how position last rs) {c : Char}
    (hc : c ∈ s) : c = ':' ∨ c = '-' ∨ c.isDigit = true := by
  induction rs generalizing position last with
  | nil => cases hs
  | cons r rs ih =>
    rw [abbreviatedAfter, List.mem_cons] at hs
    rcases hs with rfl | hs
    · exact mem_segmentOfTexts (isPlain_textAfter r last (how position).blank) hc
    · exact ih hs

/-- The segments of a written map are those of its ranges. -/
theorem segments_encode (ranges : List Range) :
    segments (encode ranges) = ranges.map segmentOfRange := by
  cases ranges with
  | nil => rfl
  | cons r rs =>
    refine segments_ofList_joinWith (segmentOfRange_ne_nil r) fun s hs c hc => ?_
    obtain ⟨q, -, rfl⟩ := List.mem_map.mp (show s ∈ (r :: rs).map segmentOfRange from hs)
    exact mem_segmentOfRange hc

theorem segments_encodeAbbreviated (how : Nat → Abbreviation) (r : Range) (rs : List Range) :
    segments (encodeAbbreviated how (r :: rs)) =
      segmentOfRange r :: abbreviatedAfter how 1 r rs := by
  refine segments_ofList_joinWith (segmentOfRange_ne_nil r) fun s hs c hc => ?_
  rcases List.mem_cons.mp hs with rfl | hs
  · exact mem_segmentOfRange hc
  · exact mem_abbreviatedAfter hs hc

theorem parse_encode_eq (ranges : List Range) :
    parse (encode ranges) =
      { entries := (ranges.takeWhile Range.isLegal).mapIdx fun i r => entryAt (ranges.take i) r
        error := ((ranges.dropWhile Range.isLegal).head?.bind Range.firstIllegal?).map
          fun (field, n) => ⟨(ranges.takeWhile Range.isLegal).length, field,
            Text.Numeral.signed n⟩ } := by
  rw [parse_eq_parseSegments, segments_encode,
    parseSegments_map_segmentOfRange 0 Fields.recalls_nil ranges]
  simp only [List.nil_append, Nat.zero_add]

/-- Reading a written map fails only at a number that a map cannot hold. -/
theorem error_parse_encode_eq_none_iff (ranges : List Range) :
    (parse (encode ranges)).error = none ↔ ∀ r ∈ ranges, r.isLegal = true := by
  rw [parse_encode_eq, Option.map_eq_none_iff]
  -- what is not read begins with a range that a map cannot hold
  cases hrest : ranges.dropWhile Range.isLegal with
  | nil => exact iff_of_true rfl (List.dropWhile_eq_nil_iff.mp hrest)
  | cons r rest =>
    have hr : r.isLegal = false := by
      have hfirst := List.head?_dropWhile_not Range.isLegal ranges
      rw [hrest, List.head?_cons] at hfirst
      exact hfirst
    have hmem : r ∈ ranges :=
      (List.dropWhile_suffix Range.isLegal).subset (hrest ▸ List.mem_cons_self)
    apply iff_of_false
    · rw [List.head?_cons, Option.bind_some, firstIllegal?_eq_none_iff, hr]
      exact Bool.false_ne_true
    · intro hall
      rw [hall r hmem] at hr
      exact Bool.noConfusion hr

/-- Leaving repeated fields blank does not change what a map reads as. -/
theorem parse_encodeAbbreviated (how : Nat → Abbreviation) (ranges : List Range) :
    parse (encodeAbbreviated how ranges) = parse (encode ranges) := by
  cases ranges with
  | nil => rfl
  | cons r rs =>
    rw [parse_eq_parseSegments, parse_eq_parseSegments, segments_encode, segments_encodeAbbreviated,
      List.map_cons, parseSegments_cons, parseSegments_cons, readSegment_segmentOfRange]
    cases hillegal : r.firstIllegal? with
    | some found => rfl
    | none =>
      have hr := Fields.holds_spell (firstIllegal?_eq_none_iff.mp hillegal) {}
      simp only [Except.map, parseSegments_abbreviatedAfter how 1 1 hr]

example : encodeAbbreviated (fun _ => ⟨fun _ => true, 0⟩) [⟨1, 2, 0⟩, ⟨1, 2, 0⟩, ⟨1, 7, 0⟩] =
    "1:2:0:-;;:7" ∧ parse "1:2:0:-;;:7" = parse "1:2:0:-;1:2:0:-;1:7:0:-" := by decide +kernel

/-- **A written source map reads as its ranges, however it is abbreviated.** The entries are those
of the longest legal prefix of the ranges: each has the start and the length of its range, or those
that were the last to be numbers, and the file of its range if all three numbers are there. Reading
ends without an error exactly when that prefix is all; the error names the first range behind it,
its first number that a map cannot hold, and the field. Fields that repeat the range before may be
left blank or out anywhere but in the first segment. -/
theorem parse_encode (ranges : List Range) :
    (parse (encode ranges)).entries =
        (ranges.takeWhile Range.isLegal).mapIdx (fun i r => entryAt (ranges.take i) r) ∧
      ((parse (encode ranges)).error = none ↔ ∀ r ∈ ranges, r.isLegal = true) ∧
      (parse (encode ranges)).error =
        ((ranges.dropWhile Range.isLegal).head?.bind Range.firstIllegal?).map
          (fun (field, n) =>
            ⟨(ranges.takeWhile Range.isLegal).length, field, Text.Numeral.signed n⟩) ∧
      ∀ how, parse (encodeAbbreviated how ranges) = parse (encode ranges) := by
  refine ⟨?_, error_parse_encode_eq_none_iff ranges, ?_, ?_⟩
  · rw [parse_encode_eq]
  · rw [parse_encode_eq]
  · intro how
    exact parse_encodeAbbreviated how ranges

end TxForensics.SourceMap
