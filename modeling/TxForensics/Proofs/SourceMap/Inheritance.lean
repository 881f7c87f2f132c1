import TxForensics.Proofs.Text.Numeral
import TxForensics.SourceMap
import Mathlib.Data.List.Induction

/-!
# Source maps read without inheritance

`parse` carries seven inherited values from segment to segment: what each field last said, `-1`
included, and for start and length the last number besides. Here the same map is read entry by
entry. An entry is what the segments up to it spell, looked at all at once: for each field the last
text spelled, and for start and length the last one that is a number (`inheritedEntry`).

The bridge is `inheritedFields`, the seven values as functions of the segments read so far:

    inheritedFields_concat : inheritedFields (segs ++ [seg]) = (inheritedFields segs).spell …

so the fold of `parse` computes it, and it describes the same entry (`entry_inheritedFields`).
Where reading stops is a matter of the segment alone (`firstIllegal?`).
-/

namespace TxForensics

namespace SourceMap

/-! ## What a segment spells -/

/-- The segments of a map; a blank text has none. -/
def segments (text : String) : List (List Char) :=
  match Text.trim text.toList with
  | [] => []
  | cs => Text.splitOn ';' cs

def Field.position : Field → Nat
  | start => 0
  | length => 1
  | fileIndex => 2
  | jump => 3
  | modifierDepth => 4

/-- The text of a field in a segment, if it is there and not empty. -/
def spelling? (field : Field) (segment : List Char) : Option (List Char) :=
  ((Text.splitOn ':' segment)[field.position]?).filter (· ≠ [])

def number? (cs : List Char) : Option UInt32 :=
  ((Text.Numeral.unsigned? 10 cs).filter (· < 2 ^ 32)).map Nat.toUInt32

def noSource : List Char := ['-', '1']

/-- Whether a text is one that the field may have. -/
def isLegal : Field → List Char → Bool
  | .jump, cs => cs = ['i'] ∨ cs = ['o'] ∨ cs = ['-']
  | .modifierDepth, cs => (number? cs).isSome
  | _, cs => cs = noSource ∨ (number? cs).isSome

/-- The text of a field in a segment, if it is spelled and not legal. -/
def illegal? (segment : List Char) (field : Field) : Option (List Char) :=
  (spelling? field segment).filter fun cs => !isLegal field cs

def firstIllegal? (segment : List Char) : Option (Field × List Char) :=
  [Field.start, .length, .fileIndex, .jump, .modifierDepth].findSome? fun field =>
    (illegal? segment field).map (field, ·)

def isMalformed (segment : List Char) : Bool := (firstIllegal? segment).isSome

/-! ## What segments spell together -/

def lastSpelled (field : Field) (segs : List (List Char)) : Option (List Char) :=
  (segs.filterMap (spelling? field)).getLast?

def lastNumber (field : Field) (segs : List (List Char)) : Option UInt32 :=
  ((segs.filterMap (spelling? field)).filterMap number?).getLast?

def inheritedEntry (segs : List (List Char)) : Entry :=
  { start := (lastNumber .start segs).getD 0
    length := (lastNumber .length segs).getD 0
    fileIndex :=
      if lastSpelled .start segs = some noSource ∨ lastSpelled .length segs = some noSource then
        none
      else (lastSpelled .fileIndex segs).bind number?
    jump := ((lastSpelled .jump segs).bind Jump.ofText?).getD .regular
    modifierDepth := (lastSpelled .modifierDepth segs).bind number? }

/-! ## Reading one field -/

/-- The reader of numbers takes just the texts that denote a number of four bytes. -/
theorem readNumber?_eq (cs : List Char) : readNumber? cs = number? cs := by
  have hread (n : Nat) : Text.Numeral.readBelow 10 (2 ^ 32) cs = .ok n ↔
      Text.Numeral.unsigned? 10 cs = some n ∧ n < 2 ^ 32 :=
    Text.Numeral.readBelow_eq_ok_iff (by decide)
  unfold readNumber? number?
  split
  · next n hn =>
    obtain ⟨hvalue, hlt⟩ := (hread n).mp hn
    rw [hvalue, Option.filter_some, if_pos (decide_eq_true hlt), Option.map_some]
  · next err herr =>
    cases hvalue : Text.Numeral.unsigned? 10 cs with
    | none => rfl
    | some n =>
      have hge : ¬ n < 2 ^ 32 := by
        intro hlt
        rw [(hread n).mpr ⟨hvalue, hlt⟩] at herr
        cases herr
      rw [Option.filter_some, if_neg (by simpa using hge), Option.map_none]

theorem number?_noSource : number? noSource = none := by decide

/-- A start, length or file index is read as its number, `-1` as none. -/
theorem readOffset?_eq (cs : List Char) :
    readOffset? cs = if isLegal .start cs then some (number? cs) else none := by
  unfold readOffset?
  rw [readNumber?_eq]
  by_cases hcs : cs = ['-', '1']
  · subst hcs
    rfl
  · rw [if_neg hcs]
    cases hn : number? cs <;> simp [isLegal, noSource, hcs, hn]

theorem isSome_ofText? (cs : List Char) : (Jump.ofText? cs).isSome = isLegal .jump cs := by
  unfold Jump.ofText?
  split
  · rfl
  · rfl
  · rfl
  · next hi ho hr => simpa [isLegal] using ⟨hi, ho, hr⟩

/-- A field is read unless its text is illegal, and then as what it spells. -/
theorem readField_eq (field : Field) {read? : List Char → Option α}
    (hlegal : ∀ cs, (read? cs).isSome = isLegal field cs) (segment : List Char) :
    readField field read? ((Text.splitOn ':' segment).getD field.position []) =
      match illegal? segment field with
      | some cs => .error (field, cs)
      | none => .ok ((spelling? field segment).bind read?) := by
  unfold readField illegal? spelling?
  rw [List.getD_eq_getElem?_getD]
  -- a field is not there, there but empty, or has a text that is read or not
  cases (Text.splitOn ':' segment)[field.position]? with
  | none => rfl
  | some cs =>
    by_cases hcs : cs = []
    · simp [hcs, Option.filter]
    · have hread := hlegal cs
      cases hr : read? cs with
      | none =>
        rw [hr] at hread
        simp [hcs, hr, Option.filter, ← hread]
      | some a =>
        rw [hr] at hread
        simp [hcs, hr, Option.filter, ← hread]

def segmentOf (segment : List Char) : Segment :=
  { start := (spelling? .start segment).bind readOffset?
    length := (spelling? .length segment).bind readOffset?
    fileIndex := (spelling? .fileIndex segment).bind readOffset?
    jump := (spelling? .jump segment).bind Jump.ofText?
    modifierDepth := (spelling? .modifierDepth segment).bind readNumber? }

/-- A segment is read unless one of its fields is illegal; the first of these is reported. -/
theorem readSegment_eq (segment : List Char) :
    readSegment segment =
      match firstIllegal? segment with
      | some (field, cs) => .error (field, cs)
      | none => .ok (segmentOf segment) := by
  have hoffset (cs : List Char) : (readOffset? cs).isSome = isLegal .start cs := by
    rw [readOffset?_eq]
    cases isLegal .start cs <;> rfl
  have hstart := readField_eq .start hoffset segment
  have hlength := readField_eq .length hoffset segment
  have hfile := readField_eq .fileIndex hoffset segment
  have hjump := readField_eq .jump isSome_ofText? segment
  have hdepth := readField_eq .modifierDepth
    (fun cs => congrArg Option.isSome (readNumber?_eq cs)) segment
  simp only [Field.position] at hstart hlength hfile hjump hdepth
  simp only [readSegment, firstIllegal?, List.findSome?_cons, hstart, hlength, hfile, hjump,
    hdepth]
  -- both sides ask the fields in their order and stop at the first that is illegal
  cases illegal? segment .start with
  | some cs => rfl
  | none =>
    cases illegal? segment .length with
    | some cs => rfl
    | none =>
      cases illegal? segment .fileIndex with
      | some cs => rfl
      | none =>
        cases illegal? segment .jump with
        | some cs => rfl
        | none => cases illegal? segment .modifierDepth <;> rfl

/-! ## The fold of the segments -/

/-- A segment that spells a field has the last word on it. -/
theorem lastSpelled_concat (field : Field) (segs : List (List Char)) (seg : List Char) :
    lastSpelled field (segs ++ [seg]) = (spelling? field seg).or (lastSpelled field segs) := by
  unfold lastSpelled
  cases h : spelling? field seg <;> simp [h]

/-- The last number is that of the segment, if it spells one. -/
theorem lastNumber_concat (field : Field) (segs : List (List Char)) (seg : List Char) :
    lastNumber field (segs ++ [seg]) =
      ((spelling? field seg).bind number?).or (lastNumber field segs) := by
  unfold lastNumber
  cases h : spelling? field seg with
  | none => simp [h]
  | some cs => cases hn : number? cs <;> simp [h, hn]

/-- What a start or length inherits: its last text read as a number, and 0 before the first. -/
def inheritedOffset (field : Field) (segs : List (List Char)) : Option UInt32 :=
  match lastSpelled field segs with
  | none => some 0
  | some cs => number? cs

/-- The seven values that segments leave for the next one, each read off all of them at once. -/
def inheritedFields (segs : List (List Char)) : Fields :=
  { start := inheritedOffset .start segs
    length := inheritedOffset .length segs
    fileIndex := (lastSpelled .fileIndex segs).bind number?
    jump := ((lastSpelled .jump segs).bind Jump.ofText?).getD .regular
    modifierDepth := (lastSpelled .modifierDepth segs).bind number?
    lastStart := (lastNumber .start segs).getD 0
    lastLength := (lastNumber .length segs).getD 0 }

/-- Where the last text of a start or length is a number, it is also the last number. -/
theorem getD_inheritedOffset (field : Field) (segs : List (List Char)) :
    (inheritedOffset field segs).getD ((lastNumber field segs).getD 0) =
      (lastNumber field segs).getD 0 := by
  induction segs using List.reverseRecOn with
  | nil => rfl
  | append_singleton segs seg ih =>
    -- a last text `-1` is no number, so both sides fall back on the last number
    unfold inheritedOffset at ih ⊢
    rw [lastSpelled_concat, lastNumber_concat]
    cases spelling? field seg with
    | none => simpa using ih
    | some cs => cases hn : number? cs <;> simp [hn]

/-- What a field that is spelled has in a segment without illegal fields. -/
theorem isLegal_of_spelling? {field : Field} {segment cs : List Char}
    (hok : isMalformed segment = false) (h : spelling? field segment = some cs) :
    isLegal field cs = true := by
  have hnone : illegal? segment field = none := by
    rw [isMalformed, Option.isSome_eq_false_iff, Option.isNone_iff_eq_none, firstIllegal?,
      List.findSome?_eq_none_iff] at hok
    simpa using hok field (by cases field <;> simp)
  rw [illegal?, h] at hnone
  simpa [Option.filter] using hnone

/-- A start, length or file index of such a segment stands for the number that its text denotes,
and for none if it is `-1`. -/
theorem bind_readOffset? {field : Field} {segment : List Char}
    (hlegal : ∀ cs, spelling? field segment = some cs → isLegal .start cs = true) :
    (spelling? field segment).bind readOffset? = (spelling? field segment).map number? := by
  cases h : spelling? field segment with
  | none => rfl
  | some cs =>
    rw [Option.bind_some, Option.map_some, readOffset?_eq, if_pos (hlegal cs h)]

/-- A start or length that is spelled is no longer inherited. -/
theorem inheritedOffset_concat (field : Field) (segs : List (List Char)) (seg : List Char) :
    inheritedOffset field (segs ++ [seg]) =
      ((spelling? field seg).map number?).getD (inheritedOffset field segs) := by
  unfold inheritedOffset
  rw [lastSpelled_concat]
  cases spelling? field seg <;> rfl

theorem getD_lastNumber_concat (field : Field) (segs : List (List Char)) (seg : List Char) :
    (lastNumber field (segs ++ [seg])).getD 0 =
      (((spelling? field seg).map number?).getD (inheritedOffset field segs)).getD
        ((lastNumber field segs).getD 0) := by
  rw [lastNumber_concat]
  cases spelling? field seg with
  | none => exact (getD_inheritedOffset field segs).symm
  | some cs => cases hn : number? cs <;> simp [hn]

theorem bind_lastSpelled_concat {field : Field} {read? : List Char → Option α}
    {segs : List (List Char)} {seg : List Char}
    (hread : ∀ cs, spelling? field seg = some cs → (read? cs).isSome = true) :
    (lastSpelled field (segs ++ [seg])).bind read? =
      ((spelling? field seg).bind read?).or ((lastSpelled field segs).bind read?) := by
  rw [lastSpelled_concat]
  cases h : spelling? field seg with
  | none => rfl
  | some cs =>
    obtain ⟨a, ha⟩ := Option.isSome_iff_exists.mp (hread cs h)
    simp [ha]

/-- **One segment more**: spelling it on top of what the segments before leave is reading all of
them at once. -/
theorem inheritedFields_concat {segs : List (List Char)} {seg : List Char}
    (hok : isMalformed seg = false) :
    inheritedFields (segs ++ [seg]) = (inheritedFields segs).spell (segmentOf seg) := by
  have hlegal (field : Field) (cs : List Char) (h : spelling? field seg = some cs) :
      isLegal field cs = true := isLegal_of_spelling? hok h
  have hstart : (segmentOf seg).start = (spelling? .start seg).map number? :=
    bind_readOffset? (hlegal .start)
  have hlength : (segmentOf seg).length = (spelling? .length seg).map number? :=
    bind_readOffset? (hlegal .length)
  have hfile : (lastSpelled .fileIndex (segs ++ [seg])).bind number? =
      (segmentOf seg).fileIndex.getD ((lastSpelled .fileIndex segs).bind number?) := by
    rw [segmentOf, bind_readOffset? (hlegal .fileIndex), lastSpelled_concat]
    cases spelling? .fileIndex seg <;> rfl
  have hjump : (lastSpelled .jump (segs ++ [seg])).bind Jump.ofText? =
      (segmentOf seg).jump.or ((lastSpelled .jump segs).bind Jump.ofText?) :=
    bind_lastSpelled_concat fun cs h => (isSome_ofText? cs).trans (hlegal .jump cs h)
  have hdepth : (lastSpelled .modifierDepth (segs ++ [seg])).bind number? =
      (segmentOf seg).modifierDepth.or ((lastSpelled .modifierDepth segs).bind number?) := by
    rw [segmentOf, funext readNumber?_eq]
    exact bind_lastSpelled_concat (hlegal .modifierDepth)
  unfold inheritedFields Fields.spell
  simp only [inheritedOffset_concat, getD_lastNumber_concat, hstart, hlength, hfile, hjump,
    hdepth, Option.getD_or, Option.orElse_eq_orElse, Option.orElse_eq_or]

/-- **All segments**: the fold of segments without illegal fields leaves what they spell. -/
theorem foldl_spell {segs : List (List Char)} (hok : ∀ seg ∈ segs, isMalformed seg = false) :
    segs.foldl (fun before seg => before.spell (segmentOf seg)) {} = inheritedFields segs := by
  -- from the back, as the fold puts one segment on top of all those before
  induction segs using List.reverseRecOn with
  | nil => rfl
  | append_singleton segs seg ih =>
    rw [List.foldl_append, List.foldl_cons, List.foldl_nil,
      ih fun s hs => hok s (List.mem_append_left _ hs), inheritedFields_concat (hok seg (by simp))]

/-- In segments without illegal fields the last text of a field is a legal one. -/
theorem isLegal_of_lastSpelled {field : Field} {segs : List (List Char)} {cs : List Char}
    (hok : ∀ seg ∈ segs, isMalformed seg = false) (h : lastSpelled field segs = some cs) :
    isLegal field cs = true := by
  obtain ⟨seg, hseg, hcs⟩ := List.mem_filterMap.mp (List.mem_of_getLast? h)
  exact isLegal_of_spelling? (hok seg hseg) hcs

/-- A start or length is missing exactly when its last text is `-1`. -/
theorem isSome_inheritedOffset (field : Field) {segs : List (List Char)}
    (hlegal : ∀ cs, lastSpelled field segs = some cs → isLegal .start cs = true) :
    (inheritedOffset field segs).isSome = true ↔ lastSpelled field segs ≠ some noSource := by
  unfold inheritedOffset
  cases h : lastSpelled field segs with
  | none => simp
  | some cs =>
    have hcs := hlegal cs h
    simp only [isLegal, decide_eq_true_eq] at hcs
    rcases hcs with rfl | hnumber
    · simp [number?_noSource]
    · have hne : cs ≠ noSource := by
        rintro rfl
        rw [number?_noSource] at hnumber
        cases hnumber
      simp [hnumber, hne]

/-- The entry of what segments leave is the entry that they spell together. -/
theorem entry_inheritedFields {segs : List (List Char)}
    (hok : ∀ seg ∈ segs, isMalformed seg = false) :
    (inheritedFields segs).entry = inheritedEntry segs := by
  have hstart := isSome_inheritedOffset .start fun cs => isLegal_of_lastSpelled hok
  have hlength := isSome_inheritedOffset .length fun cs => isLegal_of_lastSpelled hok
  unfold Fields.entry inheritedEntry inheritedFields
  simp only [getD_inheritedOffset, Bool.and_eq_true, hstart, hlength]
  by_cases h : lastSpelled .start segs = some noSource ∨ lastSpelled .length segs = some noSource
  · rw [if_pos h, if_neg (by tauto)]
  · rw [if_neg h, if_pos (by tauto)]

/-! ## Where reading stops -/

/-- Reading goes on up to the first segment with an illegal field, and every segment before it
gives the entry of the fold so far. -/
theorem parseSegments_eq (index : Nat) (before : Fields) (segs : List (List Char)) :
    parseSegments index before segs =
      { entries := (List.range (segs.findIdx isMalformed)).map fun i =>
          ((segs.take (i + 1)).foldl (fun before seg => before.spell (segmentOf seg)) before).entry
        error := (segs[segs.findIdx isMalformed]?.bind firstIllegal?).map fun (field, cs) =>
          ⟨index + segs.findIdx isMalformed, field, .ofList cs⟩ } := by
  -- over the segments still to be read; the fold goes on from the fields so far
  induction segs generalizing index before with
  | nil => rfl
  | cons seg segs ih =>
    rw [parseSegments, readSegment_eq, List.findIdx_cons, isMalformed]
    cases h : firstIllegal? seg with
    | some found => simp [h]
    | none =>
      simp [ih, List.range_succ_eq_map, Nat.add_assoc, Nat.add_comm 1]

/-- A map is read segment by segment, with no fields set at first. -/
theorem parse_eq_parseSegments (text : String) :
    parse text = parseSegments 0 {} (segments text) := by
  unfold parse segments
  cases Text.trim text.toList <;> rfl

/-- In front of the first malformed segment there is none. -/
theorem isMalformed_of_lt_findIdx {segs : List (List Char)} {i : Nat}
    (hi : i < segs.findIdx isMalformed) :
    ∀ seg ∈ segs.take (i + 1), isMalformed seg = false := by
  intro seg hseg
  obtain ⟨k, hk, rfl⟩ := List.mem_take_iff_getElem.mp hseg
  exact List.not_of_lt_findIdx (by omega)

/-- A map has an error exactly when one of its segments is malformed. -/
theorem error_parse_eq_none_iff (text : String) :
    (parse text).error = none ↔ ∀ seg ∈ segments text, isMalformed seg = false := by
  rw [parse_eq_parseSegments, parseSegments_eq, Option.map_eq_none_iff]
  by_cases hlt : (segments text).findIdx isMalformed < (segments text).length
  · have hmalformed := List.findIdx_getElem (w := hlt)
    rw [List.getElem?_eq_getElem hlt, Option.bind_some]
    constructor
    · intro hnone
      rw [isMalformed, hnone] at hmalformed
      cases hmalformed
    · intro hok
      rw [hok _ (List.getElem_mem hlt)] at hmalformed
      cases hmalformed
  · have hend : (segments text).findIdx isMalformed = (segments text).length :=
      Nat.le_antisymm List.findIdx_le_length (Nat.le_of_not_lt hlt)
    rw [List.getElem?_eq_none (Nat.le_of_not_lt hlt), Option.bind_none]
    exact iff_of_true rfl (List.findIdx_eq_length.mp hend)

/-- **A source map is what its segments spell together.** Reading stops at the first malformed
segment, reports its first illegal field, and keeps one entry for each segment before. Every entry
is what the segments up to its own spell last, field by field. -/
theorem parse_eq_inherited (text : String) :
    (Text.trim text.toList = [] → parse text = ⟨[], none⟩) ∧
      (parse text).entries =
        (List.range ((segments text).findIdx isMalformed)).map
          (fun i => inheritedEntry ((segments text).take (i + 1))) ∧
      (parse text).error =
        ((segments text)[(segments text).findIdx isMalformed]?.bind firstIllegal?).map
          (fun (field, cs) => ⟨(segments text).findIdx isMalformed, field, .ofList cs⟩) ∧
      ((parse text).error = none ↔ ∀ seg ∈ segments text, isMalformed seg = false) := by
  refine ⟨?_, ?_, ?_, error_parse_eq_none_iff text⟩
  · intro hblank
    rw [parse, hblank]
  · rw [parse_eq_parseSegments, parseSegments_eq]
    refine List.map_congr_left fun i hi => ?_
    have hok := isMalformed_of_lt_findIdx (List.mem_range.mp hi)
    rw [foldl_spell hok, entry_inheritedFields hok]
  · rw [parse_eq_parseSegments, parseSegments_eq, Nat.zero_add]

/-- A file index outlives the segments without a range. -/
example : (parse "1:2:0;-1:-1:0;;5;:3").entries.map (fun e => (e.start, e.fileIndex)) =
    [(1, some 0), (1, none), (1, none), (5, none), (5, some 0)] := by decide +kernel

end SourceMap

end TxForensics
