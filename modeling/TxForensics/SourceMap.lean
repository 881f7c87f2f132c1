import TxForensics.Text.Blank
import TxForensics.Text.Numeral
import TxForensics.Text.Split

/-!
# Compressed source maps

A source map says for each instruction of a code which range of which source file it was compiled
from. Its text has one segment per instruction, separated by semicolons, and each segment up to
five fields, separated by colons: start, length, file index, jump and modifier depth. A field that
is missing or empty repeats the field of the segment before. A start, length or file index of `-1`
stands for "no source": the entry then belongs to no file, and its range is the last one spelled.

`SourceMap.parse` reads a map up to the first malformed segment and keeps the entries before it.
The inheritance is a fold of `Fields.spell` over the segments; what a fold over all segments up to
an entry leaves behind is the last value spelled for each field.
-/

namespace TxForensics

inductive Jump where
  | into
  | out
  | regular
deriving DecidableEq, Repr

namespace Jump

def text : Jump → String
  | into => "i"
  | out => "o"
  | regular => "-"

def ofText? (cs : List Char) : Option Jump :=
  match cs with
  | ['i'] => some into
  | ['o'] => some out
  | ['-'] => some regular
  | _ => none

theorem ofText?_text (j : Jump) : ofText? j.text.toList = some j := by cases j <;> decide

end Jump

/-- What one instruction was compiled from. -/
structure SourceMap.Entry where
  /-- Where the range starts, in bytes. -/
  start : UInt32
  /-- How many bytes the range has. -/
  length : UInt32
  /-- The source file, if there is one. -/
  fileIndex : Option UInt32
  jump : Jump
  modifierDepth : Option UInt32
deriving DecidableEq

namespace SourceMap.Entry

/-- The index of the file that was written by hand; all others are generated. -/
def handwrittenFile : UInt32 := 0

def isHandwritten (e : SourceMap.Entry) : Bool := e.fileIndex == some handwrittenFile

end SourceMap.Entry

inductive SourceMap.Field where
  | start
  | length
  | fileIndex
  | jump
  | modifierDepth
deriving DecidableEq, Repr

def SourceMap.Field.name : SourceMap.Field → String
  | start => "start"
  | length => "length"
  | fileIndex => "file index"
  | jump => "jump"
  | modifierDepth => "modifier depth"

/-- The first field of a map that does not read as one. -/
structure SourceMap.Defect where
  /-- The index of the segment. -/
  entry : Nat
  field : SourceMap.Field
  /-- The text of the field. -/
  value : String
deriving DecidableEq

def SourceMap.Defect.message (e : SourceMap.Defect) : String :=
  "invalid " ++ e.field.name ++ " `" ++ e.value ++ "` in source map entry " ++
    Text.Numeral.decimal e.entry

structure SourceMap where
  entries : List SourceMap.Entry
  /-- Why the entries end, if they end before the map does. -/
  error : Option SourceMap.Defect
deriving DecidableEq

namespace SourceMap

/-! ### Segments -/

def readNumber? (cs : List Char) : Option UInt32 :=
  match Text.Numeral.readBelow 10 (2 ^ 32) cs with
  | .ok n => some n.toUInt32
  | .error _ => none

/-- A start, length or file index: a number, or `-1` for none. -/
def readOffset? (cs : List Char) : Option (Option UInt32) :=
  if cs = ['-', '1'] then some none else (readNumber? cs).map some

/-- The fields that a segment spells; a field is `none` where it repeats the one before. -/
structure Segment where
  start : Option (Option UInt32)
  length : Option (Option UInt32)
  fileIndex : Option (Option UInt32)
  jump : Option Jump
  modifierDepth : Option UInt32

def readField (field : SourceMap.Field) (read? : List Char → Option α) (cs : List Char) :
    Except (SourceMap.Field × List Char) (Option α) :=
  if cs = [] then .ok none
  else
    match read? cs with
    | some a => .ok (some a)
    | none => .error (field, cs)

/-- Reads a segment; what follows its fifth field does not count. -/
def readSegment (cs : List Char) : Except (SourceMap.Field × List Char) Segment := do
  let fields := Text.splitOn ':' cs
  let start ← readField .start readOffset? (fields.getD 0 [])
  let length ← readField .length readOffset? (fields.getD 1 [])
  let fileIndex ← readField .fileIndex readOffset? (fields.getD 2 [])
  let jump ← readField .jump Jump.ofText? (fields.getD 3 [])
  let modifierDepth ← readField .modifierDepth readNumber? (fields.getD 4 [])
  return { start, length, fileIndex, jump, modifierDepth }

/-! ### Inheritance -/

/-- What the segments so far leave for the next one to repeat. -/
structure Fields where
  start : Option UInt32 := some 0
  length : Option UInt32 := some 0
  fileIndex : Option UInt32 := none
  jump : Jump := .regular
  modifierDepth : Option UInt32 := none
  /-- The last start that is a number. -/
  lastStart : UInt32 := 0
  /-- The last length that is a number. -/
  lastLength : UInt32 := 0

namespace Fields

def spell (before : Fields) (s : Segment) : Fields :=
  let start := s.start.getD before.start
  let length := s.length.getD before.length
  { start, length
    fileIndex := s.fileIndex.getD before.fileIndex
    jump := s.jump.getD before.jump
    modifierDepth := s.modifierDepth <|> before.modifierDepth
    lastStart := start.getD before.lastStart
    lastLength := length.getD before.lastLength }

def entry (f : Fields) : SourceMap.Entry :=
  { start := f.start.getD f.lastStart
    length := f.length.getD f.lastLength
    -- an entry without a range belongs to no file, even where one is spelled
    fileIndex := if f.start.isSome && f.length.isSome then f.fileIndex else none
    jump := f.jump
    modifierDepth := f.modifierDepth }

end Fields

/-- Reads segments after `before`, the first of them with the index `index`. -/
def parseSegments (index : Nat) (before : Fields) : List (List Char) → SourceMap
  | [] => ⟨[], none⟩
  | segment :: segments =>
    match readSegment segment with
    | .error (field, value) => ⟨[], some ⟨index, field, .ofList value⟩⟩
    | .ok s =>
      let fields := before.spell s
      let rest := parseSegments (index + 1) fields segments
      ⟨fields.entry :: rest.entries, rest.error⟩

/-- Reads a source map; a blank text is the empty map. -/
def parse (text : String) : SourceMap :=
  match Text.trim text.toList with
  | [] => ⟨[], none⟩
  | cs => parseSegments 0 {} (Text.splitOn ';' cs)

def get? (m : SourceMap) (ic : Nat) : Option SourceMap.Entry := m.entries[ic]?

def size (m : SourceMap) : Nat := m.entries.length

/-! ### Writing -/

/-- A range of a source file; negative numbers stand for no source. -/
structure Range where
  start : Int
  length : Int
  fileIndex : Int
deriving DecidableEq, Repr

/-- The segment of a range, every field spelled and no jump. -/
def segmentOfRange (r : Range) : List Char :=
  Text.joinWith ':' <|
    [r.start, r.length, r.fileIndex].map (fun n => (Text.Numeral.signed n).toList) ++
      [Jump.regular.text.toList]

/-- The uncompressed source map of a list of ranges. -/
def encode (ranges : List Range) : String :=
  .ofList (Text.joinWith ';' (ranges.map segmentOfRange))

end SourceMap

end TxForensics
