import TxForensics.Text.Blank
import TxForensics.Text.Numeral
import TxForensics.Text.Quoted
import TxForensics.Text.Split
import TxForensics.Text.Utf8

/-!
# Source texts by line

A source text seen as lines. Positions in it are byte offsets, since that is what source maps
speak of; lines and columns count from one, and columns count bytes.

A line ends before its line feed, and a carriage return in front of that does not belong to it.
`coordinates?` places every offset up to the length of the text, the end included.
-/

namespace TxForensics

/-- A position in a source text, with the line it lies on. -/
structure SourcePosition where
  /-- The line, counted from one. -/
  line : UInt32
  /-- The column, counted in bytes from one. -/
  column : UInt32
  /-- The text of the line without the blank characters around it. -/
  snippet : String
deriving DecidableEq

def SourcePosition.text (p : SourcePosition) : String :=
  Text.Numeral.decimal p.line.toNat ++ ":" ++ Text.Numeral.decimal p.column.toNat ++ ": " ++
    p.snippet

def fitUInt32? (n : Nat) : Option UInt32 := if n < 2 ^ 32 then some n.toUInt32 else none

structure SourceFile where
  text : String
deriving DecidableEq

namespace SourceFile

def rawLines (s : SourceFile) : List (List Char) := Text.splitOn '\n' s.text.toList

/-- A text without one carriage return at its end. -/
def dropCarriageReturn (cs : List Char) : List Char :=
  if cs.getLast? = some '\r' then cs.dropLast else cs

def lineCount (s : SourceFile) : Nat := s.rawLines.length

def size (s : SourceFile) : Nat := Text.Utf8.size s.text.toList

def lines (s : SourceFile) : List (List Char) := s.rawLines.map dropCarriageReturn

def line? (s : SourceFile) (line : Nat) : Option (List Char) :=
  if line = 0 then none else s.lines[line - 1]?

/-- The lines `first` to `last`, if they all exist; none are asked for if `last < first`. -/
def lineRange? (s : SourceFile) (first last : Nat) : Option (List (List Char)) :=
  if last < first then some []
  else if first = 0 ∨ s.lineCount < last then none
  else some ((s.lines.drop (first - 1)).take (last + 1 - first))

/-- The lines `first` to `last`, joined by line feeds. -/
def slice? (s : SourceFile) (first last : Nat) : Option String :=
  (s.lineRange? first last).map fun ls => .ofList (Text.joinWith '\n' ls)

/-- The line and column of an offset within lines, the first of which has the number `line`. -/
def locate? (line offset : Nat) : List (List Char) → Option (Nat × Nat)
  | [] => none
  | cs :: rest =>
    let size := Text.Utf8.size cs
    if offset ≤ size then some (line, offset + 1) else locate? (line + 1) (offset - size - 1) rest

/-- The line and column of a byte offset; none past the end of the text. -/
def coordinates? (s : SourceFile) (offset : Nat) : Option (Nat × Nat) := locate? 1 offset s.rawLines

/-- The position of a byte offset, if its numbers fit into four bytes. -/
def position? (s : SourceFile) (offset : Nat) : Option SourcePosition := do
  let (line, column) ← s.coordinates? offset
  let text ← s.line? line
  return { line := ← fitUInt32? line
           column := ← fitUInt32? column
           snippet := .ofList (Text.trim text) }

end SourceFile

/-! ### Searching -/

structure NotFound where
  needle : String
deriving DecidableEq, Repr

def NotFound.message (e : NotFound) : String := Text.Quoted.text e.needle ++ " not found in source"

namespace SourceFile

/-- The byte offset of the first occurrence of `needle`, where `offset` bytes come before. -/
def findFrom? (needle : List Char) (offset : Nat) : List Char → Option Nat
  | [] => if needle = [] then some offset else none
  | c :: cs =>
    if needle.isPrefixOf (c :: cs) then some offset
    else findFrom? needle (offset + Text.Utf8.width c) cs

def find (source needle : String) : Except NotFound Nat :=
  match findFrom? needle.toList 0 source.toList with
  | some offset => .ok offset
  | none => .error ⟨needle⟩

end SourceFile

end TxForensics
