import TxForensics.Source.Text
import TxForensics.Text.Affix
import TxForensics.Text.WordChar

/-!
# The function around a line

Recovers, from text alone, the function that a source line belongs to: the nearest line at or
above it that declares one is where the function starts, and its body is delimited by the depth of
braces from there.

A `//` comment is no code, and a `//` inside a string literal begins none. Braces in literals and
in block comments count like all others. A declaration without a body ends at its semicolon, and a
body that is never closed runs to the end of the text.
-/

namespace TxForensics

structure EnclosingFunction where
  /-- The name, or `constructor`, `fallback` or `receive`. -/
  name : String
  /-- The line of the declaration. -/
  firstLine : UInt32
  /-- The line of the closing brace. -/
  lastLine : UInt32
  /-- The line that was asked for. -/
  askedLine : UInt32
  /-- The text of the lines from the first to the last. -/
  code : String
deriving DecidableEq

def EnclosingFunction.coversTarget (f : EnclosingFunction) : Bool :=
  f.firstLine ≤ f.askedLine && f.askedLine ≤ f.lastLine

namespace Declaration

/-! ### Comments -/

/-- Where a scan of a line stands with respect to string literals. -/
inductive Quoting where
  /-- Outside of literals. -/
  | code
  /-- Inside a literal that `quote` closes. -/
  | literal (quote : Char)
  /-- Inside a literal, behind a backslash. -/
  | escaped (quote : Char)
deriving DecidableEq

/-- The part of a line before its comment, from a state of the scan on. -/
def beforeCommentFrom : Quoting → List Char → List Char
  | _, [] => []
  | .code, '/' :: '/' :: _ => []
  | .code, c :: cs => c :: beforeCommentFrom (if c = '"' ∨ c = '\x27' then .literal c else .code) cs
  | .literal q, c :: cs =>
    c :: beforeCommentFrom (if c = '\\' then .escaped q else if c = q then .code else .literal q) cs
  | .escaped q, c :: cs => c :: beforeCommentFrom (.literal q) cs

def beforeComment (line : List Char) : List Char := beforeCommentFrom .code line

/-! ### Names -/

def isNameStart (c : Char) : Bool := c.isAlpha || c == '_' || c == '$'

def isNameChar (c : Char) : Bool := isNameStart c || c.isDigit

/-- The name behind a keyword and at least one blank character. -/
def nameAfter? (keyword : String) (cs : List Char) : Option (List Char) := do
  let rest ← Text.after? keyword cs
  let name := (rest.dropWhile Text.isBlank).takeWhile isNameChar
  guard (rest.head?.any Text.isBlank && name.head?.any isNameStart)
  return name

/-- A keyword that is itself the name, if an opening parenthesis follows it. -/
def nameless? (keyword : String) (cs : List Char) : Option (List Char) := do
  let rest ← Text.after? keyword cs
  guard ((rest.dropWhile Text.isBlank).head? == some '(')
  return keyword.toList

/-- The name that a declaration at the beginning of a text declares. -/
def nameAt? (cs : List Char) : Option (List Char) :=
  nameAfter? "function" cs <|> nameAfter? "modifier" cs <|> nameless? "constructor" cs <|>
    nameless? "fallback" cs <|> nameless? "receive" cs

/-- The name of the first declaration in a text, where `inWord` tells whether the text continues a
word. -/
def nameFrom? (inWord : Bool) : List Char → Option (List Char)
  | [] => none
  | c :: cs =>
    match if inWord then none else nameAt? (c :: cs) with
    | some name => some name
    | none => nameFrom? (Text.isWordChar c) cs

def name? (line : List Char) : Option (List Char) := nameFrom? false (beforeComment line)

/-! ### Bodies -/

structure Scan where
  /-- The number of braces that are open. -/
  depth : Nat := 0
  /-- Whether a brace has been opened yet. -/
  opened : Bool := false
deriving DecidableEq

/-- Scans the code of one line; none if the body ends on it. -/
def Scan.line? (s : Scan) : List Char → Option Scan
  | [] => some s
  | '{' :: cs => Scan.line? ⟨s.depth + 1, true⟩ cs
  | '}' :: cs =>
    -- before the first opening brace the depth is zero and stays so
    if s.opened && s.depth ≤ 1 then none else Scan.line? { s with depth := s.depth - 1 } cs
  | c :: cs => if c = ';' && !s.opened then none else s.line? cs

/-- The number of lines in front of the one on which a body ends. -/
def linesBeforeEnd? (s : Scan) : List (List Char) → Option Nat
  | [] => none
  | line :: lines =>
    match s.line? (beforeComment line) with
    | none => some 0
    | some s => (linesBeforeEnd? s lines).map (· + 1)

/-- The last line of the body of a declaration on the line `start`. -/
def lastLine (s : SourceFile) (start : Nat) : Nat :=
  match linesBeforeEnd? {} (s.lines.drop (start - 1)) with
  | some n => start + n
  | none => s.lineCount

/-- The last line up to `target` that declares a function, with the name. -/
def above? (s : SourceFile) (target : Nat) : Option (Nat × List Char) :=
  ((s.lines.take target).zipIdx 1).reverse.findSome? fun (line, number) =>
    (name? line).map (number, ·)

end Declaration

namespace SourceFile

/-- The function around the line `target`; none if there is no such line, or no declaration at or
above it. -/
def functionAt? (s : SourceFile) (target : Nat) : Option EnclosingFunction :=
  if target = 0 ∨ s.lineCount < target then none
  else do
    let (start, name) ← Declaration.above? s target
    let last := Declaration.lastLine s start
    let code ← s.slice? start last
    return { name := .ofList name
             firstLine := ← fitUInt32? start
             lastLine := ← fitUInt32? last
             askedLine := ← fitUInt32? target
             code }

end SourceFile

end TxForensics
