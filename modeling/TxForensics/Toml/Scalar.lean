import TxForensics.Decimal.Nearest
import TxForensics.Text.Numeral

/-!
# Scalars of TOML

The values of TOML that are written in one piece: strings in their four forms, integers, floats,
truth values, and dates and times.

Everything but strings is a *word* of letters, digits and `+ - _ . :`. No value can go on behind
such a word without a separator, so the whole word is classified at once; a date may be followed by
a blank and a second word, its time.
-/

namespace TxForensics

inductive TomlValue where
  | text (s : String)
  | integer (n : Int)
  | float (b : Binary64)
  | bool (b : Bool)
  /-- A date, a time or both. -/
  | dateTime
  | array (items : List TomlValue)
  | table (members : List (String × TomlValue))

namespace Toml

def isSpace (c : Char) : Bool := c == ' ' || c == '\t'

/-- A character that may stand in comments and strings: a tab, a printable ASCII character or
anything beyond ASCII. -/
def isContent (c : Char) : Bool :=
  c == '\t' || (0x20 ≤ c.toNat && c.toNat ≤ 0x7E) || 0x80 ≤ c.toNat

def isWordChar (c : Char) : Bool :=
  c.isAlphanum || c == '+' || c == '-' || c == '_' || c == '.' || c == ':'

/-! ### Strings -/

def codePoint? (ds : List Char) : Option Char := do
  let n ← Text.Numeral.value? 16 ds
  if n < 0xD800 ∨ (0xE000 ≤ n ∧ n < 0x110000) then some (.ofNat n) else none

def escaped? (c : Char) : Option Char :=
  match c with
  | 'b' => some (.ofNat 8)
  | 't' => some '\t'
  | 'n' => some '\n'
  | 'f' => some (.ofNat 12)
  | 'r' => some '\r'
  | 'e' => some (.ofNat 0x1B)
  | '"' => some '"'
  | '\\' => some '\\'
  | _ => none

/-- Reads the character of an escape behind its backslash. -/
def readEscape? : List Char → Option (Char × List Char)
  | 'x' :: a :: b :: cs => (codePoint? [a, b]).map (·, cs)
  | 'u' :: a :: b :: c :: d :: cs => (codePoint? [a, b, c, d]).map (·, cs)
  | 'U' :: a :: b :: c :: d :: e :: f :: g :: h :: cs =>
    (codePoint? [a, b, c, d, e, f, g, h]).map (·, cs)
  | c :: cs => (escaped? c).map (·, cs)
  | [] => none

def push (c : Char) (read : Option (List Char × List Char)) : Option (List Char × List Char) :=
  read.map fun (content, rest) => (c :: content, rest)

/-- Reads a string in double quotes behind the first, in at most `fuel` characters. -/
def readBasic? : Nat → List Char → Option (List Char × List Char)
  | 0, _ => none
  | _, [] => none
  | _ + 1, '"' :: cs => some ([], cs)
  | fuel + 1, '\\' :: cs =>
    match readEscape? cs with
    | some (c, rest) => push c (readBasic? fuel rest)
    | none => none
  | fuel + 1, c :: cs => if isContent c then push c (readBasic? fuel cs) else none

/-- Reads a string in single quotes behind the first. -/
def readLiteral? : List Char → Option (List Char × List Char)
  | [] => none
  | c :: cs =>
    if c = '\x27' then some ([], cs)
    else if isContent c then push c (readLiteral? cs)
    else none

/-- A line end, which is a line feed with a carriage return in front of it perhaps, and what follows
it. -/
def readNewline? : List Char → Option (List Char × List Char)
  | '\n' :: cs => some (['\n'], cs)
  | '\r' :: '\n' :: cs => some (['\r', '\n'], cs)
  | _ => none

def afterNewline? (cs : List Char) : Option (List Char) := (readNewline? cs).map Prod.snd

def skipBlankLines : Nat → List Char → List Char
  | 0, cs => cs
  | fuel + 1, cs =>
    let cs := cs.dropWhile isSpace
    match afterNewline? cs with
    | some rest => skipBlankLines fuel rest
    | none => cs

/-- Reads a string of several lines between three quotes of a kind, behind the first three. Line
ends are kept as they are written, and up to two quotes may stand in front of the last three; in
double quotes there are escapes, and a backslash at the end of a line joins it with the next text.
-/
def readLines? (quote : Char) : Nat → List Char → Option (List Char × List Char)
  | 0, _ => none
  | _, [] => none
  | fuel + 1, c :: cs =>
    if c = quote then
      if [quote, quote, quote, quote].isPrefixOf cs then some ([quote, quote], cs.drop 4)
      else if [quote, quote, quote].isPrefixOf cs then some ([quote], cs.drop 3)
      else if [quote, quote].isPrefixOf cs then some ([], cs.drop 2)
      else push c (readLines? quote fuel cs)
    else
      match readNewline? (c :: cs) with
      | some (lineEnd, rest) => lineEnd.foldr push (readLines? quote fuel rest)
      | none =>
        if c = '\\' ∧ quote = '"' then
          match afterNewline? (cs.dropWhile isSpace) with
          | some rest => readLines? quote fuel (skipBlankLines rest.length rest)
          | none =>
            match readEscape? cs with
            | some (c, rest) => push c (readLines? quote fuel rest)
            | none => none
        else if isContent c then push c (readLines? quote fuel cs)
        else none

/-- Reads a string of several lines behind its first three quotes; a line end right there does not
count. -/
def readMultiline? (quote : Char) (cs : List Char) : Option (List Char × List Char) :=
  readLines? quote (cs.length + 1) ((afterNewline? cs).getD cs)

/-! ### Numbers -/

def isGrouped (isDigit : Char → Bool) : List Char → Bool
  | [] => false
  | [c] => isDigit c
  | c :: d :: cs =>
    isDigit c && if d = '_' then isGrouped isDigit cs else isGrouped isDigit (d :: cs)

/-- Digits without leading zero, grouped perhaps. -/
def isWhole (cs : List Char) : Bool :=
  isGrouped Char.isDigit cs && (cs.head? != some '0' || cs.length = 1)

def ungrouped (cs : List Char) : List Char := cs.filter (· ≠ '_')

def signOf : List Char → Bool × List Char
  | '-' :: cs => (true, cs)
  | '+' :: cs => (false, cs)
  | cs => (false, cs)

def grouped? (radix : Nat) (cs : List Char) : Option Nat :=
  if isGrouped (fun c => (Text.Numeral.digit? radix c).isSome) cs then
    Text.Numeral.value? radix (ungrouped cs)
  else none

/-- The integer that a word denotes, if it fits into eight bytes. -/
def integer? (word : List Char) : Option Int :=
  let n? : Option Int :=
    match word with
    | '0' :: 'x' :: ds => (grouped? 16 ds).map Int.ofNat
    | '0' :: 'o' :: ds => (grouped? 8 ds).map Int.ofNat
    | '0' :: 'b' :: ds => (grouped? 2 ds).map Int.ofNat
    | word =>
      let (negative, ds) := signOf word
      if isWhole ds then
        (grouped? 10 ds).map fun n => if negative then -Int.ofNat n else Int.ofNat n
      else none
  n?.filter fun n => -2 ^ 63 ≤ n && n < 2 ^ 63

def exponent? (cs : List Char) : Option Int :=
  let (negative, ds) := signOf cs
  (grouped? 10 ds).map fun n => if negative then -Int.ofNat n else Int.ofNat n

/-- The decimal that the unsigned part of a float denotes: a point or an exponent makes it one. -/
def decimal? (cs : List Char) : Option Decimal := do
  let isLetter (c : Char) : Bool := c == 'e' || c == 'E'
  let mantissa := cs.takeWhile fun c => !isLetter c
  let scale := cs.dropWhile fun c => !isLetter c
  let whole := mantissa.takeWhile (· ≠ '.')
  let fraction := mantissa.dropWhile (· ≠ '.')
  guard (isWhole whole && !(fraction.isEmpty && scale.isEmpty))
  guard (fraction.isEmpty || isGrouped Char.isDigit (fraction.drop 1))
  let e ← if scale.isEmpty then some 0 else exponent? (scale.drop 1)
  let places := ungrouped (fraction.drop 1)
  let digits ← Text.Numeral.value? 10 (ungrouped whole ++ places)
  return ⟨digits, e - places.length⟩

/-- The float that a word denotes, which must be finite unless it is written as infinity. -/
def float? (word : List Char) : Option Binary64 :=
  let (negative, cs) := signOf word
  if cs = "inf".toList then some (.ofFloat (if negative then -(1 / 0) else 1 / 0))
  else if cs = "nan".toList then some (.ofFloat (0 / 0))
  else
    ((decimal? cs).map (Binary64.nearest negative)).filter fun b => !b.isInfinite

/-! ### Dates and times -/

/-- A number of exactly `count` digits between bounds, and the rest. -/
def field? (count low high : Nat) (cs : List Char) : Option (Nat × List Char) := do
  let ds := cs.take count
  guard (ds.length = count && ds.all Char.isDigit)
  let n ← Text.Numeral.value? 10 ds
  guard (low ≤ n && n ≤ high)
  return (n, cs.drop count)

def expect? (c : Char) : List Char → Option (List Char)
  | d :: cs => if d = c then some cs else none
  | [] => none

def daysOf (year month : Nat) : Nat :=
  if month = 2 then
    if year % 4 = 0 ∧ (year % 100 ≠ 0 ∨ year % 400 = 0) then 29 else 28
  else if month = 4 ∨ month = 6 ∨ month = 9 ∨ month = 11 then 30
  else 31

def afterDate? (cs : List Char) : Option (List Char) := do
  let (year, cs) ← field? 4 0 9999 cs
  let (month, cs) ← field? 2 1 12 (← expect? '-' cs)
  let (_, cs) ← field? 2 1 (daysOf year month) (← expect? '-' cs)
  return cs

/-- What follows the seconds of a time, which may be missing, and their decimal places, which may be
missing too. -/
def afterSeconds? : List Char → Option (List Char)
  | ':' :: cs => do
    let (_, cs) ← field? 2 0 60 cs
    match cs with
    | '.' :: rest =>
      guard (rest.head?.any Char.isDigit)
      return rest.dropWhile Char.isDigit
    | cs => return cs
  | cs => some cs

def afterTime? (cs : List Char) : Option (List Char) := do
  let (_, cs) ← field? 2 0 23 cs
  let (_, cs) ← field? 2 0 59 (← expect? ':' cs)
  afterSeconds? cs

/-- Whether a text is an offset from universal time, or nothing. -/
def isOffset (cs : List Char) : Bool :=
  match cs with
  | [] => true
  | ['Z'] => true
  | ['z'] => true
  | c :: cs =>
    (c == '+' || c == '-') && Option.isSome do
      let (_, cs) ← field? 2 0 23 cs
      let (_, cs) ← field? 2 0 59 (← expect? ':' cs)
      guard cs.isEmpty

/-- Whether a text is a time of day with an offset perhaps. -/
def isTimeOfDate (cs : List Char) : Bool := (afterTime? cs).any isOffset

def isDateTime (word : List Char) : Bool :=
  match afterDate? word with
  | some [] => true
  | some (c :: cs) => (c == 'T' || c == 't') && isTimeOfDate cs
  | none => afterTime? word == some []

/-! ### Words -/

def wordValue? (word : List Char) : Option TomlValue :=
  if word = "true".toList then some (.bool true)
  else if word = "false".toList then some (.bool false)
  else if isDateTime word then some .dateTime
  else
    match integer? word with
    | some n => some (.integer n)
    | none => (float? word).map .float

/-- Reads a word as a value, a date with a second word as its time. -/
def readWord? (cs : List Char) : Option (TomlValue × List Char) := do
  let word := cs.takeWhile isWordChar
  let rest := cs.dropWhile isWordChar
  let value ← wordValue? word
  match rest with
  | ' ' :: time =>
    if afterDate? word == some [] && isTimeOfDate (time.takeWhile isWordChar) then
      return (.dateTime, time.dropWhile isWordChar)
    else return (value, rest)
  | _ => return (value, rest)

def readString? : List Char → Option (List Char × List Char)
  | '"' :: '"' :: '"' :: cs => readMultiline? '"' cs
  | '"' :: cs => readBasic? (cs.length + 1) cs
  | '\x27' :: '\x27' :: '\x27' :: cs => readMultiline? '\x27' cs
  | '\x27' :: cs => readLiteral? cs
  | _ => none

end Toml

end TxForensics
