import TxForensics.Json.Value
import TxForensics.Text.Utf8

/-!
# JSON tokens

The first stage of reading JSON

    text ──tokenize──▶ tokens ──ofTokens──▶ document ──▶ tree or model

cuts a text into tokens, up to the first place where none can be read. That place is a token of
its own, and it carries two errors, since it depends on the reader what goes wrong there: a reader
that wants the value, and one that only skips it. So `"\ud800x` is malformed for the first, which
misses the second half of a surrogate pair, while the second finds that the text ends too early.

For the same reason a text whose escapes are no characters, or a number that no floating-point
number comes near, is a token without content: it can be skipped but not used.
-/

namespace TxForensics

inductive JsonReadError where
  /-- The text ends too early. -/
  | endOfText
  /-- The text is not JSON. -/
  | malformed
deriving DecidableEq, Repr

/-- A place where reading ends. -/
structure JsonBreak where
  /-- The error if the value is wanted. -/
  used : JsonReadError
  /-- The error if the value is skipped. -/
  skipped : JsonReadError
deriving DecidableEq

/-- The same error for every reader. -/
def JsonBreak.both (e : JsonReadError) : JsonBreak := ⟨e, e⟩

inductive JsonToken where
  | openBracket
  | closeBracket
  | openBrace
  | closeBrace
  | comma
  | colon
  | null
  | bool (b : Bool)
  /-- A number; none if it is too large for a floating-point number. -/
  | number (n : Option JsonNumber)
  /-- A text; none if an escape in it is no character. -/
  | text (s : Option String)
  /-- A text that does not end. -/
  | brokenText (b : JsonBreak)
  /-- Another place where no token can be read. -/
  | broken (b : JsonBreak)
deriving DecidableEq

namespace JsonToken

def isSpace (c : Char) : Bool := c == ' ' || c == '\n' || c == '\t' || c == '\r'

/-! ### Texts -/

structure PartialText where
  /-- The characters in reverse. -/
  content : List Char := []
  /-- The first half of a surrogate pair. -/
  pending : Option Nat := none
  /-- Whether an escape was no character. -/
  spoiled : Bool := false

namespace PartialText

/-- A half of a surrogate pair that is still open has no second one. -/
def settle (t : PartialText) : PartialText :=
  { t with pending := none, spoiled := t.spoiled || t.pending.isSome }

def push (t : PartialText) (c : Char) : PartialText :=
  let t := t.settle
  { t with content := c :: t.content }

def pushUnit (t : PartialText) (unit : Nat) : PartialText :=
  if 0xDC00 ≤ unit ∧ unit ≤ 0xDFFF then
    match t.pending with
    | some high =>
      { t with
        content := .ofNat (0x10000 + (high - 0xD800) * 0x400 + (unit - 0xDC00)) :: t.content
        pending := none }
    | none => { t with spoiled := true }
  else if 0xD800 ≤ unit ∧ unit ≤ 0xDBFF then { t.settle with pending := some unit }
  else t.push (.ofNat unit)

def finish (t : PartialText) : JsonToken :=
  .text (if t.settle.spoiled then none else some (.ofList t.content.reverse))

def breakOff (t : PartialText) (e : JsonReadError) : JsonToken :=
  .brokenText ⟨if t.spoiled then .malformed else e, e⟩

/-- The token of a text that ends in the middle. A pair that is still open may have gone on. -/
def unfinished (t : PartialText) : JsonToken := t.breakOff .endOfText

end PartialText

def escaped? (c : Char) : Option Char :=
  match c with
  | '"' => some '"'
  | '\\' => some '\\'
  | '/' => some '/'
  | 'b' => some (.ofNat 8)
  | 'f' => some (.ofNat 12)
  | 'n' => some '\n'
  | 'r' => some '\r'
  | 't' => some '\t'
  | _ => none

def unit? (a b c d : Char) : Option Nat := Text.Numeral.value? 16 [a, b, c, d]

/-- Reads a text behind its opening quote; the second part is what follows it. -/
def readText (t : PartialText) : List Char → JsonToken × List Char
  | [] => (t.unfinished, [])
  | '"' :: cs => (t.finish, cs)
  | '\\' :: 'u' :: a :: b :: c :: d :: cs =>
    match unit? a b c d with
    | some unit => readText (t.pushUnit unit) cs
    | none => (t.breakOff .malformed, [])
  | '\\' :: 'u' :: cs =>
    (if Text.Utf8.size cs < 4 then t.unfinished else t.breakOff .malformed, [])
  | '\\' :: c :: cs =>
    match escaped? c with
    | some c => readText (t.push c) cs
    | none => (t.breakOff .malformed, [])
  | ['\\'] => (t.unfinished, [])
  | c :: cs =>
    if c.toNat < 0x20 then (t.settle.breakOff .malformed, [])
    else readText (t.push c) cs

/-! ### Numbers -/

def powerOfTen (n : Nat) : Float := .ofScientific 1 false n

/-- `f * 10 ^ exponent` as a floating-point number, none if it is too large. The exponent is applied
in one multiplication or division by an exact or nearest power of ten, after as many divisions by
`10 ^ 308` as it takes; each of these rounds. -/
def scaleFloat (f : Float) (exponent : Int) : Option Float :=
  if exponent.natAbs ≤ 308 then
    if 0 ≤ exponent then
      let g := f * powerOfTen exponent.natAbs
      if g.isInf then none else some g
    else some (f / powerOfTen exponent.natAbs)
  else if f == 0 then some f
  else if 0 ≤ exponent then none
  else scaleFloat (f / powerOfTen 308) (exponent + 308)
termination_by exponent.natAbs
decreasing_by omega

/-- The digits of a number as far as they fit into eight bytes, with the power of ten that stands
for the others. -/
structure Significand where
  value : Nat
  exponent : Int

/-- A digit can follow a significand of eight bytes. -/
def fits (value digit : Nat) : Bool := value * 10 + digit < 2 ^ 64

def digit (c : Char) : Nat := c.toNat - 48

/-- Continues the digits in front of the point; those that do not fit count by place only. -/
def readWhole (value : Nat) : List Char → Significand
  | [] => ⟨value, 0⟩
  | c :: cs =>
    if fits value (digit c) then readWhole (value * 10 + digit c) cs
    else ⟨value, (c :: cs).length⟩

/-- Continues the digits behind the point; those from the first that does not fit do not count. -/
def readFraction (s : Significand) : List Char → Significand
  | [] => s
  | c :: cs =>
    if fits s.value (digit c) then readFraction ⟨s.value * 10 + digit c, s.exponent - 1⟩ cs else s

structure NumberText where
  negative : Bool
  whole : List Char
  fraction : List Char := []
  /-- The exponent, if written. -/
  exponent : Option (Bool × List Char) := none

namespace NumberText

/-- The exponent as a number; one that needs more than four bytes stands at their limit. -/
def exponentValue (n : NumberText) : Int :=
  match n.exponent with
  | none => 0
  | some (negative, ds) =>
    let magnitude := min ((Text.Numeral.value? 10 ds).getD 0) (2 ^ 31 - 1)
    if negative then -magnitude else magnitude

def float? (n : NumberText) : Option Binary64 :=
  let s := readFraction (readWhole 0 n.whole) n.fraction
  let magnitude := scaleFloat s.value.toUInt64.toFloat (s.exponent + n.exponentValue)
  magnitude.map fun f => .ofFloat (if n.negative then -f else f)

def number? (n : NumberText) : Option JsonNumber :=
  let value := (Text.Numeral.value? 10 n.whole).getD 0
  if n.fraction = [] ∧ n.exponent = none then
    if n.negative then
      if 0 < value ∧ value ≤ 2 ^ 63 then some (.integer (-value)) else n.float?.map .float
    else if value < 2 ^ 64 then some (.integer value)
    else n.float?.map .float
  else n.float?.map .float

end NumberText

def spanDigits (cs : List Char) : List Char × List Char := cs.span Char.isDigit

/-- The place where a number lacks a digit. A skipped number needs one even at the end of the
text. -/
def missingDigit (cs : List Char) : JsonToken :=
  .broken ⟨if cs = [] then .endOfText else .malformed, .malformed⟩

def readExponent (n : NumberText) (cs : List Char) : JsonToken × List Char :=
  match cs with
  | c :: cs =>
    if c == 'e' || c == 'E' then
      let (negative, cs) :=
        match cs with
        | '+' :: cs => (false, cs)
        | '-' :: cs => (true, cs)
        | cs => (false, cs)
      match spanDigits cs with
      | ([], rest) => (missingDigit rest, [])
      | (ds, rest) => (.number { n with exponent := some (negative, ds) }.number?, rest)
    else (.number n.number?, c :: cs)
  | [] => (.number n.number?, [])

/-- Reads a number behind its sign. -/
def readNumber (negative : Bool) (cs : List Char) : JsonToken × List Char :=
  match spanDigits cs with
  | ([], rest) => (missingDigit rest, [])
  | ('0' :: _ :: _, _) => (.broken (.both .malformed), [])
  | (whole, '.' :: rest) =>
    match spanDigits rest with
    | ([], rest) => (missingDigit rest, [])
    | (fraction, rest) => readExponent { negative, whole, fraction } rest
  | (whole, rest) => readExponent { negative, whole } rest

/-! ### The tokens of a text -/

def readName (token : JsonToken) (name cs : List Char) : JsonToken × List Char :=
  match name, cs with
  | [], cs => (token, cs)
  | _ :: _, [] => (.broken (.both .endOfText), [])
  | n :: name, c :: cs =>
    if n = c then readName token name cs else (.broken (.both .malformed), [])

def readToken (c : Char) (cs : List Char) : JsonToken × List Char :=
  match c with
  | '[' => (.openBracket, cs)
  | ']' => (.closeBracket, cs)
  | '{' => (.openBrace, cs)
  | '}' => (.closeBrace, cs)
  | ',' => (.comma, cs)
  | ':' => (.colon, cs)
  | '"' => readText {} cs
  | 'n' => readName .null "ull".toList cs
  | 't' => readName (.bool true) "rue".toList cs
  | 'f' => readName (.bool false) "alse".toList cs
  | '-' => readNumber true cs
  | c => if c.isDigit then readNumber false (c :: cs) else (.broken (.both .malformed), [])

def isBreak : JsonToken → Bool
  | brokenText _ => true
  | broken _ => true
  | _ => false

/-- The tokens of a text, at most `fuel` of them. -/
def tokensWithin : Nat → List Char → List JsonToken
  | 0, _ => []
  | fuel + 1, cs =>
    match cs.dropWhile isSpace with
    | [] => []
    | c :: rest =>
      let (token, rest) := readToken c rest
      if token.isBreak then [token] else token :: tokensWithin fuel rest

/-- The tokens of a text. Each takes a character at least, so there are no more than those. -/
def tokenize (cs : List Char) : List JsonToken := tokensWithin cs.length cs

end JsonToken

end TxForensics
