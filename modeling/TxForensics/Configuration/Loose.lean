import TxForensics.Configuration.Value
import TxForensics.Decimal.Nearest
import TxForensics.Text.Blank
import TxForensics.Text.Cut

/-!
# The loose syntax of environment variables

The text of an environment variable is read as the value it looks like: a truth value, a number, a
quoted text, a sequence in brackets, a map in braces, or nothing at all. What looks like none of
these is a text, and so is a whole that does not read to its end: a bracket without its partner is
an ordinary character.

In a quoted text, what stands in front of the first escape is kept up to as many octets as it has
characters. That is all of it in ASCII, and in a text without escapes nothing is cut; where the cut
falls within a character, there is no value at all (`ofLoose`).
-/

namespace TxForensics

namespace SettingValue

def isSeparator (c : Char) : Bool := [',', '{', '}', '[', ']'].contains c

def isMemberChar (c : Char) : Bool := c.isAlphanum || c == '_' || c == '-'

/-! ### Numbers -/

def looseExponent? (cs : List Char) : Option Int := do
  let (negative, ds) := Toml.signOf cs
  guard !ds.isEmpty
  let n ← Text.Numeral.value? 10 ds
  return if negative then -Int.ofNat n else Int.ofNat n

/-- The number of a text with a point: digits on one side of it at least, and an exponent
perhaps. -/
def looseFloat? (cs : List Char) : Option Binary64 := do
  let (negative, cs) := Toml.signOf cs
  let isLetter (c : Char) : Bool := c == 'e' || c == 'E'
  let mantissa := cs.takeWhile fun c => !isLetter c
  let scale := cs.dropWhile fun c => !isLetter c
  let whole := mantissa.takeWhile (· ≠ '.')
  let places := (mantissa.dropWhile (· ≠ '.')).drop 1
  guard (mantissa.contains '.' && !(whole ++ places).isEmpty)
  let digits ← Text.Numeral.value? 10 (whole ++ places)
  let e ← if scale.isEmpty then some 0 else looseExponent? (scale.drop 1)
  return .nearest negative ⟨digits, e - places.length⟩

def looseNegative? : List Char → Option Int
  | '-' :: '+' :: _ => none
  | '-' :: cs =>
    match Text.Numeral.readBelow 10 (2 ^ 63 + 1) cs with
    | .ok n => some (-Int.ofNat n)
    | .error _ => none
  | _ => none

/-- The number that an unquoted text looks like. -/
def looseNumber? (word : List Char) : Option SettingValue :=
  match if word.contains '.' then looseFloat? word else none with
  | some b => some (.float b)
  | none =>
    match Text.Numeral.readBelow 10 (2 ^ 64) word with
    | .ok n => some (.unsigned n)
    | .error _ => (looseNegative? word).map .signed

def ofWord (word : List Char) : SettingValue :=
  if word = [] then .unit
  else if word = "true".toList then .bool true
  else if word = "false".toList then .bool false
  else (looseNumber? word).getD (.text (.ofList word))

/-! ### Quoted texts -/

inductive LooseError where
  /-- It does not follow the syntax. -/
  | malformed
  /-- The text in front of an escape would be cut within a character. -/
  | divided (d : Text.DividedCharacter)
deriving DecidableEq, Repr

/-- What was read, which is malformed if nothing was. -/
def orMalformed (read : Option α) : Except LooseError α := read.elim (.error .malformed) .ok

/-- The raw content of a quoted text behind its first quote, and what follows it; a character behind
a backslash ends nothing. -/
def spanQuoted? : List Char → Option (List Char × List Char)
  | [] => none
  | '"' :: cs => some ([], cs)
  | '\\' :: c :: cs => (spanQuoted? cs).map fun (content, rest) => ('\\' :: c :: content, rest)
  | c :: cs => (spanQuoted? cs).map fun (content, rest) => (c :: content, rest)

/-- Reads the character of an escape behind its backslash. The escapes are those of a file but for
two: here the escape character has no letter, and no code point is written in two digits. -/
def readLooseEscape? : List Char → Option (Char × List Char)
  | 'e' :: _ => none
  | 'x' :: _ => none
  | cs => Toml.readEscape? cs

def readEscapes? : Nat → List Char → Option (List Char)
  | _, [] => some []
  | 0, _ => none
  | fuel + 1, '\\' :: cs =>
    match readLooseEscape? cs with
    | some (c, rest) => (readEscapes? fuel rest).map (c :: ·)
    | none => none
  | fuel + 1, c :: cs => if Toml.isContent c then (readEscapes? fuel cs).map (c :: ·) else none

/-- The content of a quoted text with its escapes read. What stands in front of the first escape is
kept up to as many octets as it has characters. -/
def unescape (content : List Char) : Except LooseError (List Char) :=
  let plain := content.takeWhile (· ≠ '\\')
  let escapes := content.dropWhile (· ≠ '\\')
  if !plain.all Toml.isContent then .error .malformed
  else if escapes.isEmpty then .ok plain
  else do
    let kept ← (Text.takeOctets plain.length plain).mapError .divided
    return kept ++ (← orMalformed (readEscapes? escapes.length escapes))

def readQuoted (cs : List Char) : Except LooseError (String × List Char) := do
  let (content, rest) ← orMalformed (spanQuoted? cs)
  return (.ofList (← unescape content), rest)

/-! ### Values -/

/-- What follows the name of a member, which may be empty. -/
def afterName (cs : List Char) : Except LooseError (List Char) :=
  match cs with
  | '"' :: rest => (readQuoted rest).map Prod.snd
  | cs => .ok (cs.dropWhile isMemberChar)

mutual

/-- Reads a value and the blank characters around it. -/
def readLoose : Nat → List Char → Except LooseError (SettingValue × List Char)
  | 0, _ => .error .malformed
  | fuel + 1, cs => do
    let (value, rest) ←
      match Text.trimStart cs with
      | '[' :: rest => (readLooseItems fuel rest).map (.sequence, ·)
      | '{' :: rest => (readLooseMembers fuel rest).map (.map, ·)
      | '"' :: rest => (readQuoted rest).map fun (s, rest) => (.text s, rest)
      | '\x27' :: c :: '\x27' :: rest => .ok (.text (.ofList [c]), rest)
      | '\x27' :: _ => .error .malformed
      | cs =>
        .ok (ofWord (Text.trim (cs.takeWhile fun c => !isSeparator c)),
          cs.dropWhile fun c => !isSeparator c)
    return (value, Text.trimStart rest)

def readLooseItems : Nat → List Char → Except LooseError (List Char)
  | 0, _ => .error .malformed
  | fuel + 1, cs =>
    match Text.trimStart cs with
    | ']' :: rest => .ok rest
    | cs => do
      match ← readLoose fuel cs with
      | (_, ']' :: rest) => .ok rest
      | (_, ',' :: rest) => readLooseItems fuel rest
      | _ => .error .malformed

def readLooseMembers : Nat → List Char → Except LooseError (List Char)
  | 0, _ => .error .malformed
  | fuel + 1, cs =>
    match Text.trimStart cs with
    | '}' :: rest => .ok rest
    | cs => do
      match Text.trimStart (← afterName cs) with
      | '=' :: rest =>
        match ← readLoose fuel rest with
        | (_, '}' :: rest) => .ok rest
        | (_, ',' :: rest) => readLooseMembers fuel rest
        | _ => .error .malformed
      | _ => .error .malformed

end

/-- The value of a text, if no quoted text in it is cut within a character; each part of it takes
two levels at most. -/
def ofLoose (text : List Char) : Except Text.DividedCharacter SettingValue :=
  match readLoose (2 * text.length + 2) text with
  | .ok (value, []) => .ok value
  | .error (.divided d) => .error d
  | _ => .ok (.text (.ofList text))

end SettingValue

end TxForensics
