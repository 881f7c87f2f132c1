import TxForensics.Text.Affix
import TxForensics.Text.Blank
import TxForensics.Text.Numeral
import TxForensics.Word

/-!
# Values of storage words

How the content of a storage slot is shown. The declared type, an identifier such as
`t_string_storage` or a label such as `contract Token`, is classified by `ValueType.parse`; the
word is then shown by `ValueType.render`: numbers in decimal, addresses and fixed bytes in hex,
truth values by name, short strings between quotes, and whatever else as the whole word.

Integers are shown as unsigned numbers. A short string stands in the high bytes of its word with
twice its length in the lowest byte; a long one leaves only its length in the slot.
-/

namespace TxForensics

/-- What a declared type means for showing a value. -/
inductive ValueType where
  | string
  /-- Bytes of any length. -/
  | bytes
  /-- Addresses and contracts. -/
  | address
  | bool
  /-- Unsigned integers of a bit width, and enumerations. -/
  | uint (bits : Nat)
  /-- Signed integers of a bit width. -/
  | int (bits : Nat)
  /-- A fixed number of bytes. -/
  | fixedBytes (count : Nat)
  /-- Mappings, arrays, structures and unknown types, as declared. -/
  | other (declared : String)
deriving DecidableEq, Repr

namespace ValueType

/-! ### Classification -/

/-- The endings by which type identifiers tell where a value lives. -/
def locationEndings : List String := ["_storage_ptr", "_storage", "_memory_ptr", "_calldata_ptr"]

/-- The type itself: a declared type without blank characters around it, without the mark of an
identifier in front and without a location behind. -/
def bareType (declared : String) : List Char :=
  let cs := Text.trim declared.toList
  let cs := (Text.after? "t_" cs).getD cs
  (locationEndings.findSome? (Text.before? · cs)).getD cs

/-- The bit width behind an integer type; 256 if none is written. -/
def bitWidth? (cs : List Char) : Option Nat :=
  if cs = [] then some 256
  else
    (Text.Numeral.readBelow 10 (2 ^ 16) cs).toOption.filter fun bits =>
      0 < bits && bits ≤ 256 && bits % 8 = 0

def byteCount? (cs : List Char) : Option Nat :=
  (Text.Numeral.readBelow 10 (2 ^ 8) cs).toOption.filter fun count => 1 ≤ count && count ≤ wordSize

def isComposite (cs : List Char) : Bool :=
  cs.getLast? == some ']' ||
    ["array", "mapping", "struct"].any fun word => (Text.after? word cs).isSome

/-- The types that are written by one name alone. -/
def named? (cs : List Char) : Option ValueType :=
  if cs = "string".toList then some string
  else if cs = "bytes".toList then some bytes
  else if cs = "bool".toList then some bool
  else if cs = "address".toList ∨ cs = "address_payable".toList ∨ cs = "address payable".toList then
    some address
  else if (Text.after? "contract" cs).isSome then some address
  else if (Text.after? "enum" cs).isSome then some (uint 8)
  else none

/-- The types that are written with a size: integers and fixed bytes. -/
def sized? (cs : List Char) : Option ValueType :=
  match Text.after? "uint" cs, Text.after? "int" cs, Text.after? "bytes" cs with
  | some rest, _, _ => (bitWidth? rest).map uint
  | none, some rest, _ => (bitWidth? rest).map int
  | none, none, some rest => (byteCount? rest).map fixedBytes
  | none, none, none => none

def parse (declared : String) : ValueType :=
  let cs := bareType declared
  if isComposite cs then other declared
  else ((named? cs) <|> (sized? cs)).getD (other declared)

/-! ### Showing values -/

def longString : String := "string (long)"

/-- The string in a slot. Its tag, the lowest byte, is twice the length of a short string. -/
def renderString (w : Word) : String :=
  -- a tag of zero is no length: the empty string is the word zero
  let tag := (w.byte 0).toNat
  if w.isZero then "\"\""
  else if tag = 0 ∨ tag % 2 = 1 ∨ tag > 2 * (wordSize - 1) then longString
  else
    let content := w.firstBytes (tag / 2)
    match Text.Utf8.decode? content with
    | some cs => "\"" ++ .ofList cs ++ "\""
    | none => Hex.prefixed content

/-- Shows a word as a value, the value standing at the least significant end. -/
def render (w : Word) : ValueType → String
  | string => renderString w
  | address => Hex.prefixed (w.lastBytes 20)
  | bool => if w.isZero then "false" else "true"
  | uint _ => Text.Numeral.decimal w.toNat
  | int _ => Text.Numeral.decimal w.toNat
  | fixedBytes count => Hex.prefixed (w.lastBytes count)
  | bytes => w.hex
  | other _ => w.hex

end ValueType

def renderStorageValue (w : Word) (declared : String) : String :=
  (ValueType.parse declared).render w

end TxForensics
