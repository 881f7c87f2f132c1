import TxForensics.Decimal.Shortest
import TxForensics.Text.Numeral

/-!
# JSON values

JSON as a tree, and its printed form: no blank characters, members in the order in which the tree
lists them, and of the characters of a text only those escaped that must be.

A number keeps its kind. It is an integer if it was written without fraction and exponent and lies
between `-2 ^ 63` and `2 ^ 64 - 1`, else a floating-point number.
-/

namespace TxForensics

inductive JsonNumber where
  | integer (n : Int)
  | float (b : Binary64)
deriving DecidableEq, Repr

inductive Json where
  | null
  | bool (b : Bool)
  | number (n : JsonNumber)
  | text (s : String)
  | array (items : List Json)
  | object (members : List (String × Json))

namespace JsonNumber

/-- Floating-point numbers in JSON: positional with a point from 10^-5 to 10^15, else with an
exponent; the even digit stands for a tie. -/
def floatFormat : DecimalFormat := ⟨.even, some (-5, 15), true⟩

def print : JsonNumber → String
  | integer n => Text.Numeral.signed n
  | float b => floatFormat.text b

end JsonNumber

namespace Json

instance : Inhabited Json := ⟨null⟩

def nat (n : Nat) : Json := .number (.integer n)

def orNull (f : α → Json) : Option α → Json
  | none => null
  | some a => f a

/-- An object of the members that are present. -/
def ofMembers (members : List (Option (String × Json))) : Json := .object (members.filterMap id)

def member (key : String) (value : Json) : Option (String × Json) := some (key, value)

/-- A member that is left out if there is no value for it. -/
def member? (key : String) (f : α → Json) (value : Option α) : Option (String × Json) :=
  value.map fun a => (key, f a)

def members : Json → List (String × Json)
  | object ms => ms
  | _ => []

/-- The member of an object with a key, null if there is none. -/
def get (j : Json) (key : String) : Json := (j.members.lookup key).getD null

/-! ### Printing -/

def escape (c : Char) : List Char :=
  if c = '"' then ['\\', '"']
  else if c = '\\' then ['\\', '\\']
  else if c = '\n' then ['\\', 'n']
  else if c = '\r' then ['\\', 'r']
  else if c = '\t' then ['\\', 't']
  else if c.toNat = 8 then ['\\', 'b']
  else if c.toNat = 12 then ['\\', 'f']
  else if c.toNat < 0x20 then '\\' :: 'u' :: Text.Numeral.padded 16 4 c.toNat
  else [c]

def printText (s : String) : List Char := '"' :: s.toList.flatMap escape ++ ['"']

mutual

/-- The printed form of a value, in front of `tail`. -/
def printOnto (tail : List Char) : Json → List Char
  | null => "null".toList ++ tail
  | bool b => (if b then "true" else "false").toList ++ tail
  | number n => n.print.toList ++ tail
  | text s => printText s ++ tail
  | array items => '[' :: printItemsOnto (']' :: tail) items
  | object ms => '{' :: printMembersOnto ('}' :: tail) ms

def printItemsOnto (tail : List Char) : List Json → List Char
  | [] => tail
  | [j] => printOnto tail j
  | j :: js => printOnto (',' :: printItemsOnto tail js) j

def printMembersOnto (tail : List Char) : List (String × Json) → List Char
  | [] => tail
  | [(k, j)] => printText k ++ ':' :: printOnto tail j
  | (k, j) :: ms => printText k ++ ':' :: printOnto (',' :: printMembersOnto tail ms) j

end

def print (j : Json) : String := .ofList (j.printOnto [])

end Json

end TxForensics
