import TxForensics.Json.Document
import TxForensics.Text.Quoted

/-!
# Records in JSON

Reading a document as a value of a known shape. A record is described by its fields in their
declared order; it may be written as an object, with members in any order and unknown ones
ignored, or as an array of its fields in the declared order.

The first failure in the order of the document is reported, and a required field that is missing
only after everything that is there. In a text the failure may be that the document breaks off.
-/

namespace TxForensics

/-- Why a document is no value of the shape that was asked for. -/
inductive JsonShapeError where
  /-- Something else was found than expected. -/
  | invalidType (found expected : String)
  /-- A number was found that the type does not hold. -/
  | invalidValue (found expected : String)
  /-- An array ends after `count` fields of a record. -/
  | invalidLength (count : Nat) (expected : String)
  /-- An array goes on after all fields of a record. -/
  | excessItems (count : Nat)
  | missingField (name : String)
  | duplicateField (name : String)
  /-- A text is no quantity. -/
  | invalidQuantity (text : String) (cause : Text.NumeralError)
  /-- A value is neither a number nor a text, where a quantity may be either. -/
  | noQuantity
  /-- The document breaks off. -/
  | unreadable (e : JsonReadError)
deriving DecidableEq, Repr

/-- The wording of a shape error; that of a document that breaks off is up to its reader. -/
def JsonShapeError.message : JsonShapeError → String
  | .invalidType found expected => "invalid type: " ++ found ++ ", expected " ++ expected
  | .invalidValue found expected => "invalid value: " ++ found ++ ", expected " ++ expected
  | .invalidLength count expected =>
    "invalid length " ++ Text.Numeral.decimal count ++ ", expected " ++ expected
  | .excessItems count =>
    "invalid length " ++ Text.Numeral.decimal count ++ ", expected fewer elements in array"
  | .missingField name => "missing field `" ++ name ++ "`"
  | .duplicateField name => "duplicate field `" ++ name ++ "`"
  | .invalidQuantity text cause => "invalid quantity `" ++ text ++ "`: " ++ cause.message
  | .noQuantity => "data did not match any variant of untagged enum Quantity"
  | .unreadable _ => "unreadable"

namespace JsonNumber

def describe : JsonNumber → String
  | integer n => "integer `" ++ (integer n).print ++ "`"
  | float b => "floating point `" ++ (float b).print ++ "`"

end JsonNumber

namespace DocumentItems

def count : DocumentItems → Nat
  | nil => 0
  | cons _ rest => rest.count + 1
  | stop _ => 0

def take : Nat → DocumentItems → DocumentItems
  | 0, _ => nil
  | n + 1, cons item rest => cons item (rest.take n)
  | _ + 1, items => items

end DocumentItems

namespace Document

def mismatch (expected : String) : Document → JsonShapeError
  | null => .invalidType "null" expected
  | bool b => .invalidType ("boolean `" ++ (if b then "true" else "false") ++ "`") expected
  | number n => .invalidType n.describe expected
  | text s => .invalidType ("string " ++ Text.Quoted.text s) expected
  | array _ => .invalidType "sequence" expected
  | object _ => .invalidType "map" expected
  | unreadable e => .unreadable e

/-! ### Single values -/

def natBelow (bound : Nat) (typeName : String) : Document → Except JsonShapeError Nat
  | number (.integer n) =>
    if 0 ≤ n ∧ n < bound then .ok n.toNat
    else .error (.invalidValue (JsonNumber.integer n).describe typeName)
  | d => .error (d.mismatch typeName)

def uint32 (d : Document) : Except JsonShapeError UInt32 :=
  (d.natBelow (2 ^ 32) "u32").map Nat.toUInt32

def uint64 (d : Document) : Except JsonShapeError UInt64 :=
  (d.natBelow (2 ^ 64) "u64").map Nat.toUInt64

/-- A number of the size of an address. -/
def wordSized (d : Document) : Except JsonShapeError UInt64 :=
  (d.natBelow (2 ^ 64) "usize").map Nat.toUInt64

def int64 : Document → Except JsonShapeError Int
  | number (.integer n) =>
    if -2 ^ 63 ≤ n ∧ n < 2 ^ 63 then .ok n
    else .error (.invalidValue (JsonNumber.integer n).describe "i64")
  | d => .error (d.mismatch "i64")

def string : Document → Except JsonShapeError String
  | text s => .ok s
  | d => .error (d.mismatch "a string")

def boolean : Document → Except JsonShapeError Bool
  | bool b => .ok b
  | d => .error (d.mismatch "a boolean")

def optional (read : Document → Except JsonShapeError α) :
    Document → Except JsonShapeError (Option α)
  | null => .ok none
  | d => (read d).map some

/-- The number that a text denotes: hexadecimal behind `0x`, else decimal. -/
def quantityOfText (s : String) : Except Text.NumeralError Nat :=
  match s.toList with
  | '0' :: 'x' :: ds => Text.Numeral.readBelow 16 (2 ^ 64) ds
  | ds => Text.Numeral.readBelow 10 (2 ^ 64) ds

/-- A number of eight bytes, or a text that denotes one. -/
def quantity : Document → Except JsonShapeError UInt64
  | number (.integer n) => if 0 ≤ n ∧ n < 2 ^ 64 then .ok n.toNat.toUInt64 else .error .noQuantity
  | text s =>
    match quantityOfText s with
    | .ok n => .ok n.toUInt64
    | .error cause => .error (.invalidQuantity s cause)
  | unreadable e => .error (.unreadable e)
  | _ => .error .noQuantity

/-! ### Lists and maps -/

/-- The values of items. -/
def readItems (read : Document → Except JsonShapeError α) :
    DocumentItems → Except JsonShapeError (List α)
  | .nil => .ok []
  | .stop e => .error (.unreadable e)
  | .cons item rest => do
    let a ← read item
    let as ← readItems read rest
    return a :: as

def list (read : Document → Except JsonShapeError α) : Document → Except JsonShapeError (List α)
  | array items => readItems read items
  | d => .error (d.mismatch "a sequence")

def triple (read : Document → Except JsonShapeError α) :
    Document → Except JsonShapeError (α × α × α)
  | array items => do
    match ← readItems read (items.take 3), items.count with
    | [a, b, c], 3 => return (a, b, c)
    | [_, _, _], count => throw (.excessItems count)
    | as, _ => throw (.invalidLength as.length "a tuple of size 3")
  | d => .error (d.mismatch "a tuple of size 3")

/-- The values of members by their keys, the last one of each key, on top of those before. -/
def readEntries (read : Document → Except JsonShapeError α) (before : SortedMap α) :
    DocumentMembers → Except JsonShapeError (SortedMap α)
  | .nil => .ok before
  | .stop e => .error (.unreadable e)
  | .cons key value rest => do
    let k ← key.mapError .unreadable
    let a ← read value
    readEntries read (before.insert k a) rest

def map (read : Document → Except JsonShapeError α) :
    Document → Except JsonShapeError (SortedMap α)
  | object members => readEntries read .empty members
  | d => .error (d.mismatch "a map")

end Document

/-! ### Records -/

/-- A field of a record of the type `ρ`. -/
structure RecordField (ρ : Type) where
  name : String
  /-- Whether the field must be there. -/
  required : Bool
  /-- Reads the field into a record. -/
  read : ρ → Document → Except JsonShapeError ρ

namespace RecordField

def mandatory (name : String) (read : Document → Except JsonShapeError α) (set : ρ → α → ρ) :
    RecordField ρ :=
  ⟨name, true, fun r d => (read d).map (set r)⟩

def defaulted (name : String) (read : Document → Except JsonShapeError α) (set : ρ → α → ρ) :
    RecordField ρ :=
  ⟨name, false, fun r d => (read d).map (set r)⟩

end RecordField

structure RecordShape (ρ : Type) where
  typeName : String
  /-- The fields in their declared order. -/
  fields : List (RecordField ρ)
  /-- The record before anything is read. -/
  blank : ρ

namespace RecordShape

def expectedItems (s : RecordShape ρ) : String :=
  "struct " ++ s.typeName ++ " with " ++ Text.Numeral.decimal s.fields.length ++
    (if s.fields.length = 1 then " element" else " elements")

/-- Reads members into a record, where the fields in `seen` have been read. -/
def readMembers (s : RecordShape ρ) (seen : List String) (r : ρ) :
    DocumentMembers → Except JsonShapeError (List String × ρ)
  | .nil => .ok (seen, r)
  | .stop e => .error (.unreadable e)
  | .cons key value rest => do
    let k ← key.mapError .unreadable
    match s.fields.find? (·.name == k) with
    | none => readMembers s seen r rest
    | some field =>
      if seen.contains k then .error (.duplicateField k)
      else
        let r ← field.read r value
        readMembers s (k :: seen) r rest

/-- Reads items into a record, the first of them as the field at `position`. -/
def readItems (s : RecordShape ρ) (position : Nat) (r : ρ) :
    List (RecordField ρ) → DocumentItems → Except JsonShapeError ρ
  | [], .nil => .ok r
  | [], .stop e => .error (.unreadable e)
  | [], .cons _ rest => .error (.excessItems (position + rest.count + 1))
  | _ :: _, .stop e => .error (.unreadable e)
  | field :: fields, .nil =>
    if field.required then .error (.invalidLength position s.expectedItems)
    else readItems s (position + 1) r fields .nil
  | field :: fields, .cons item rest => do
    let r ← field.read r item
    readItems s (position + 1) r fields rest

def read (s : RecordShape ρ) : Document → Except JsonShapeError ρ
  | .object members => do
    let (seen, r) ← s.readMembers [] s.blank members
    match s.fields.find? fun field => field.required && !seen.contains field.name with
    | some field => .error (.missingField field.name)
    | none => .ok r
  | .array items => s.readItems 0 s.blank s.fields items
  | d => .error (d.mismatch ("struct " ++ s.typeName))

end RecordShape

end TxForensics
