/-!
# Numerals

Reading and writing natural numbers in a radix up to thirty-six.

`readBelow` reads an unsigned numeral with at most one leading plus sign and any number of leading
zeros, and refuses a number that is not below a given bound. It reads from left to right and
reports the first character that cannot continue a number below the bound, so a numeral that is
both too large and followed by a stray character is too large. `padded` writes a number with a
least number of digits.
-/

namespace TxForensics

/-- Powers, such as the bounds of numerals, are those of the core library, also where other
libraries with powers of their own are imported. -/
@[default_instance 20000]
instance (priority := 20000) corePow [NatPow α] : Pow α Nat := instPowNat

end TxForensics

namespace TxForensics.Text

/-- Why a text is no numeral of the kind that was asked for. -/
inductive NumeralError where
  /-- There is no character at all. -/
  | empty
  /-- A character is no digit of the radix, or a sign stands alone. -/
  | invalidDigit
  /-- The number is not below the bound. -/
  | tooLarge
deriving DecidableEq, Repr

def NumeralError.message : NumeralError → String
  | .empty => "cannot parse integer from empty string"
  | .invalidDigit => "invalid digit found in string"
  | .tooLarge => "number too large to fit in target type"

namespace Numeral

/-- The value of a digit or letter, letters of either case counting from ten. -/
def digitValue? (c : Char) : Option Nat :=
  let n := c.toNat
  if 48 ≤ n ∧ n ≤ 57 then some (n - 48)
  else if 97 ≤ n ∧ n ≤ 122 then some (n - 87)
  else if 65 ≤ n ∧ n ≤ 90 then some (n - 55)
  else none

def digit? (radix : Nat) (c : Char) : Option Nat :=
  (digitValue? c).filter (· < radix)

/-- Continues a number `value` with further digits. -/
def readDigits (radix bound : Nat) (value : Nat) : List Char → Except NumeralError Nat
  | [] => .ok value
  | c :: cs =>
    match digit? radix c with
    | none => .error .invalidDigit
    | some d =>
      if value * radix + d < bound then readDigits radix bound (value * radix + d) cs
      else .error .tooLarge

/-- The number below `bound` that an unsigned numeral denotes. -/
def readBelow (radix bound : Nat) : List Char → Except NumeralError Nat
  | [] => .error .empty
  | ['+'] => .error .invalidDigit
  | '+' :: cs => readDigits radix bound 0 cs
  | cs => readDigits radix bound 0 cs

/-- The number that a sequence of digits of the radix denotes, if all are digits. -/
def value? (radix : Nat) : List Char → Option Nat :=
  List.foldlM (fun value c => (digit? radix c).map (value * radix + ·)) 0

/-- The numeral of `n` with zeros in front up to `width` digits. -/
def padded (radix width : Nat) (n : Nat) : List Char :=
  let ds := Nat.toDigits radix n
  List.replicate (width - ds.length) '0' ++ ds

def decimal (n : Nat) : String := .ofList (Nat.toDigits 10 n)

/-- The decimal numeral of an integer, behind a minus sign if it is negative. -/
def signed (n : Int) : String :=
  if n < 0 then "-" ++ decimal n.natAbs else decimal n.natAbs

/-- The hexadecimal numeral of `n` behind `0x`, filled up with zeros to `width` digits. -/
def hex (width : Nat) (n : Nat) : String := .ofList ('0' :: 'x' :: padded 16 width n)

end Numeral

end TxForensics.Text
