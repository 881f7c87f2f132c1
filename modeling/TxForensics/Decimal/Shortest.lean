import TxForensics.Text.Numeral

/-!
# The shortest decimal of a binary floating-point number

A finite 64-bit floating-point number stands for every real number that rounds to it. Among the
decimals in that interval there are some with the fewest digits, and `Binary64.shortest` finds the
one of those that lies nearest to the number itself. It looks at one, two, up to seventeen digits,
and for each count at the two neighbours of the number on the grid of decimals with so many digits.
If any decimal of a grid lies in the interval, then so does one of those two. Where the number lies
halfway between them, a `TieRule` decides.

All arithmetic is on natural numbers. `DecimalFormat` says which tie rule holds and how the digits
found are laid out.
-/

namespace TxForensics

/-- The number `digits * 10 ^ exponent`. -/
structure Decimal where
  digits : Nat
  exponent : Int
deriving DecidableEq, Repr

inductive TieRule where
  /-- The one whose last digit is even. -/
  | even
  /-- The one farther from zero. -/
  | upward
deriving DecidableEq, Repr

/-- A 64-bit floating-point number by its bits. -/
structure Binary64 where
  bits : UInt64
deriving DecidableEq, Repr

namespace Binary64

def toFloat (b : Binary64) : Float := .ofBits b.bits

def ofFloat (f : Float) : Binary64 := ⟨f.toBits⟩

def isNegative (b : Binary64) : Bool := b.bits.toNat / 2 ^ 63 = 1

def exponentBits (b : Binary64) : Nat := b.bits.toNat / 2 ^ 52 % 2 ^ 11

def fractionBits (b : Binary64) : Nat := b.bits.toNat % 2 ^ 52

def isInfinite (b : Binary64) : Bool := b.exponentBits = 2047 && b.fractionBits = 0

def isNaN (b : Binary64) : Bool := b.exponentBits = 2047 && b.fractionBits ≠ 0

/-- The integer `m` of the magnitude `m * 2 ^ q` of a finite number. -/
def significand (b : Binary64) : Nat :=
  if b.exponentBits = 0 then b.fractionBits else b.fractionBits + 2 ^ 52

/-- The exponent `q` of the magnitude `m * 2 ^ q` of a finite number. -/
def exponent (b : Binary64) : Int := (max b.exponentBits 1 : Nat) - 1075

/-- A positive interval of reals around a point; its unit is a fourth of the last place. -/
structure Interval where
  low : Nat
  mid : Nat
  high : Nat
  /-- Whether the ends belong to it. -/
  closed : Bool
  /-- The unit is `2 ^ exponent`. -/
  exponent : Int

/-- The reals that round to the magnitude of a finite number other than zero. -/
def interval (b : Binary64) : Interval :=
  let m := b.significand
  { low := 4 * m - if b.fractionBits = 0 && 1 < b.exponentBits then 1 else 2
    mid := 4 * m
    high := 4 * m + 2
    closed := m % 2 = 0
    exponent := b.exponent - 2 }

def scale (a : Nat) (e : Int) : Nat × Nat :=
  if 0 ≤ e then (a * 2 ^ e.toNat, 1) else (a, 2 ^ (-e).toNat)

def decimalQuotient (d : Nat) (k : Int) : Nat × Nat :=
  if 0 ≤ k then (d * 10 ^ k.toNat, 1) else (d, 10 ^ (-k).toNat)

def less (a b : Nat × Nat) : Bool := a.1 * b.2 < b.1 * a.2

def Interval.contains (i : Interval) (d : Nat) (k : Int) : Bool :=
  let x := decimalQuotient d k
  let low := scale i.low i.exponent
  let high := scale i.high i.exponent
  if i.closed then !less x low && !less high x else less low x && less x high

/-- The greatest `p ≤ start` with `10 ^ p ≤ mid`, looked for downwards in `fuel` steps. -/
def leadingExponent (mid : Nat × Nat) (start : Int) : Nat → Int
  | 0 => start
  | fuel + 1 =>
    if less mid (decimalQuotient 1 start) then leadingExponent mid (start - 1) fuel else start

/-- The greatest `d` with `d * 10 ^ k ≤ mid`. -/
def floorOnGrid (mid : Nat × Nat) (k : Int) : Nat :=
  if 0 ≤ k then mid.1 / (mid.2 * 10 ^ k.toNat) else mid.1 * 10 ^ (-k).toNat / mid.2

/-- Whether the upper neighbour `(d + 1) * 10 ^ k` is nearer to the middle than the lower one, or as
near and chosen by the tie rule. -/
def prefersUpper (tie : TieRule) (mid : Nat × Nat) (d : Nat) (k : Int) : Bool :=
  let half := decimalQuotient (2 * d + 1) k
  let twice := (2 * mid.1, mid.2)
  less half twice || (!less twice half && (tie = .upward || d % 2 = 1))

/-- The nearest decimal of the interval on the grid of multiples of `10 ^ k`. -/
def Interval.nearestOnGrid? (i : Interval) (tie : TieRule) (k : Int) : Option Nat :=
  let mid := scale i.mid i.exponent
  let d := floorOnGrid mid k
  match i.contains d k && 0 < d, i.contains (d + 1) k with
  | true, true => some (if prefersUpper tie mid d k then d + 1 else d)
  | true, false => some d
  | false, true => some (d + 1)
  | false, false => none

def dropZeros (d : Nat) (k : Int) : Nat → Decimal
  | 0 => ⟨d, k⟩
  | fuel + 1 => if d % 10 = 0 && 0 < d then dropZeros (d / 10) (k + 1) fuel else ⟨d, k⟩

/-- The shortest decimal that rounds to the magnitude of a finite number, zero for zero. -/
def shortest (tie : TieRule) (b : Binary64) : Decimal :=
  if b.significand = 0 then ⟨0, 0⟩
  else
    let i := b.interval
    let p := leadingExponent (scale i.mid i.exponent) 309 640
    let found := (List.range 17).findSome? fun (n : Nat) =>
      (i.nearestOnGrid? tie (p - n)).map fun d => dropZeros d (p - n) 20
    found.getD ⟨i.mid, i.exponent⟩

end Binary64

/-- How a number is written in decimal digits. -/
structure DecimalFormat where
  /-- Which digits are chosen for a number halfway between two shortest decimals. -/
  tie : TieRule
  /-- The exponents of the leading digit that are written in positional form; all if none. -/
  positional : Option (Int × Int)
  /-- Whether a whole number in positional form ends in `.0`. -/
  pointZero : Bool

namespace DecimalFormat

def signed (n : Int) : List Char :=
  (if n < 0 then '-' else '+') :: Nat.toDigits 10 n.natAbs

def layOutPositional (f : DecimalFormat) (ds : List Char) (exponent : Int) : List Char :=
  let zero := if f.pointZero then ['.', '0'] else []
  if 0 ≤ exponent then ds ++ List.replicate exponent.toNat '0' ++ zero
  else
    let places := (-exponent).toNat
    if places < ds.length then ds.take (ds.length - places) ++ '.' :: ds.drop (ds.length - places)
    else '0' :: '.' :: List.replicate (places - ds.length) '0' ++ ds

def layOutScientific (ds : List Char) (leading : Int) : List Char :=
  let fraction := if ds.length ≤ 1 then [] else '.' :: ds.drop 1
  ds.take 1 ++ fraction ++ 'e' :: signed leading

def layOut (f : DecimalFormat) (d : Decimal) : List Char :=
  let ds := Nat.toDigits 10 d.digits
  let leading := d.exponent + ds.length - 1
  match f.positional with
  | none => f.layOutPositional ds d.exponent
  | some (low, high) =>
    if d.digits = 0 || (low ≤ leading && leading ≤ high) then f.layOutPositional ds d.exponent
    else layOutScientific ds leading

def text (f : DecimalFormat) (b : Binary64) : String :=
  let sign := if b.isNegative then ['-'] else []
  if b.isNaN then "NaN"
  else if b.isInfinite then .ofList (sign ++ "inf".toList)
  else .ofList (sign ++ f.layOut (b.shortest f.tie))

end DecimalFormat

end TxForensics
