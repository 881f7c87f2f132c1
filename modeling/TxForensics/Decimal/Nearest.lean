import TxForensics.Decimal.Shortest

/-!
# The floating-point number nearest to a decimal

Reading a decimal rounds it to the nearest 64-bit floating-point number. Decimals whose leading
digit is beyond `10 ^ 400` are infinite and those below `10 ^ -800` are zero, whatever their other
digits are, so numbers with huge exponents take no time.
-/

namespace TxForensics.Binary64

/-- The magnitude of the nearest number to `digits * 10 ^ exponent`. -/
def nearestFloat (d : Decimal) : Float :=
  let leading := d.exponent + (Nat.toDigits 10 d.digits).length
  if d.digits = 0 || leading < -800 then 0
  else if 400 < leading then 1 / 0
  else if 0 ≤ d.exponent then .ofScientific d.digits false d.exponent.natAbs
  else .ofScientific d.digits true d.exponent.natAbs

def nearest (negative : Bool) (d : Decimal) : Binary64 :=
  .ofFloat (if negative then -nearestFloat d else nearestFloat d)

end TxForensics.Binary64
