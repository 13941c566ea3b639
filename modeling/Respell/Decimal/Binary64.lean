/-!
Doubles as bit patterns, in exact integers. A finite magnitude is `significand * 2 ^ scale` units,
where the unit is the smallest positive double; its pattern is `scale * 2 ^ 52 + significand`,
because consecutive magnitudes have consecutive patterns.
-/

set_option autoImplicit false

namespace Respell.Decimal

/-- The pattern of the sign alone, `2 ^ 63`. -/
def signBit : Nat := 0x8000000000000000

/-- The leading bit of a significand of 53 bits, `2 ^ 52`. -/
def leadingBit : Nat := 0x10000000000000

/-- The pattern of infinity. -/
def infinity : Nat := 2047 * leadingBit

/-- How many units make one. -/
def unitsPerOne : Nat := 1 <<< 1074

/-- A power of ten. -/
def tenTo (exponent : Nat) : Nat := Nat.pow 10 exponent

/-- Power of two by which a finite pattern scales its significand. -/
def scale (bits : Nat) : Nat := bits % signBit / leadingBit - 1

/-- Significand of a finite pattern: all but the smallest magnitudes have 53 bits. -/
def significand (bits : Nat) : Nat := bits % signBit - scale bits * leadingBit

/-- Magnitude of a finite pattern in units. -/
def units (bits : Nat) : Nat := significand bits <<< scale bits

/-- Whether a pattern is negative. -/
def isNegative (bits : Nat) : Bool := signBit ≤ bits

/-- Whether a pattern is finite. -/
def isFinite (bits : Nat) : Bool := bits % signBit < infinity

/-- The integer nearest to a quotient; a half goes to the even neighbour. -/
def roundDiv (num den : Nat) : Nat :=
  let quotient := num / den
  let rest := 2 * (num % den)
  if rest < den || (rest == den && quotient % 2 == 0) then quotient else quotient + 1

/-- The pattern nearest to a ratio; past the largest double it is infinity. -/
def ofRatio (num den : Nat) : Nat :=
  let exact := num * unitsPerOne
  let scale := (exact / den).log2 - 52
  min (scale * leadingBit + roundDiv exact (den <<< scale)) infinity

/-- Number of decimal digits. -/
def digitCount (n : Nat) : Nat := (Nat.toDigits 10 n).length

/-- The pattern nearest to `digits * 10 ^ exponent`. Magnitudes out of reach are decided by their
number of digits. -/
def ofDecimal (digits : Nat) (exponent : Int) : Nat :=
  let point := digitCount digits + exponent
  if digits == 0 || point < -330 then 0
  else if 310 < point then infinity
  else if 0 ≤ exponent then ofRatio (digits * tenTo exponent.toNat) 1
  else ofRatio digits (tenTo (-exponent).toNat)

end Respell.Decimal
