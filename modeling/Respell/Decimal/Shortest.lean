import Respell.Decimal.Binary64

/-!
The fewest decimal digits that read back as a double. A magnitude stands for the interval of
numbers nearest to it; the ends belong to it if the significand is even. On the grid of decimals
with one digit, two digits and so on, the two neighbours of the magnitude are tried, and the first
grid with a neighbour in the interval wins.
-/

set_option autoImplicit false

namespace Respell.Decimal

/-- How many quarters of a unit make one: the ends of intervals are whole in quarters. -/
def quartersPerOne : Nat := 4 * unitsPerOne

/-- A magnitude in quarters. -/
def quarters (bits : Nat) : Nat := 4 * units bits

/-- The upper end of the interval of a magnitude, in quarters. -/
def upperEnd (bits : Nat) : Nat := quarters bits + (2 <<< scale bits)

/-- The lower end of the interval of a magnitude, in quarters. Below a power of two the magnitudes
lie twice as close. -/
def lowerEnd (bits : Nat) : Nat :=
  if significand bits == leadingBit && 0 < scale bits then quarters bits - (1 <<< scale bits)
  else quarters bits - (2 <<< scale bits)

/-- `digits * 10 ^ exponent` as a ratio of naturals. -/
def ratio (digits : Nat) (exponent : Int) : Nat × Nat :=
  if 0 ≤ exponent then (digits * tenTo exponent.toNat, 1) else (digits, tenTo (-exponent).toNat)

/-- Whether a decimal lies in the interval of a magnitude. -/
def inInterval (bits digits : Nat) (exponent : Int) : Bool :=
  let (num, den) := ratio digits exponent
  let place := num * quartersPerOne
  if significand bits % 2 == 0 then lowerEnd bits * den ≤ place && place ≤ upperEnd bits * den
  else lowerEnd bits * den < place && place < upperEnd bits * den

/-- The power of ten of the leading digit of a positive ratio. -/
def leadingExponent (num den : Nat) : Int :=
  if den ≤ num then Int.ofNat (digitCount (num / den) - 1)
  else
    let below := digitCount (den / num)
    if den ≤ num * tenTo (below - 1) then -Int.ofNat (below - 1) else -Int.ofNat below

/-- The greatest multiple of a power of ten that is not above a magnitude. -/
def floorAt (bits : Nat) (exponent : Int) : Nat :=
  if 0 ≤ exponent then quarters bits / (quartersPerOne * tenTo exponent.toNat)
  else quarters bits * tenTo (-exponent).toNat / quartersPerOne

/-- Whether a magnitude is nearer to the lower of its neighbours on a grid; the middle is not. -/
def nearerBelow (bits digits : Nat) (exponent : Int) : Bool :=
  let (num, den) := ratio (2 * digits + 1) exponent
  2 * quarters bits * den < num * quartersPerOne

/-- The neighbour of a magnitude on the grid of a power of ten that lies in its interval. -/
def neighbour? (bits : Nat) (exponent : Int) : Option (Nat × Int) :=
  let below := floorAt bits exponent
  if inInterval bits below exponent then
    if inInterval bits (below + 1) exponent && !nearerBelow bits below exponent then
      some (below + 1, exponent)
    else some (below, exponent)
  else if inInterval bits (below + 1) exponent then some (below + 1, exponent)
  else none

/-- The shortest decimal of a positive finite magnitude, as digits and a power of ten. Seventeen
digits always suffice. -/
def shortest (bits : Nat) : Nat × Int :=
  let leading := leadingExponent (units bits) unitsPerOne
  let grid (n : Nat) : Int := leading - n
  ((List.range 17).findSome? fun n => neighbour? bits (grid n)).getD
    (floorAt bits (grid 16), grid 16)

end Respell.Decimal
