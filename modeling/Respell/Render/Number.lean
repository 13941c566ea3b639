import Respell.Decimal.Shortest

/-!
Texts of numbers. A float has the fewest digits that read back: positional from `1e-4` up to below
`1e16`, with at least one digit on each side of the point, otherwise with a signed exponent of at
least two digits.
-/

set_option autoImplicit false

namespace Respell.Render

/-- Decimal digits of a natural number without the zeros at its end, at least one. -/
def leadingDigits (n : Nat) : List Char :=
  match ((Nat.toDigits 10 n).reverse.dropWhile (· == '0')).reverse with
  | [] => ['0']
  | digits => digits

/-- Digits with the point after as many places as an exponent tells. -/
def positional (digits : List Char) (exponent : Int) : List Char :=
  if exponent < 0 then
    '0' :: '.' :: List.replicate ((-exponent).toNat - 1) '0' ++ digits
  else
    let places := exponent.toNat + 1
    let whole := digits.take places ++ List.replicate (places - digits.length) '0'
    let fraction := digits.drop places
    whole ++ '.' :: (if fraction.isEmpty then ['0'] else fraction)

/-- An exponent with its sign and at least two digits. -/
def exponentText (exponent : Int) : List Char :=
  let digits := Nat.toDigits 10 exponent.natAbs
  (if exponent < 0 then '-' else '+') :: List.replicate (2 - digits.length) '0' ++ digits

/-- Digits with the point after the first, and an exponent. -/
def scientific (digits : List Char) (exponent : Int) : List Char :=
  let mantissa := match digits with
    | first :: second :: rest => first :: '.' :: second :: rest
    | single => single
  mantissa ++ 'e' :: exponentText exponent

/-- Text of the magnitude of a finite float. -/
def magnitudeText (bits : Nat) : List Char :=
  if Decimal.units bits == 0 then ['0', '.', '0']
  else
    let (n, lowest) := Decimal.shortest bits
    let digits := leadingDigits n
    let exponent := lowest + (Nat.toDigits 10 n).length - 1
    if -4 ≤ exponent && exponent < 16 then positional digits exponent
    else scientific digits exponent

/-- Text of a float. -/
def floatText (pattern : UInt64) : String :=
  let bits := pattern.toNat
  let sign := if Decimal.isNegative bits then ['-'] else []
  if Decimal.isFinite bits then String.ofList (sign ++ magnitudeText bits)
  else if bits % Decimal.signBit == Decimal.infinity then String.ofList (sign ++ ['i', 'n', 'f'])
  else "nan"

end Respell.Render
