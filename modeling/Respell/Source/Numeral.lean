import Respell.Text.Digits

/-!
Numerals: the longest integer or float that stands at the start of a text.
-/

set_option autoImplicit false

namespace Respell.Source

open Respell.Text

/-- Length of the longest run of digits in which a single underscore may stand after each digit;
`after` tells whether a digit comes before. -/
def digitRunFrom (after : Bool) : List Char → Nat
  | [] => 0
  | c :: rest =>
    if c.isDigit then 1 + digitRunFrom true rest
    else if c == '_' && after then 1 + digitRunFrom false rest
    else 0

/-- Length of the longest run of digits, with single underscores after digits. -/
def digitRun : List Char → Nat := digitRunFrom false

/-- Length of the longest run of digits in which single underscores may stand before digits. -/
def radixRun (isDigit : Char → Bool) : List Char → Nat
  | [] => 0
  | '_' :: c :: rest => if isDigit c then 2 + radixRun isDigit rest else 0
  | c :: rest => if isDigit c then 1 + radixRun isDigit rest else 0

/-- One if the text starts with one of the letters, else zero. -/
def suffixLength (letters : List Char) : List Char → Nat
  | c :: _ => if letters.contains c then 1 else 0
  | [] => 0

/-- Length of an exponent, sign included; zero if there is none. -/
def exponentLength : List Char → Nat
  | c :: rest =>
    let sign := suffixLength ['+', '-'] rest
    let digits := digitRun (rest.drop sign)
    if (c == 'e' || c == 'E') && digits != 0 then 1 + sign + digits else 0
  | [] => 0

/-- A numeral is an integer or a float. -/
inductive NumeralKind
  | integer
  | float
  deriving DecidableEq

/-- Length of what makes a float of a whole number of digits: a point or an exponent, and what
belongs to it; zero if there is none. -/
def fractionLength (whole : Nat) : List Char → Nat
  | c :: rest =>
    if c == '.' then
      let fraction := digitRun rest
      let exponent := exponentLength (rest.drop fraction)
      if whole == 0 && fraction == 0 then 0
      else
        1 + fraction + exponent + suffixLength ['j', 'J'] (rest.drop (fraction + exponent))
    else
      let exponent := exponentLength (c :: rest)
      if whole == 0 || exponent == 0 then 0
      else exponent + suffixLength ['j', 'J'] ((c :: rest).drop exponent)
  | [] => 0

/-- Which characters are digits of the base that a letter stands for. -/
def radixDigit? (letter : Char) : Option (Char → Bool) :=
  if letter == 'x' || letter == 'X' then some isHexDigit
  else if letter == 'o' || letter == 'O' then some isOctalDigit
  else if letter == 'b' || letter == 'B' then some isBinaryDigit
  else none

/-- Length of an integer written with a base; zero if there is none. -/
def basedLength : List Char → Nat
  | zero :: letter :: rest =>
    match radixDigit? letter with
    | some isDigit =>
      let run := radixRun isDigit rest
      if zero == '0' && run != 0 then 2 + run + suffixLength ['l', 'L'] (rest.drop run) else 0
    | none => 0
  | _ => 0

/-- The numeral at the start of a text, as its kind and its length. -/
def numeral? (text : List Char) : Option (NumeralKind × Nat) :=
  let based := basedLength text
  let whole := digitRun text
  let fraction := fractionLength whole (text.drop whole)
  if based != 0 then some (.integer, based)
  else if fraction != 0 then some (.float, whole + fraction)
  else if whole != 0 then
    some (.integer, whole + suffixLength ['l', 'L', 'j', 'J'] (text.drop whole))
  else none

end Respell.Source
