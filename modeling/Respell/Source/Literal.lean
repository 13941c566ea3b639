import Respell.Decimal.Binary64
import Respell.Text.Digits

/-!
Values of literals: integers, floats, and the text that a string body denotes.
-/

set_option autoImplicit false

namespace Respell.Source

open Respell.Text

/-- The value of an integer literal, without its underscores; a leading zero is no base. -/
def integerValue? (literal : List Char) : Option Nat :=
  match literal.filter (· != '_') with
  | '0' :: 'x' :: digits | '0' :: 'X' :: digits => number? 16 isHexDigit digits
  | '0' :: 'o' :: digits | '0' :: 'O' :: digits => number? 8 isOctalDigit digits
  | '0' :: 'b' :: digits | '0' :: 'B' :: digits => number? 2 isBinaryDigit digits
  | digits => number? 10 Char.isDigit digits

/-- The integer that a literal denotes, if it fits 64 bits and is not marked as long or
imaginary. -/
def readInteger (literal : List Char) : Option Int64 :=
  match integerValue? literal with
  | some value => if value < Int64.size / 2 then some (Int64.ofNat value) else none
  | none => none

/-- The exponent that follows a mark; zero if there is none. -/
def readExponent? : List Char → Option Int
  | [] => some 0
  | c :: '+' :: digits =>
    if c == 'e' || c == 'E' then (number? 10 Char.isDigit digits).map Int.ofNat else none
  | c :: '-' :: digits =>
    if c == 'e' || c == 'E' then (number? 10 Char.isDigit digits).map fun n => -Int.ofNat n
    else none
  | c :: digits =>
    if c == 'e' || c == 'E' then (number? 10 Char.isDigit digits).map Int.ofNat else none

/-- The digits and the power of ten that a float literal denotes, without its underscores; nothing
for an imaginary one. -/
def floatParts? (literal : List Char) : Option (Nat × Int) :=
  let text := literal.filter (· != '_')
  let whole := text.takeWhile Char.isDigit
  let rest := text.dropWhile Char.isDigit
  let (fraction, rest) := match rest with
    | '.' :: rest => (rest.takeWhile Char.isDigit, rest.dropWhile Char.isDigit)
    | rest => ([], rest)
  (readExponent? rest).map fun exponent =>
    (ofDigits 10 (whole ++ fraction), exponent - fraction.length)

/-- The pattern of the double nearest to a float literal. -/
def readFloat (literal : List Char) : Option UInt64 :=
  (floatParts? literal).map fun (digits, exponent) =>
    UInt64.ofNat (Decimal.ofDecimal digits exponent)

/-- The character that a given number of hexadecimal digits at the start of a text denote. -/
def hexScalar? (width : Nat) (text : List Char) : Option Char :=
  let digits := text.take width
  if digits.length == width && digits.all isHexDigit then scalar? (ofDigits 16 digits) else none

/-- What the escape after a backslash stands for, and its length. Unknown and malformed escapes
stand for themselves, backslash included. -/
def resolveEscape : List Char → List Char × Nat
  | [] => (['\\'], 0)
  | c :: rest =>
    let hex (width : Nat) : List Char × Nat :=
      match hexScalar? width rest with
      | some decoded => ([decoded], width + 1)
      | none => (['\\', c], 1)
    match c with
    | 'n' => (['\n'], 1)
    | 't' => (['\t'], 1)
    | 'r' => (['\r'], 1)
    | 'a' => (['\x07'], 1)
    | 'b' => (['\x08'], 1)
    | 'f' => (['\x0c'], 1)
    | 'v' => (['\x0b'], 1)
    | '\\' => (['\\'], 1)
    | '\'' => (['\''], 1)
    | '"' => (['"'], 1)
    | '\n' => ([], 1)
    | 'x' => hex 2
    | 'u' => hex 4
    | 'U' => hex 8
    | _ =>
      if isOctalDigit c then
        let digits := c :: (rest.take 2).takeWhile isOctalDigit
        ([Char.ofNat (ofDigits 8 digits)], digits.length)
      else (['\\', c], 1)

/-- The text that a body with escapes denotes. -/
def unescape : List Char → List Char
  | [] => []
  | c :: rest =>
    if c == '\\' then
      let (decoded, length) := resolveEscape rest
      decoded ++ unescape (rest.drop length)
    else c :: unescape rest
termination_by text => text.length
decreasing_by all_goals simp only [List.length_drop, List.length_cons]; omega

end Respell.Source
