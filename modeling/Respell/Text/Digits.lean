/-!
Digits of any base up to sixteen, the numbers they denote, and the characters of code points.
-/

set_option autoImplicit false

namespace Respell.Text

/-- Whether a character is a digit of base sixteen. -/
def isHexDigit (c : Char) : Bool :=
  c.isDigit || ('a' ≤ c && c ≤ 'f') || ('A' ≤ c && c ≤ 'F')

/-- Whether a character is a digit of base eight. -/
def isOctalDigit (c : Char) : Bool := '0' ≤ c && c ≤ '7'

/-- Whether a character is a digit of base two. -/
def isBinaryDigit (c : Char) : Bool := c == '0' || c == '1'

/-- Value of a digit of any base up to sixteen. -/
def digitValue (c : Char) : Nat :=
  if c.isDigit then c.toNat - '0'.toNat else c.toLower.toNat - 'a'.toNat + 10

/-- The number that digits denote in a base. -/
def ofDigits (base : Nat) (digits : List Char) : Nat :=
  digits.foldl (fun value c => value * base + digitValue c) 0

/-- The number that a text of digits denotes; nothing if it is empty or holds anything else. -/
def number? (base : Nat) (isDigit : Char → Bool) (text : List Char) : Option Nat :=
  if text.isEmpty || !text.all isDigit then none else some (ofDigits base text)

/-- The character of a code point, surrogates and what lies beyond the last one excluded. -/
def scalar? (code : Nat) : Option Char :=
  if code.isValidChar then some (Char.ofNat code) else none

end Respell.Text
