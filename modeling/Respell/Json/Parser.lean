import Respell.Decimal.Binary64
import Respell.Json.Basic
import Respell.Text.Digits

/-!
Reading JSON text. Arrays and objects nest at most 127 deep, and a number beyond the largest double
is refused.
-/

set_option autoImplicit false

namespace Respell.Json

open Respell.Text (isHexDigit ofDigits scalar?)

/-- Characters that may stand between tokens. -/
def isSpace (c : Char) : Bool := c == ' ' || c == '\n' || c == '\t' || c == '\r'

/-- Text after leading spaces. -/
def skipSpace (text : List Char) : List Char := text.dropWhile isSpace

/-- Four hexadecimal digits at the start of a text. -/
def unit? (text : List Char) : Option Nat :=
  let digits := text.take 4
  if digits.length == 4 && digits.all isHexDigit then some (ofDigits 16 digits) else none

/-- The character of an escape after its backslash, and the length of the escape. Characters beyond
the first plane are written as two units. -/
def escape? : List Char → Option (Char × Nat)
  | '"' :: _ => some ('"', 1)
  | '\\' :: _ => some ('\\', 1)
  | '/' :: _ => some ('/', 1)
  | 'b' :: _ => some ('\x08', 1)
  | 'f' :: _ => some ('\x0c', 1)
  | 'n' :: _ => some ('\n', 1)
  | 'r' :: _ => some ('\r', 1)
  | 't' :: _ => some ('\t', 1)
  | 'u' :: rest =>
    match unit? rest, rest.drop 4 with
    | some high, '\\' :: 'u' :: rest' =>
      if 0xD800 ≤ high && high < 0xDC00 then
        match unit? rest' with
        | some low =>
          if 0xDC00 ≤ low && low < 0xE000 then
            some (Char.ofNat (0x10000 + (high - 0xD800) * 0x400 + (low - 0xDC00)), 11)
          else none
        | none => none
      else (scalar? high).map fun c => (c, 5)
    | some code, _ => (scalar? code).map fun c => (c, 5)
    | none, _ => none
  | _ => none

/-- The text of a string after its opening quote, and what follows the closing one. -/
def stringBody? : List Char → Option (List Char × List Char)
  | [] => none
  | c :: rest =>
    if c == '"' then some ([], rest)
    else if c == '\\' then
      match escape? rest with
      | some (decoded, length) =>
        (stringBody? (rest.drop length)).map fun (body, after) => (decoded :: body, after)
      | none => none
    else if c.toNat < 32 then none
    else (stringBody? rest).map fun (body, after) => (c :: body, after)
termination_by text => text.length
decreasing_by all_goals simp only [List.length_drop, List.length_cons]; omega

/-- Digits at the start of a text, at least one. -/
def digits? (text : List Char) : Option (List Char × List Char) :=
  let digits := text.takeWhile Char.isDigit
  if digits.isEmpty then none else some (digits, text.dropWhile Char.isDigit)

/-- The part of a number after its point, and what follows. -/
def fraction? : List Char → Option (List Char × List Char)
  | '.' :: rest => digits? rest
  | text => some ([], text)

/-- The exponent of a number, and what follows. -/
def exponent? : List Char → Option (Int × List Char)
  | c :: rest =>
    if c == 'e' || c == 'E' then
      match rest with
      | '-' :: rest => (digits? rest).map fun (ds, after) => (-Int.ofNat (ofDigits 10 ds), after)
      | '+' :: rest => (digits? rest).map fun (ds, after) => (Int.ofNat (ofDigits 10 ds), after)
      | rest => (digits? rest).map fun (ds, after) => (Int.ofNat (ofDigits 10 ds), after)
    else some (0, c :: rest)
  | [] => some (0, [])

/-- A number at the start of a text. -/
def number? (text : List Char) : Option (Json × List Char) := do
  let (whole, rest) ← digits? (if text.head? == some '-' then text.drop 1 else text)
  if whole.head? == some '0' && 1 < whole.length then none
  else
    let (fraction, rest) ← fraction? rest
    let (exponent, rest) ← exponent? rest
    let magnitude :=
      Decimal.ofDecimal (ofDigits 10 (whole ++ fraction)) (exponent - fraction.length)
    if magnitude == Decimal.infinity then none
    else some (.number (String.ofList (text.take (text.length - rest.length))), rest)

/-- Text after a given word. -/
def keyword? (word : String) (text : List Char) : Option (List Char) :=
  if word.toList.isPrefixOf text then some (text.drop word.length) else none

/-- Items of an array after a first one, up to its closing bracket. -/
def itemsFrom (value : List Char → Option (Json × List Char)) :
    Nat → List Char → Option (List Json × List Char)
  | 0, _ => none
  | fuel + 1, text =>
    match skipSpace text with
    | ']' :: rest => some ([], rest)
    | ',' :: rest => do
      let (item, rest) ← value (skipSpace rest)
      let (items, rest) ← itemsFrom value fuel rest
      return (item :: items, rest)
    | _ => none

/-- A member of an object. -/
def member? (value : List Char → Option (Json × List Char)) (text : List Char) :
    Option ((String × Json) × List Char) :=
  match text with
  | '"' :: rest => do
    let (key, rest) ← stringBody? rest
    match skipSpace rest with
    | ':' :: rest =>
      let (item, rest) ← value (skipSpace rest)
      return ((String.ofList key, item), rest)
    | _ => none
  | _ => none

/-- Members of an object after a first one, up to its closing brace. -/
def membersFrom (value : List Char → Option (Json × List Char)) :
    Nat → List Char → Option (List (String × Json) × List Char)
  | 0, _ => none
  | fuel + 1, text =>
    match skipSpace text with
    | '}' :: rest => some ([], rest)
    | ',' :: rest => do
      let (member, rest) ← member? value (skipSpace rest)
      let (members, rest) ← membersFrom value fuel rest
      return (member :: members, rest)
    | _ => none

/-- A value at the start of a text without leading spaces; containers nest less deep than the
bound. -/
def value? : Nat → List Char → Option (Json × List Char)
  | 0, _ => none
  | depth + 1, text =>
    match text with
    | '"' :: rest =>
      (stringBody? rest).map fun (body, after) => (.string (String.ofList body), after)
    | '[' :: rest =>
      if depth == 0 then none
      else
        match skipSpace rest with
        | ']' :: rest => some (.array [], rest)
        | first => do
          let (item, after) ← value? depth first
          let (items, after) ← itemsFrom (value? depth) (after.length + 1) after
          return (.array (item :: items), after)
    | '{' :: rest =>
      if depth == 0 then none
      else
        match skipSpace rest with
        | '}' :: rest => some (.object [], rest)
        | first => do
          let (member, after) ← member? (value? depth) first
          let (members, after) ← membersFrom (value? depth) (after.length + 1) after
          return (.object (member :: members), after)
    | 'n' :: _ => (keyword? "null" text).map fun rest => (.null, rest)
    | 't' :: _ => (keyword? "true" text).map fun rest => (.bool true, rest)
    | 'f' :: _ => (keyword? "false" text).map fun rest => (.bool false, rest)
    | _ => number? text

/-- The value that a text holds, with nothing but spaces around it. -/
def parse? (text : String) : Option Json := do
  let (json, rest) ← value? 128 (skipSpace text.toList)
  if (skipSpace rest).isEmpty then some json else none

end Respell.Json
