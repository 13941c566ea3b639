import Respell.Json.Basic

/-!
Writing JSON text, on one line or indented by two spaces a level.
-/

set_option autoImplicit false

namespace Respell.Json

/-- Hexadecimal digit. -/
def hexDigit (n : Nat) : Char := if n < 10 then Char.ofNat (48 + n) else Char.ofNat (87 + n)

/-- A character inside a string: quotes, backslashes and controls are escaped. -/
def escapeChar (c : Char) : List Char :=
  match c with
  | '"' => ['\\', '"']
  | '\\' => ['\\', '\\']
  | '\x08' => ['\\', 'b']
  | '\x0c' => ['\\', 'f']
  | '\n' => ['\\', 'n']
  | '\r' => ['\\', 'r']
  | '\t' => ['\\', 't']
  | _ =>
    if c.toNat < 32 then ['\\', 'u', '0', '0', hexDigit (c.toNat / 16), hexDigit (c.toNat % 16)]
    else [c]

/-- A string in quotes. -/
def quote (text : String) : String :=
  "\"" ++ String.ofList (text.toList.flatMap escapeChar) ++ "\""

mutual

/-- The text of a value on one line. -/
def compact : Json → String
  | .null => "null"
  | .bool true => "true"
  | .bool false => "false"
  | .number text => text
  | .string text => quote text
  | .array items => "[" ++ compactItems items ++ "]"
  | .object members => "\x7b" ++ compactMembers members ++ "\x7d"

/-- Items with commas between them. -/
def compactItems : List Json → String
  | [] => ""
  | [item] => compact item
  | item :: rest => compact item ++ "," ++ compactItems rest

/-- Members with commas between them. -/
def compactMembers : List (String × Json) → String
  | [] => ""
  | [(key, value)] => quote key ++ ":" ++ compact value
  | (key, value) :: rest => quote key ++ ":" ++ compact value ++ "," ++ compactMembers rest

end

mutual

/-- The text of a value over several lines; `margin` stands before each line but the first. -/
def prettyFrom (margin : String) : Json → String
  | .array (item :: items) =>
    "[" ++ prettyItems (margin ++ "  ") (item :: items) ++ margin ++ "]"
  | .object (member :: members) =>
    "\x7b" ++ prettyMembers (margin ++ "  ") (member :: members) ++ margin ++ "\x7d"
  | .array [] => "[]"
  | .object [] => "\x7b\x7d"
  | .null => "null"
  | .bool true => "true"
  | .bool false => "false"
  | .number text => text
  | .string text => quote text

/-- Items, each on lines of its own. -/
def prettyItems (margin : String) : List Json → String
  | [] => ""
  | [item] => margin ++ prettyFrom margin item
  | item :: rest => margin ++ prettyFrom margin item ++ "," ++ prettyItems margin rest

/-- Members, each on lines of its own. -/
def prettyMembers (margin : String) : List (String × Json) → String
  | [] => ""
  | [(key, value)] => margin ++ quote key ++ ": " ++ prettyFrom margin value
  | (key, value) :: rest =>
    margin ++ quote key ++ ": " ++ prettyFrom margin value ++ "," ++ prettyMembers margin rest

end

/-- The text of a value over several lines. -/
def pretty (json : Json) : String := prettyFrom "\n" json

end Respell.Json
