import Respell.Source.Grammar.Strings

/-!
Patterns of `case` clauses, which are recognised and not kept.
-/

set_option autoImplicit false

namespace Respell.Source.Grammar

/-- A dotted name. -/
def dottedName (expect : Expect) : Parser Unit := do
  let _ ← identifier expect
  Parser.loop (fun _ => do
    if ← atSymbol "." then
      Parser.advance .operand
      let _ ← identifier expect
      return .again ()
    else return .done ()) ()

/-- Items up to a closing symbol, separated by commas, the last of which may trail. -/
def bracketed (item : Parser Unit) (close : String) : Parser Unit :=
  Parser.loop (fun _ => do
    if ← atSymbol close then return .done ()
    else
      item
      if ← atSymbol close then return .done ()
      else
        symbol "," .closing
        return .again ()) ()

/-- A numeral, as a part of a pattern. -/
def patternNumeral (expect : Expect) : Parser Unit := do
  match ← Parser.token with
  | .numeral _ _ => Parser.advance expect
  | _ => Parser.fail

/-- A number with an optional second part after a sign. -/
def patternNumber (expect : Expect) : Parser Unit := do
  if ← atSymbol "-" then Parser.advance .operand
  patternNumeral expect
  if (← atSymbol "+") || (← atSymbol "-") then
    Parser.advance .operand
    patternNumeral expect

/-- A name that collects the rest, after its star. -/
def patternSplat (expect : Expect) : Parser Unit := do
  Parser.advance .operand
  let _ ← identifier expect

/-- Patterns in brackets, from the opening one on. -/
def patterns (close : String) (expect : Expect) : Parser Unit := do
  Parser.advance .closing
  bracketed (pattern .closing) close
  Parser.advance expect

/-- An entry of a mapping pattern. -/
def patternEntry : Parser Unit := do
  if (← atSymbol "*") || (← atSymbol "**") then patternSplat .closing
  else
    Parser.call (.alternatives .operand)
    symbol ":" .operand
    pattern .closing

/-- A pattern without alternatives. -/
def plainPattern (expect : Expect) : Parser Unit := do
  match ← Parser.token with
  | .quote _ =>
    let _ ← strings expect
  | .numeral _ _ => patternNumber expect
  | .symbol "-" => patternNumber expect
  | .symbol "*" => patternSplat expect
  | .symbol "**" => patternSplat expect
  | .symbol "(" => patterns ")" expect
  | .symbol "[" => patterns "]" expect
  | .symbol "\x7b" =>
    Parser.advance .closing
    bracketed patternEntry "\x7d"
    Parser.advance expect
  | .word text =>
    if ["True", "False", "None"].contains text then Parser.advance expect
    else
      dottedName expect
      if ← atSymbol "(" then patterns ")" expect
  | _ => Parser.fail

/-- A pattern with alternatives. -/
def alternativesBody (expect : Expect) : Parser Unit :=
  Parser.loop (fun _ => do
    plainPattern expect
    if ← atSymbol "|" then
      Parser.advance .operand
      return .again ()
    else return .done ()) ()

/-- Names bound to what a pattern matched. -/
def patternAliases (expect : Expect) : Parser Unit :=
  Parser.loop (fun _ => do
    if ← atWord "as" then
      Parser.advance .operand
      let _ ← identifier expect
      return .again ()
    else return .done ()) ()

/-- A pattern of a `case` clause. -/
def patternBody (expect : Expect) : Parser Unit := do
  (do
    let _ ← identifier expect
    symbol "=" .operand
    Parser.call (.alternatives expect)) <|> Parser.call (.alternatives expect)
  patternAliases expect

end Respell.Source.Grammar
