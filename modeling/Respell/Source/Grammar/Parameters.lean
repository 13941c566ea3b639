import Respell.Source.Grammar.Annotation

/-!
Parameters of functions and of lambdas.
-/

set_option autoImplicit false

namespace Respell.Source.Grammar

/-- A type after a colon, where types are allowed. -/
def parameterType (typed : Bool) (expect : Expect) : Parser Unit := do
  if typed && (← atSymbol ":") then
    Parser.advance .operand
    typeHint true expect

/-- A default value after an equals sign. -/
def parameterDefault (expect : Expect) : Parser Unit := do
  if ← atSymbol "=" then
    Parser.advance .operand
    let _ ← expression Rank.any expect

/-- What a star collects into: a name, an attribute or a subscript. -/
def collector (expect : Expect) : Parser Unit := do
  match ← expression Rank.trailer expect with
  | .name _ | .attribute _ _ | .subscript _ _ _ => return ()
  | _ => Parser.fail

/-- A parameter. -/
def parameter (typed : Bool) (expect : Expect) : Parser Parameter := do
  match ← Parser.token with
  | .symbol "/" =>
    Parser.advance expect
    return .unnamed
  | .symbol "*" =>
    Parser.advance expect
    if (← atSymbol ",") || (← atSymbol ")") || (← atSymbol ":") then return .variadic
    else
      collector expect
      parameterType typed expect
      return .variadic
  | .symbol "**" =>
    Parser.advance .operand
    collector expect
    parameterType typed expect
    return .variadic
  | .symbol "(" =>
    let (text, tree) ← Parser.written (target expect)
    match tree with
    | .tuple _ =>
      if ← atSymbol "=" then
        parameterDefault expect
        return .named text
      else return .unnamed
    | _ => Parser.fail
  | _ =>
    let text ← identifier expect
    parameterType typed expect
    parameterDefault expect
    return .named text

/-- Parameters after those already read, up to a closing symbol. -/
def parametersFrom (typed : Bool) (close : String) (expect : Expect) :
    List Parameter → Parser (List Parameter) :=
  Parser.loop fun read => do
    let next ← parameter typed expect
    let read := read ++ [next]
    if ← atSymbol close then return .done read
    else
      symbol "," expect
      if ← atSymbol close then return .done read else return .again read

/-- Parameters of a function, in parentheses. -/
def parameters (expect : Expect) : Parser (List Parameter) := do
  symbol "(" .closing
  let read ← if ← atSymbol ")" then pure [] else parametersFrom true ")" .closing []
  Parser.advance expect
  return read

/-- Parameters of a lambda, from its keyword to after its colon. -/
def lambdaParameters : Parser Unit := do
  word "lambda" .operand
  if ← atSymbol ":" then Parser.advance .operand
  else
    let _ ← parametersFrom false ":" .operand []
    Parser.advance .operand

end Respell.Source.Grammar
