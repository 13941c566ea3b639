import Respell.Source.Grammar.Basic

/-!
Types, which are recognised and not kept: expressions, names with type arguments, unpacked names,
unions, members and constraints.
-/

set_option autoImplicit false

namespace Respell.Source.Grammar

/-- The types after a first one, up to the closing bracket. -/
def moreTypes : Parser Unit :=
  Parser.loop (fun _ => do
    if ← atSymbol "]" then return .done ()
    else
      symbol "," .closing
      if ← atSymbol "]" then return .done ()
      else
        typeHint true .closing
        return .again ()) ()

/-- Types in brackets. -/
def typeArguments (expect : Expect) : Parser Unit := do
  symbol "[" .operand
  typeHint true .closing
  moreTypes
  Parser.advance expect

/-- What may extend a type: a member, a union, a constraint. -/
def typeHintTail (constrained : Bool) (expect : Expect) : Parser Unit :=
  Parser.loop (fun _ => do
    if ← atSymbol "." then
      Parser.advance .operand
      let _ ← identifier expect
      return .again ()
    else if (← atSymbol "|") || (constrained && (← atSymbol ":")) then
      Parser.advance .operand
      typeHint constrained expect
      return .again ()
    else return .done ()) ()

/-- A type without what may extend it. A name before a bracket takes types as arguments. -/
def typeHintHead (expect : Expect) : Parser Unit := do
  if ← atSymbol "**" then
    Parser.advance .operand
    let _ ← identifier expect
  else
    let token ← Parser.token
    match token.identifier? with
    | some name =>
      Parser.advance expect
      if ← atSymbol "[" then typeArguments expect
      else
        let _ ← afterName Rank.any expect name
    | none =>
      let _ ← expression Rank.any expect

/-- A type. -/
def typeHintBody (constrained : Bool) (expect : Expect) : Parser Unit := do
  typeHintHead expect
  typeHintTail constrained expect

end Respell.Source.Grammar
