import Respell.Source.Grammar.CasePattern
import Respell.Source.Grammar.Expression

/-!
Simple statements and lines of them.
-/

set_option autoImplicit false

namespace Respell.Source.Grammar

/-- Operators that assign to one target what they make of it and a value. -/
def isAugmented : Token → Bool
  | .symbol text =>
    ["+=", "-=", "*=", "/=", "@=", "//=", "%=", "**=", ">>=", "<<=", "&=", "^=", "|="].contains text
  | _ => false

/-- Expressions or an assignment to them, of which a parser reads the first expression. -/
def assignedFrom (head : Parser Tree) : Parser Assigned := do
  let first ← head
  let bare ← atSymbol ","
  let children ← itemsFrom (expression Rank.any .lineEnd) .lineEnd [first]
  let tree := if bare then .tuple children else first
  let token ← Parser.token
  if token == .symbol "=" then
    let target ← require (asTarget? tree)
    Parser.advance .operand
    let right ← assigned
    return .chain (right.under target false)
  else if isAugmented token then
    let _ ← require (asTarget? tree)
    Parser.advance .operand
    let _ ← assigned
    return .augmented
  else if token == .symbol ":" then
    let target ← require (asTarget? tree)
    Parser.advance .operand
    typeHint true .lineEnd
    if ← atSymbol "=" then
      Parser.advance .operand
      let right ← assigned
      return .chain (right.under target true)
    else return .chain ⟨target, true, [], none⟩
  else return .value tree bare

/-- An expression, expressions, or an assignment to them. -/
def assignedBody : Parser Assigned := do
  if ← atWord "yield" then
    let tree ← yieldExpression .lineEnd
    return .value tree false
  else assignedFrom (expression Rank.any .lineEnd)

/-- Statement that an expression or assignment makes. Several expressions without brackets are a
construct of their own. -/
def Assigned.statement : Assigned → Statement
  | .chain links => .assignment links.first links.annotated links.more links.value
  | .augmented => .other "AugAssign"
  | .value tree bare => if bare then .other "tuple_expression" else .expression tree

/-- An expression or an assignment as a statement. -/
def expressionStatement : Parser Statement := do
  let read ← assigned
  return Assigned.statement read

/-- An expression or an assignment that starts with a name, as a statement, after that name. -/
def nameStatement (name : String) : Parser Statement := do
  let read ← assignedFrom (afterName Rank.any .lineEnd name)
  return Assigned.statement read

/-- A name in an import list. -/
def importedName (expect : Expect) : Parser Imported := do
  let (path, _) ← Parser.written (dottedName expect)
  if ← atWord "as" then
    Parser.advance .operand
    let name ← identifier expect
    return .aliased path name
  else return .plain path

/-- Names in an import list; a comma may come last. -/
def importedNames (expect : Expect) : Parser (List Imported) := do
  let first ← importedName expect
  Parser.loop (fun read => do
    if ← atSymbol "," then
      Parser.advance expect
      (do
        let next ← importedName expect
        return .again (read ++ [next])) <|> return .done read
    else return .done read) [first]

/-- An import list with or without parentheses. -/
def importList : Parser (List Imported) := do
  if ← atSymbol "(" then
    Parser.advance .operand
    let names ← importedNames .closing
    symbol ")" .lineEnd
    return names
  else importedNames .lineEnd

/-- Whether the current token is a dot or several. -/
def atDots : Parser Bool := do return (← atSymbol ".") || (← atSymbol "...")

/-- The dots before the name of a package. -/
def importDots : Parser Unit :=
  Parser.loop (fun _ => do
    if ← atDots then
      Parser.advance .operand
      return .again ()
    else return .done ()) ()

/-- A package that is imported from: dots, a dotted name, or both. -/
def package : Parser Unit := do
  let dotted ← atDots
  importDots
  if dotted && (← atWord "import") then return () else dottedName .operand

/-- An import from a package. -/
def importFrom : Parser Statement := do
  word "from" .operand
  if ← atWord "__future__" then
    Parser.advance .operand
    word "import" .operand
    let _ ← importList
    return .other "ImportFrom"
  else
    let (path, _) ← Parser.written package
    word "import" .operand
    if ← atSymbol "*" then
      Parser.advance .lineEnd
      return .importsFrom path []
    else
      let names ← importList
      return .importsFrom path names

/-- Expressions separated by commas, the last of which is no comma. -/
def expressionsExactly (expect : Expect) : Parser Unit :=
  Parser.loop (fun _ => do
    let _ ← expression Rank.any expect
    if ← atSymbol "," then
      Parser.advance .operand
      return .again ()
    else return .done ()) ()

/-- Identifiers separated by commas. -/
def identifiers : Parser Unit :=
  Parser.loop (fun _ => do
    let _ ← identifier .lineEnd
    if ← atSymbol "," then
      Parser.advance .operand
      return .again ()
    else return .done ()) ()

/-- A print statement to a file, after its keyword. -/
def printTo : Parser Statement := do
  symbol ">>" .operand
  let _ ← expression Rank.any .lineEnd
  let _ ← itemsFrom (expression Rank.any .lineEnd) .lineEnd []
  return .other "print_statement"

/-- A print statement after its keyword. -/
def printStatement : Parser Statement := do
  let _ ← expressions .lineEnd
  return .other "print_statement"

/-- An exec statement after its keyword. -/
def execStatement : Parser Statement := do
  match ← Parser.token with
  | .quote _ =>
    let _ ← literal .lineEnd
  | _ =>
    let _ ← identifier .lineEnd
  if ← atWord "in" then
    Parser.advance .operand
    expressionsExactly .lineEnd
  return .other "exec_statement"

/-- A type alias after its keyword. -/
def typeAlias : Parser Statement := do
  typeHint true .lineEnd
  symbol "=" .operand
  typeHint true .lineEnd
  return .other "type_alias_statement"

/-- A reading that goes on to the end of a simple statement. -/
def complete (statement : Parser Statement) : Parser Statement := do
  let read ← statement
  let token ← Parser.token
  if token == .newline || token == .symbol ";" then return read else Parser.fail

/-- A return statement after its keyword. -/
def returnStatement : Parser Statement := do
  let leading ← Parser.gap
  (do
    let tree ← expressions .lineEnd
    return .returns leading (some tree)) <|> return .returns [] none

/-- A raise statement after its keyword. -/
def raiseStatement : Parser Statement := do
  (do let _ ← expressions .lineEnd) <|> return ()
  if ← atWord "from" then
    Parser.advance .operand
    let _ ← expression Rank.any .lineEnd
  return .other "Raise"

/-- A simple statement. Where an old keyword can also be a name, an ordinary reading wins over a
print or exec statement, and a type alias over an ordinary reading. -/
def simpleStatement : Parser Statement := do
  match ← Parser.token with
  | .word "import" =>
    Parser.advance .operand
    let names ← importedNames .lineEnd
    return .imports names
  | .word "from" => importFrom
  | .word "assert" =>
    Parser.advance .operand
    expressionsExactly .lineEnd
    return .other "Assert"
  | .word "return" =>
    Parser.advance .lineEnd
    returnStatement
  | .word "del" =>
    Parser.advance .operand
    let _ ← expressions .lineEnd
    return .other "Delete"
  | .word "raise" =>
    Parser.advance .lineEnd
    raiseStatement
  | .word "pass" =>
    Parser.advance .lineEnd
    return .other "Pass"
  | .word "break" =>
    Parser.advance .lineEnd
    return .other "Break"
  | .word "continue" =>
    Parser.advance .lineEnd
    return .other "Continue"
  | .word "global" =>
    Parser.advance .operand
    identifiers
    return .other "Global"
  | .word "nonlocal" =>
    Parser.advance .operand
    identifiers
    return .other "Nonlocal"
  | .word "print" =>
    Parser.advance .lineEnd
    if ← atSymbol ">>" then printTo
    else complete (nameStatement "print") <|> printStatement
  | .word "exec" =>
    Parser.advance .lineEnd
    complete (nameStatement "exec") <|> execStatement
  | .word "type" =>
    Parser.advance .lineEnd
    complete typeAlias <|> nameStatement "type"
  | _ => expressionStatement

/-- Trivia as statements. -/
def triviaStatements (gap : List Trivia) : List Statement := gap.map .trivia

/-- Simple statements up to the end of their line, of which a parser reads the first. -/
def simpleLine (head : Parser Statement) : Parser (List Statement) := do
  let first ← head
  Parser.loop (fun read => do
    let read := read ++ triviaStatements (← Parser.gap)
    let token ← Parser.token
    if token == .newline then return .done read
    else
      symbol ";" .lineEnd
      let read := read ++ triviaStatements (← Parser.gap)
      let token ← Parser.token
      if token == .newline then return .done read
      else
        let next ← simpleStatement
        return .again (read ++ [next])) [first]

end Respell.Source.Grammar
