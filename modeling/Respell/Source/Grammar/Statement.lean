import Respell.Source.Grammar.Simple

/-!
Compound statements, their bodies, and statements in general.
-/

set_option autoImplicit false

namespace Respell.Source.Grammar

/-- An else clause, if there is one. -/
def elseClause : Parser (List Statement) := do
  if ← atWord "else" then
    Parser.advance .operand
    suite
  else return []

/-- Alternatives with tests, then a last one. -/
def alternativesOf (branches : List (Tree × List Statement)) (last : Alternative) : Alternative :=
  branches.foldr (fun branch rest => .elseIf branch.1 branch.2 rest) last

/-- What follows the branches of a conditional that are already read. -/
def alternativesFrom : List (Tree × List Statement) → Parser Alternative :=
  Parser.loop fun branches => do
    if ← atWord "elif" then
      Parser.advance .operand
      let test ← expression Rank.any .operand
      let statements ← suite
      return .again (branches ++ [(test, statements)])
    else if ← atWord "else" then
      Parser.advance .operand
      let statements ← suite
      return .done (alternativesOf branches (.otherwise statements))
    else return .done (alternativesOf branches .none)

/-- A conditional. -/
def ifStatement : Parser Statement := do
  word "if" .operand
  let test ← expression Rank.any .operand
  let statements ← suite
  let alternative ← alternativesFrom []
  return .ifElse test statements alternative

/-- A loop on a condition. -/
def whileStatement : Parser Statement := do
  word "while" .operand
  let test ← expression Rank.any .operand
  let statements ← suite
  let orelse ← elseClause
  return .whileLoop test statements orelse

/-- A loop over a sequence. -/
def forStatement (isAsync : Bool) : Parser Statement := do
  word "for" .operand
  let target ← targets .operand
  word "in" .operand
  let iter ← expressions .operand
  let statements ← suite
  let orelse ← elseClause
  return .forEach isAsync target iter statements orelse

/-- A with statement. -/
def withStatement : Parser Statement := do
  word "with" .operand
  let _ ← expressions .operand
  let _ ← suite
  return .other "With"

/-- Except clauses. -/
def exceptClauses : Parser Unit :=
  Parser.loop (fun _ => do
    if ← atWord "except" then
      Parser.advance .operand
      if ← atStar then
        Parser.splitStar
        Parser.advance .operand
      if ← atSymbol ":" then
        let _ ← suite
      else
        expressionsExactly .operand
        let _ ← suite
      return .again ()
    else return .done ()) ()

/-- A try statement. -/
def tryStatement : Parser Statement := do
  word "try" .operand
  let _ ← suite
  exceptClauses
  let _ ← elseClause
  if ← atWord "finally" then
    Parser.advance .operand
    let _ ← suite
  return .other "Try"

/-- A function up to its body, as what its body makes of it. -/
def functionHeader (isAsync : Bool) : Parser (List Statement → Definition) := do
  word "def" .operand
  let name ← identifier .operand
  if ← atSymbol "[" then typeArguments .operand
  let read ← parameters .operand
  if ← atSymbol "->" then
    Parser.advance .operand
    typeHint false .operand
  return .function isAsync name read

/-- A class up to its body, which is not kept. -/
def classHeader : Parser (List Statement → Definition) := do
  word "class" .operand
  let name ← identifier .operand
  if ← atSymbol "[" then typeArguments .operand
  if ← atSymbol "(" then
    Parser.advance .closing
    let _ ← argumentList
    Parser.advance .operand
  return fun _ => .klass name

/-- Decorators, each on a line of its own. -/
def decorators : Parser Unit :=
  Parser.loop (fun _ => do
    if ← atSymbol "@" then
      Parser.advance .operand
      let _ ← expression Rank.any .lineEnd
      let token ← Parser.token
      if token == .newline then
        Parser.advance .operand
        return .again ()
      else Parser.fail
    else return .done ()) ()

/-- A definition with the decorators before it, up to its body. -/
def decoratedHeader : Parser (List Statement → Definition) := do
  decorators
  if ← atWord "def" then functionHeader false
  else if ← atWord "class" then classHeader
  else
    word "async" .operand
    functionHeader true

/-- A function that starts with `async`, up to its body. -/
def asyncHeader : Parser (List Statement → Definition) := do
  word "async" .lineEnd
  functionHeader true

/-- A definition as a statement, with its text. -/
def definitionStatement (header : Parser (List Statement → Definition)) :
    Parser (List Statement) := do
  let (text, defined) ← Parser.written do
    let define ← header
    let statements ← suite
    return define statements
  return [.definition text defined]

/-- Patterns of a `case` clause after a first one. -/
def morePatterns : Parser Unit :=
  Parser.loop (fun _ => do
    if ← atSymbol "," then
      Parser.advance .operand
      if (← atSymbol ":") || (← atWord "if") then return .done ()
      else
        pattern .operand
        return .again ()
    else return .done ()) ()

/-- Case clauses up to the end of their block. -/
def caseClauses : Parser Unit :=
  Parser.loop (fun _ => do
    let token ← Parser.token
    if token == .dedent then return .done ()
    else
      word "case" .operand
      pattern .operand
      morePatterns
      if ← atWord "if" then
        Parser.advance .operand
        let _ ← expression Rank.aliased .operand
      let _ ← suite
      return .again ()) ()

/-- A match statement after its keyword. -/
def matchStatement : Parser Statement := do
  let _ ← expressions .lineEnd
  Parser.body .fail () caseClauses
  return .other "Match"

/-- A line of simple statements, of which a parser reads the first. -/
def lineStatement (head : Parser Statement) : Parser (List Statement) := do
  let statements ← simpleLine head
  Parser.advance .boundary
  return statements

/-- One statement as a list. -/
def single (statement : Parser Statement) : Parser (List Statement) := do
  let one ← statement
  return [one]

/-- A statement that starts with `async`, which may also be a name. -/
def asyncStatement : Parser (List Statement) :=
  definitionStatement asyncHeader <|> do
  word "async" .lineEnd
  if ← atWord "for" then single (forStatement true)
  else if ← atWord "with" then single withStatement
  else lineStatement (nameStatement "async")

/-- A statement that starts with `match`, which may also be a name. -/
def matchLine : Parser (List Statement) := do
  word "match" .lineEnd
  single matchStatement <|> lineStatement (nameStatement "match")

/-- A statement that is a whole line or more. -/
def statement : Parser (List Statement) := do
  match ← Parser.token with
  | .word "if" => single ifStatement
  | .word "while" => single whileStatement
  | .word "for" => single (forStatement false)
  | .word "try" => single tryStatement
  | .word "with" => single withStatement
  | .word "def" => definitionStatement (functionHeader false)
  | .word "class" => definitionStatement classHeader
  | .word "async" => asyncStatement
  | .symbol "@" => definitionStatement decoratedHeader
  | .word "match" => matchLine
  | _ => lineStatement simpleStatement

/-- Statements up to the end of a block or of the text, with the trivia among them; the flag tells
whether the trivia before the first one counts. -/
def statements (leading : Bool) : Parser (List Statement) :=
  Parser.loop (fun (read, counts) => do
    let gap ← Parser.gap
    let read := if counts then read ++ triviaStatements gap else read
    let token ← Parser.token
    if token == .dedent || token == .stop then return .done read
    else
      let more ← statement
      return .again (read ++ more, true)) ([], leading)

/-- The body of a compound statement: a deeper block, the rest of the line, or nothing. Trivia before
its first statement is not part of it. -/
def suiteBody : Parser (List Statement) :=
  Parser.body (simpleLine simpleStatement) [] (statements false)

end Respell.Source.Grammar
