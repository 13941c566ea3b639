import Respell.Source.Grammar.Strings

/-!
Brackets: arguments, subscripts, and displays of lists, tuples, sets and dictionaries with their
comprehensions.
-/

set_option autoImplicit false

namespace Respell.Source.Grammar

/-- Whether the current token is a star or begins with one. -/
def atStar : Parser Bool := do return (← atSymbol "*") || (← atSymbol "**")

/-- Whether a comprehension clause starts here. -/
def startsClause : Parser Bool := do return (← atWord "for") || (← atWord "async")

/-- What is iterated over after a first expression. -/
def moreIterables : Parser Unit :=
  Parser.loop (fun _ => do
    if ← atSymbol "," then
      Parser.advance .closing
      (do
        let _ ← iterable
        return .again ()) <|> return .done ()
    else return .done ()) ()

/-- Comprehension clauses up to the closing bracket. -/
def clauses (close : String) : Parser Unit :=
  Parser.loop (fun _ => do
    if ← atSymbol close then return .done ()
    else if ← atWord "if" then
      Parser.advance .operand
      let _ ← expression Rank.aliased .closing
      return .again ()
    else
      if ← atWord "async" then Parser.advance .operand
      word "for" .operand
      let _ ← targets .operand
      word "in" .operand
      let _ ← iterable
      moreIterables
      return .again ()) ()

/-- A starred expression as an element or an argument. -/
def splat : Parser Tree := do
  Parser.splitStar
  Parser.advance .operand
  let _ ← expression Rank.any .closing
  return .other "Starred"

/-- An element of a display. A star that begins no expression of its own stars what follows. -/
def element (close : String) : Parser Tree := do
  if ← atWord "yield" then yieldExpression .closing
  else if ← atStar then
    (do
      let tree ← expression Rank.any .closing
      if (← atSymbol ",") || (← atSymbol close) || (← startsClause) then return tree
      else Parser.fail) <|> splat
  else expression Rank.any .closing

/-- Whether an element can be the body of a comprehension. -/
def isBody : Tree → Bool
  | .yield => false
  | .other "Starred" => false
  | _ => true

/-- Elements after those already read, up to the closing bracket, with the trivia among them. -/
def elementsFrom (close : String) : List Tree → Parser (List Tree) :=
  Parser.loop fun read => do
    let read := read ++ triviaTrees (← Parser.gap)
    if ← atSymbol close then return .done read
    else
      symbol "," .closing
      let read := read ++ triviaTrees (← Parser.gap)
      if ← atSymbol close then return .done read
      else
        let tree ← element close
        return .again (read ++ [tree])

/-- A list display or a list comprehension. -/
def listDisplay (expect : Expect) : Parser Tree := do
  symbol "[" .closing
  let leading := triviaTrees (← Parser.gap)
  if ← atSymbol "]" then
    Parser.advance expect
    return .list leading
  else
    let tree ← element "]"
    if (← startsClause) && isBody tree then
      clauses "]"
      Parser.advance expect
      return .other "ListComp"
    else
      let children ← elementsFrom "]" (leading ++ [tree])
      Parser.advance expect
      return .list children

/-- Parentheses: around one expression, a tuple, or a generator. -/
def group (expect : Expect) : Parser Tree := do
  symbol "(" .closing
  let leading ← Parser.gap
  if ← atSymbol ")" then
    Parser.advance expect
    return .tuple (triviaTrees leading)
  else
    let tree ← element ")"
    if (← startsClause) && isBody tree then
      clauses ")"
      Parser.advance expect
      return .other "GeneratorExp"
    else if ← atSymbol ")" then
      let trailing ← Parser.gap
      Parser.advance expect
      match tree with
      | .other "Starred" => return .parenthesizedSplat
      | _ => return .parenthesized leading tree trailing
    else
      let children ← elementsFrom ")" (triviaTrees leading ++ [tree])
      Parser.advance expect
      return .tuple children

/-- The value of a pair, after its colon. -/
def pairValue : Parser Tree := do
  symbol ":" .operand
  expression Rank.any .closing

/-- A mapping spread into a dictionary or into arguments. -/
def spread : Parser (List Trivia × Tree) := do
  symbol "**" .operand
  let leading ← Parser.gap
  let tree ← expression Rank.any .closing
  return (leading, tree)

/-- Entries of a dictionary after those already read, up to the closing brace. -/
def entriesFrom : List Entry → Parser (List Entry) :=
  Parser.loop fun read => do
    if ← atSymbol "\x7d" then return .done read
    else
      symbol "," .closing
      if ← atSymbol "\x7d" then return .done read
      else if ← atSymbol "**" then
        let (leading, value) ← spread
        return .again (read ++ [.spread leading value])
      else
        let key ← expression Rank.any .operand
        let value ← pairValue
        return .again (read ++ [.pair key value])

/-- The rest of a dictionary after its first entry. -/
def dictionaryFrom (expect : Expect) (first : Entry) : Parser Tree := do
  let entries ← entriesFrom [first]
  Parser.advance expect
  return .dictionary entries

/-- Braces: a dictionary, a set, or a comprehension of either. -/
def braces (expect : Expect) : Parser Tree := do
  symbol "\x7b" .closing
  if ← atSymbol "\x7d" then
    Parser.advance expect
    return .dictionary []
  else if ← atSymbol "," then
    Parser.advance .closing
    symbol "\x7d" expect
    return .dictionary []
  else if ← atSymbol "**" then
    let (leading, value) ← spread
    dictionaryFrom expect (.spread leading value)
  else
    let tree ← element "\x7d"
    if (← atSymbol ":") && isBody tree then
      let value ← pairValue
      if ← startsClause then
        clauses "\x7d"
        Parser.advance expect
        return .other "DictComp"
      else dictionaryFrom expect (.pair tree value)
    else if (← startsClause) && isBody tree then
      clauses "\x7d"
      Parser.advance expect
      return .other "SetComp"
    else
      let _ ← elementsFrom "\x7d" [tree]
      Parser.advance expect
      return .other "Set"

/-- A named argument. -/
def keywordArgument : Parser Argument := do
  let token ← Parser.token
  let name ← require token.name?
  Parser.advance .closing
  symbol "=" .operand
  let value ← expression Rank.any .closing
  return .keyword name value

/-- One argument. -/
def argument : Parser Argument := do
  if ← atSymbol "**" then
    let (leading, value) ← spread
    return .spread leading value
  else if ← atSymbol "*" then
    let tree ← splat
    return .positional tree
  else
    keywordArgument <|> (do
      let tree ← expression Rank.any .closing
      return .positional tree)

/-- Trivia as children of an argument list. -/
def triviaArguments (gap : List Trivia) : List Argument :=
  gap.map fun kind => .positional (.trivia kind)

/-- Arguments after those already read, up to the closing parenthesis. -/
def argumentsFrom : List Argument → Parser (List Argument) :=
  Parser.loop fun read => do
    let read := read ++ triviaArguments (← Parser.gap)
    if ← atSymbol ")" then return .done read
    else
      symbol "," .closing
      let read := read ++ triviaArguments (← Parser.gap)
      if ← atSymbol ")" then return .done read
      else
        let next ← argument
        return .again (read ++ [next])

/-- Arguments in parentheses, from after the opening one to the closing one. -/
def argumentList : Parser (List Argument) := do
  let leading := triviaArguments (← Parser.gap)
  if ← atSymbol ")" then return leading
  else if ← atSymbol "," then
    Parser.advance .closing
    let trailing := triviaArguments (← Parser.gap)
    if ← atSymbol ")" then return leading ++ trailing else Parser.fail
  else
    let first ← argument
    argumentsFrom (leading ++ [first])

/-- A generator as the only argument of a call, to the closing parenthesis. -/
def generatorArgument : Parser Unit := do
  let _ ← expression Rank.any .closing
  if ← startsClause then clauses ")" else Parser.fail

/-- A call: its only argument may be a generator without parentheses of its own. -/
def call (expect : Expect) (func : Tree) : Parser Tree := do
  symbol "(" .closing
  let tree ← (do
      let arguments ← argumentList
      return .call func arguments) <|> (do
      generatorArgument
      return .generatorCall func)
  Parser.advance expect
  return tree

/-- An expression if one starts here. -/
def optionalExpression : Parser Unit :=
  (do let _ ← expression Rank.any .closing) <|> return ()

/-- The rest of a slice, from its colon on. -/
def sliceFrom : Parser Tree := do
  symbol ":" .closing
  optionalExpression
  if ← atSymbol ":" then
    Parser.advance .closing
    optionalExpression
  return .other "Slice"

/-- One index of a subscript: an expression or a slice. -/
def index : Parser Tree := do
  if ← atSymbol ":" then sliceFrom
  else
    let first ← expression Rank.any .closing
    if ← atSymbol ":" then sliceFrom else return first

/-- Indices after those already read, up to the closing bracket. -/
def indicesFrom : List Tree → Parser (List Tree) :=
  Parser.loop fun read => do
    if ← atSymbol "]" then return .done read
    else
      symbol "," .closing
      if ← atSymbol "]" then return .done read
      else
        let tree ← index
        return .again (read ++ [tree])

/-- A subscript. -/
def subscript (expect : Expect) (value : Tree) : Parser Tree := do
  symbol "[" .operand
  let first ← index
  let more ← indicesFrom []
  Parser.advance expect
  return .subscript value first more

end Respell.Source.Grammar
