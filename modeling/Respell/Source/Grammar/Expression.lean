import Respell.Source.Grammar.Display
import Respell.Source.Grammar.Parameters

/-!
Expressions by the strength of their operators.
-/

set_option autoImplicit false

namespace Respell.Source.Grammar

open Respell.Syntax (BinaryOperator BooleanOperator CompareOperator)

/-- Whether something trails the expression before. -/
def atTrailer : Parser Bool := do
  return (← atSymbol ".") || (← atSymbol "(") || (← atSymbol "[")

/-- An attribute, a call or a subscript of a tree. -/
def trailer (expect : Expect) (tree : Tree) : Parser Tree := do
  if ← atSymbol "." then
    Parser.advance .operand
    let attr ← identifier expect
    return .attribute tree attr
  else if ← atSymbol "(" then call expect tree
  else subscript expect tree

/-- Everything that trails a tree. -/
def trailers (expect : Expect) : Tree → Parser Tree :=
  Parser.loop fun tree => do
    if ← atTrailer then
      let tree ← trailer expect tree
      return .again tree
    else return .done tree

/-- What trails a starred tree that is no name: calls, then an attribute or a subscript. -/
def starTrailers (expect : Expect) : Tree → Parser Unit :=
  Parser.loop fun tree => do
    if ← atTrailer then
      let isCall ← atSymbol "("
      let tree ← trailer expect tree
      if isCall then return .again tree else return .done ()
    else Parser.fail

/-- Whether an operand of `await` can start with a token. -/
def startsPrimary : Token → Bool
  | .quote _ => true
  | .numeral _ _ => true
  | .word text => (Token.word text).name?.isSome || ["True", "False", "None"].contains text
  | .symbol text => ["(", "[", "\x7b", "-", "+", "~", "*", "..."].contains text
  | _ => false

/-- Passes the token of a tree. -/
def leaf (expect : Expect) (tree : Tree) : Parser Tree := do
  Parser.advance expect
  return tree

/-- A name, a literal, a display, or a star with what it stars. -/
def atomBody (expect : Expect) : Parser Tree := do
  match ← Parser.token with
  | .word "True" => leaf expect .true
  | .word "False" => leaf expect .false
  | .word "None" => leaf expect .none
  | .word text =>
    let name ← require (Token.word text).name?
    leaf expect (.name name)
  | .numeral .integer digits => leaf expect (.integer digits)
  | .numeral .float digits => leaf expect (.float digits)
  | .quote _ => strings expect
  | .symbol "..." => leaf expect .ellipsis
  | .symbol "(" => group expect
  | .symbol "[" => listDisplay expect
  | .symbol "\x7b" => braces expect
  | .symbol _ =>
    if ← atStar then
      Parser.splitStar
      Parser.advance .operand
      let inner ← Parser.token
      if inner.name?.isSome then leaf expect .starred
      else
        let tree ← atom expect
        starTrailers expect tree
        return .starred
    else Parser.fail
  | _ => Parser.fail

/-- An atom with everything that trails it. -/
def trailed (expect : Expect) : Parser Tree := do
  let tree ← atom expect
  trailers expect tree

/-- What follows a name that starts an expression, up to the first infix operator. -/
def nameFrom (rank : Nat) (expect : Expect) (name : String) : Parser Tree := do
  let token ← Parser.token
  if name == "await" && startsPrimary token then
    let _ ← expression Rank.power expect
    return .other "Await"
  else if rank < Rank.primary && token == .symbol ":=" then
    Parser.advance .operand
    let _ ← expression Rank.aliased expect
    return .other "NamedExpr"
  else trailers expect (.name name)

/-- An expression up to its first infix operator. -/
def operand (rank : Nat) (expect : Expect) : Parser Tree := do
  let loose := rank < Rank.primary
  match ← Parser.token with
  | .symbol text =>
    if text == "-" || text == "+" || text == "~" then
      Parser.advance .operand
      let _ ← expression Rank.power expect
      return .other "UnaryOp"
    else trailed expect
  | .word text =>
    if text == "not" then
      if loose then
        Parser.advance .operand
        let _ ← expression Rank.comparison expect
        return .other "UnaryOp"
      else Parser.fail
    else if text == "lambda" then
      if loose then
        lambdaParameters
        let _ ← expression Rank.any expect
        return .other "Lambda"
      else Parser.fail
    else
      match (Token.word text).name? with
      | some name =>
        Parser.advance expect
        nameFrom rank expect name
      | none => trailed expect
  | _ => trailed expect

/-- How strongly a binary operator binds, and how strong its right operand has to be. -/
def binaryRank : BinaryOperator → Nat × Nat
  | .bitOr => (14, 15)
  | .bitAnd => (15, 16)
  | .bitXor => (16, 17)
  | .lShift | .rShift => (17, 18)
  | .add | .sub => (18, 19)
  | .mult | .matMult | .div | .mod | .floorDiv => (19, 20)
  | .pow => (21, 21)

/-- The binary operator that a token is. -/
def binaryOperator? : Token → Option BinaryOperator
  | .symbol text => BinaryOperator.ofSymbol? text
  | _ => none

/-- Whether a token starts a comparison operator. -/
def startsComparison : Token → Bool
  | .symbol text => (CompareOperator.ofSymbol? text).isSome
  | .word text => text == "in" || text == "not" || text == "is"
  | _ => false

/-- Passes a comparison operator. -/
def compareOperator : Parser CompareOperator := do
  match ← Parser.token with
  | .symbol text =>
    let op ← require (CompareOperator.ofSymbol? text)
    Parser.advance .operand
    return op
  | .word "in" =>
    Parser.advance .operand
    return .in
  | .word "not" =>
    Parser.advance .operand
    word "in" .operand
    return .notIn
  | .word "is" =>
    Parser.advance .operand
    if ← atWord "not" then
      Parser.advance .operand
      return .isNot
    else return .is
  | _ => Parser.fail

/-- The links of a comparison after those already read, trivia among them. -/
def linksFrom (expect : Expect) : List Link → Parser (List Link) :=
  Parser.loop fun read => do
    let token ← Parser.token
    if startsComparison token then
      let leading ← Parser.gap
      let op ← compareOperator
      let trailing ← Parser.gap
      let tree ← expression Rank.primary expect
      return .again (read ++ (leading ++ trailing).map Link.trivia ++ [.step op tree])
    else return .done read

/-- The infix operators after a left operand that are at least of a rank. -/
def operators (rank : Nat) (expect : Expect) : Tree → Parser Tree :=
  Parser.loop fun left => do
    let token ← Parser.token
    /- The right operand after an operator, and the tree of both. -/
    let rest (right : Nat) (make : Tree → Tree) : Parser (Turn Tree Tree) := do
      Parser.advance .operand
      let tree ← expression right expect
      return .again (make tree)
    match binaryOperator? token with
    | some op =>
      if (binaryRank op).1 < rank then return .done left
      else rest (binaryRank op).2 (.binary left op)
    | none =>
      if rank ≤ Rank.comparison && startsComparison token then
        let links ← linksFrom expect []
        return .again (.comparison left links)
      else if rank ≤ Rank.conjunction && token == .word "and" then
        rest Rank.negation (.boolean left .and)
      else if rank ≤ Rank.disjunction && token == .word "or" then
        rest Rank.conjunction (.boolean left .or)
      else if rank ≤ Rank.aliased && token == .word "as" then
        rest (Rank.aliased + 1) fun _ => .aliased
      else if rank ≤ Rank.conditional && token == .word "if" then
        Parser.advance .operand
        let _ ← expression Rank.any .operand
        word "else" .operand
        let _ ← expression Rank.conditional expect
        return .again (.other "IfExp")
      else return .done left

/-- An expression whose loosest infix operator is at least of a rank. -/
def expressionBody (rank : Nat) (expect : Expect) : Parser Tree := do
  let left ← operand rank expect
  operators rank expect left

/-- The rest of an expression that starts with a name, after that name. -/
def afterNameBody (rank : Nat) (expect : Expect) (name : String) : Parser Tree := do
  let left ← nameFrom rank expect name
  operators rank expect left

/-- What a comprehension iterates over: a conditional only in brackets. -/
def iterableBody : Parser Tree := do
  if ← atWord "lambda" then
    lambdaParameters
    let _ ← iterable
    return .other "Lambda"
  else expression Rank.aliased .closing

end Respell.Source.Grammar
