import Respell.Source.Parser

/-!
Parsers of symbols, words and identifiers, the rules as parsers, and lists of expressions and
targets.
-/

set_option autoImplicit false

namespace Respell.Source.Grammar

/-- A value that may be missing. -/
def require {α : Type} : Option α → Parser α
  | some value => .pure value
  | none => .fail

/-- Whether the current token is a given symbol. -/
def atSymbol (text : String) : Parser Bool := do
  let token ← Parser.token
  return token == .symbol text

/-- Whether the current token is a given word. -/
def atWord (text : String) : Parser Bool := do
  let token ← Parser.token
  return token == .word text

/-- Passes a given symbol. -/
def symbol (text : String) (expect : Expect) : Parser Unit := do
  if ← atSymbol text then Parser.advance expect else Parser.fail

/-- Passes a given word. -/
def word (text : String) (expect : Expect) : Parser Unit := do
  if ← atWord text then Parser.advance expect else Parser.fail

/-- An identifier. -/
def identifier (expect : Expect) : Parser String := do
  let token ← Parser.token
  let text ← require token.identifier?
  Parser.advance expect
  return text

/-- An expression whose loosest operator is at least of a rank. -/
def expression (rank : Nat) (expect : Expect) : Parser Tree := .call (.expression rank expect)

/-- The rest of an expression that starts with a name, after that name. -/
def afterName (rank : Nat) (expect : Expect) (name : String) : Parser Tree :=
  .call (.afterName rank expect name)

/-- A name, a literal, a display, or a star with what it stars. -/
def atom (expect : Expect) : Parser Tree := .call (.atom expect)

/-- An expression iterated over in a comprehension. -/
def iterable : Parser Tree := .call .iterable

/-- A type; the flag allows a constraint after a colon. -/
def typeHint (constrained : Bool) (expect : Expect) : Parser Unit :=
  .call (.typeHint constrained expect)

/-- A pattern of a `case` clause. -/
def pattern (expect : Expect) : Parser Unit := .call (.pattern expect)

/-- An expression, expressions, or an assignment to them. -/
def assigned : Parser Assigned := .call .assigned

/-- One string literal. -/
def literal (expect : Expect) : Parser Literal := .call (.literal expect)

/-- The body of a compound statement from its colon on, with the end of its line or block. -/
def suite : Parser (List Statement) := .call .suite

/-- Trivia as children of a collection. -/
def triviaTrees (gap : List Trivia) : List Tree := gap.map .trivia

/-- Items after those already read, each after a comma, with the trivia among them. A comma may come
last. -/
def itemsFrom (item : Parser Tree) (expect : Expect) : List Tree → Parser (List Tree) :=
  Parser.loop fun read => do
    if ← atSymbol "," then
      let read := read ++ triviaTrees (← Parser.gap)
      Parser.advance expect
      let leading ← Parser.gap
      (do
        let tree ← item
        return .again (read ++ triviaTrees leading ++ [tree])) <|> return .done read
    else return .done read

/-- One item, or a tuple of several. -/
def items (item : Parser Tree) (expect : Expect) : Parser Tree := do
  let first ← item
  if ← atSymbol "," then
    let children ← itemsFrom item expect [first]
    return .tuple children
  else return first

/-- One expression, or a tuple of several. -/
def expressions (expect : Expect) : Parser Tree := items (expression Rank.any expect) expect

/-- An expression used as a target. A parenthesized target is a tuple of one. -/
def asTarget? : Tree → Option Tree
  | .name text => some (.name text)
  | .attribute object attr => some (.attribute object attr)
  | .subscript value index more => some (.subscript value index more)
  | .starred => some .starred
  | .list children => (asTargets? children).map .list
  | .tuple children => (asTargets? children).map .tuple
  | .parenthesized leading inner trailing =>
    (asTarget? inner).map fun target =>
      .tuple (triviaTrees leading ++ target :: triviaTrees trailing)
  | _ => none
where
  /-- Targets among trivia. -/
  asTargets? : List Tree → Option (List Tree)
    | [] => some []
    | .trivia kind :: rest => (asTargets? rest).map (.trivia kind :: ·)
    | child :: rest =>
      match asTarget? child, asTargets? rest with
      | some target, some targets => some (target :: targets)
      | _, _ => none

/-- A target of an assignment or a loop. -/
def target (expect : Expect) : Parser Tree := do
  let tree ← expression Rank.trailer expect
  require (asTarget? tree)

/-- One target, or a tuple of several. -/
def targets (expect : Expect) : Parser Tree := items (target expect) expect

end Respell.Source.Grammar
