import Respell.Render.Draft
import Respell.Render.Number
import Respell.Syntax.Basic
import Respell.Token.Operator

/-!
Rendering of syntax trees with a token table. Each node either renders or is a fault that its parent
reports once, going on with empty text in its place.
-/

set_option autoImplicit false

namespace Respell.Render

open Syntax (BooleanOperator CompareOperator Constant DictEntry Expr FunctionDef Keyword Stmt)

/-- Text of a constant: what the table spells, otherwise its source spelling. -/
def constantText (table : TokenTable) : Constant → String
  | .none => (table.get? (.literal .nullLiteral)).getD "None"
  | .bool true => (table.get? (.literal .trueLiteral)).getD "True"
  | .bool false => (table.get? (.literal .falseLiteral)).getD "False"
  | .int value => toString value.toInt
  | .float bits => floatText bits
  | .str text =>
    match table.get? (.literal .stringBegin), table.get? (.literal .stringEnd) with
    | some opening, some closing => opening ++ text ++ closing
    | _, _ => text
  | .ellipsis => "Ellipsis"

/-- Records that named arguments are left out of a call. -/
def dropKeywords (callee : String) : List Keyword → Draft Unit
  | [] => .pure ()
  | keywords =>
    let names := keywords.map fun keyword => keyword.arg?.getD "**"
    .record ⟨.warning, .unsupportedConstruct,
      "keyword arguments dropped from call to " ++ callee ++ ": " ++ ", ".intercalate names⟩

/-- A comparison that is not one operator between two operands. -/
def unsupportedShape (operators comparators : Nat) : Fault :=
  ⟨.unsupportedComparisonShape, "comparison with " ++ toString operators ++ " operators and " ++
    toString comparators ++ " comparators"⟩

mutual

/-- Renders an expression. -/
def renderExpr (table : TokenTable) : Expr → Draft String
  | .call func args keywords => do
    let callee ← (renderExpr table func).settled
    let texts ← renderTexts table args
    let inner ← join table (.function .argumentSeparator) texts
    dropKeywords callee keywords
    return callee ++ "(" ++ inner ++ ")"
  | .name text => .pure text
  | .constant value => .pure (constantText table value)
  | .attribute value attr => do
    let dot ← require table (.access .attribute)
    let receiver ← (renderExpr table value).settled
    return receiver ++ dot ++ attr
  | .binaryOp left op right => do
    let symbol ← requireOperator table (.ofBinary op)
    let left ← (renderExpr table left).settled
    let right ← (renderExpr table right).settled
    return left ++ symbol ++ right
  | .booleanOp op values => do
    let symbol ← requireOperator table (.ofBoolean op)
    let texts ← renderTexts table values
    return symbol.intercalate texts
  | .compare left [op] [right] => do
    let symbol ← requireOperator table (.ofCompare op)
    let left ← (renderExpr table left).settled
    let right ← (renderExpr table right).settled
    return left ++ symbol ++ right
  | .compare _ ops comparators => .fail (unsupportedShape ops.length comparators.length)
  | .subscript value index => do
    let opening ← require table (.access .subscriptOpen)
    let closing ← require table (.access .subscriptClose)
    let value ← (renderExpr table value).settled
    let index ← (renderExpr table index).settled
    return value ++ opening ++ index ++ closing
  | .dict entries => do
    let opening ← require table (.literal .dictBegin)
    let closing ← require table (.literal .dictEnd)
    let texts ← renderEntries table entries
    let inner ← join table (.literal .dictJoin) texts
    return opening ++ inner ++ closing
  | .list items => do
    let opening ← require table (.literal .listBegin)
    let closing ← require table (.literal .listEnd)
    let texts ← renderTexts table items
    let inner ← join table (.literal .listJoin) texts
    return opening ++ inner ++ closing
  | .tuple items => do
    let opening ← require table (.literal .tupleBegin)
    let closing ← require table (.literal .tupleEnd)
    let texts ← renderTexts table items
    let inner ← join table (.literal .tupleJoin) texts
    return opening ++ inner ++ closing
  | .other kind => .fail (unsupportedConstruct kind)

/-- Renders expressions in order, each settled on its own. -/
def renderTexts (table : TokenTable) : List Expr → Draft (List String)
  | [] => .pure []
  | expr :: rest => do
    let first ← (renderExpr table expr).settled
    let more ← renderTexts table rest
    return first :: more

/-- Renders the entries of a dictionary; one without a key is reported and left out. -/
def renderEntries (table : TokenTable) : List DictEntry → Draft (List String)
  | [] => .pure []
  | .spread _ :: rest => do
    Draft.record (.report .malformedLiteral "dict entry without a key skipped")
    renderEntries table rest
  | .keyed key value :: rest => do
    let between ← require table (.literal .dictAssign)
    let key ← (renderExpr table key).settled
    let value ← (renderExpr table value).settled
    let more ← renderEntries table rest
    return (key ++ between ++ value) :: more

end

/-- Tokens of a construct with a head and a body. -/
structure BlockTokens where
  /-- Before everything. -/
  key : FlowToken
  /-- Before the head. -/
  opening : FlowToken
  /-- After the head. -/
  closing : FlowToken
  /-- Before the body. -/
  openBody : FlowToken
  /-- After the body. -/
  closeBody : FlowToken

/-- Tokens of conditionals. -/
def ifTokens : BlockTokens := ⟨.ifKey, .ifBegin, .ifEnd, .ifOpenBody, .ifCloseBody⟩

/-- Tokens of loops on a condition. -/
def whileTokens : BlockTokens :=
  ⟨.whileKey, .whileBegin, .whileEnd, .whileOpenBody, .whileCloseBody⟩

/-- Tokens of loops over a sequence. -/
def forEachTokens : BlockTokens :=
  ⟨.foreachKey, .foreachBegin, .foreachEnd, .foreachOpenBody, .foreachCloseBody⟩

/-- What stands before and after the body of a construct with a head. -/
def blockFrame (table : TokenTable) (tokens : BlockTokens) (head : String) :
    Draft (String × String) := do
  let key ← require table (.flow tokens.key)
  let opening ← require table (.flow tokens.opening)
  let closing ← require table (.flow tokens.closing)
  let openBody ← require table (.flow tokens.openBody)
  let closeBody ← require table (.flow tokens.closeBody)
  return (key ++ opening ++ head ++ closing ++ openBody, closeBody)

/-- The token before a returned value: that of functions, or else that of control flow. -/
def returnKey (table : TokenTable) : Draft String :=
  match (table.get? (.function .returnKey)).or (table.get? (.flow .returnKey)) with
  | some text => .pure text
  | none =>
    .fail ⟨.missingToken, "token " ++ (Token.function .returnKey).qualified ++
      " is not configured (nor " ++ (Token.flow .returnKey).qualified ++ ")"⟩

/-- Records that an alternative is left out. -/
def dropElse (construct : String) : List Stmt → Draft Unit
  | [] => .pure ()
  | orelse =>
    .record ⟨.warning, .unsupportedConstruct, "else branch of " ++ construct ++ " dropped (" ++
      toString orelse.length ++ " statements)"⟩

/-- The targets of an assignment, between their marks if both are set. -/
def groupTargets (table : TokenTable) (texts : List String) : Draft String := do
  let group ← join table (.assignment .multipleAssignJoin) texts
  if table.isSet (.assignment .multipleAssignBegin) && table.isSet (.assignment .multipleAssignEnd)
  then
    let opening ← require table (.assignment .multipleAssignBegin)
    let closing ← require table (.assignment .multipleAssignEnd)
    return opening ++ group ++ closing
  else return group

/-- What stands before and after the body of a function. -/
def functionFrame (table : TokenTable) (name : String) (params : List String) :
    Draft (String × String) := do
  let define ← require table (.function .defineKey)
  let openBody ← require table (.function .openBody)
  let closeBody ← require table (.function .closeBody)
  let inner ← join table (.function .argumentSeparator) params
  return (define ++ name ++ "(" ++ inner ++ ")" ++ openBody, closeBody)

mutual

/-- Renders a statement. -/
def renderStmt (table : TokenTable) : Stmt → Draft String
  | .assign targets value => do
    let between ← require table (.assignment .assignKey)
    let texts ← renderTexts table targets
    let group ← groupTargets table texts
    let value ← (renderExpr table value).settled
    return group ++ between ++ value
  | .expr value => renderExpr table value
  | .returns none => returnKey table
  | .returns (some value) => do
    let key ← returnKey table
    let text ← (renderExpr table value).settled
    return key ++ text
  | .functionDef definition => renderFunction table definition
  | .forEach target iter body orelse => do
    let between ← require table (.flow .foreachSeparator)
    dropElse "for" orelse
    let target ← (renderExpr table target).settled
    let iter ← (renderExpr table iter).settled
    let (before, after) ← blockFrame table forEachTokens (target ++ between ++ iter)
    let inner ← renderBody table body
    return before ++ inner ++ after
  | .ifElse test body orelse => do
    dropElse "if" orelse
    let test ← (renderExpr table test).settled
    let (before, after) ← blockFrame table ifTokens test
    let inner ← renderBody table body
    return before ++ inner ++ after
  | .whileLoop test body orelse => do
    dropElse "while" orelse
    let test ← (renderExpr table test).settled
    let (before, after) ← blockFrame table whileTokens test
    let inner ← renderBody table body
    return before ++ inner ++ after
  | .other kind => .fail (unsupportedConstruct kind)

/-- Renders a function. -/
def renderFunction (table : TokenTable) : FunctionDef → Draft String
  | .mk name params body => do
    let (before, after) ← functionFrame table name params
    let inner ← renderBody table body
    return before ++ inner ++ after

/-- Renders a body: a bare expression in first place is left out. -/
def renderBody (table : TokenTable) : List Stmt → Draft String
  | .expr _ :: rest => renderLines table rest
  | body => renderLines table body

/-- Renders statements, each on a line of its own. -/
def renderLines (table : TokenTable) : List Stmt → Draft String
  | [] => .pure ""
  | stmt :: rest => do
    let first ← (renderStmt table stmt).settled
    let more ← renderLines table rest
    return "\n\t" ++ first ++ more

end

end Respell.Render
