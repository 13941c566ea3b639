import Respell.Render.Basic

/-!
Rendering into a collector. A session has the records of all that was rendered before; each record is
added to them when it is made, so that several nodes can be rendered one after the other.
-/

set_option autoImplicit false

namespace Respell.Render

open Syntax (DictEntry Expr FunctionDef Stmt)

/-- A step that may fail, with a collector of records. -/
abbrev Session := ExceptT Fault (StateM Diagnostics)

namespace Session

/-- Adds one record. -/
def record (diagnostic : Diagnostic) : Session Unit :=
  modify fun records => records ++ [diagnostic]

/-- Looks up tokens, or drops parts, and adds what is recorded on the way. -/
def ofDraft {α : Type} (draft : Draft α) : Session α := do
  modify fun records => records ++ draft.records
  MonadExcept.ofExcept draft.result

instance : MonadLift Draft Session := ⟨ofDraft⟩

/-- The outcome of a step, its fault reported to the collector. -/
def settle (step : Session String) : StateM Diagnostics Rendering := do
  match ← step.run with
  | .ok text => return .rendered text
  | .error fault =>
    modify fun records => records ++ [.report fault.kind fault.message]
    return .unsupported fault.kind

/-- The text of a step, empty if it fails, which is reported. -/
def settled (step : Session String) : Session String := do
  return (← step.settle).text

mutual

/-- Renders an expression. -/
def expr (table : TokenTable) : Expr → Session String
  | .call func args keywords => do
    let callee ← (expr table func).settled
    let texts ← exprs table args
    let inner ← join table (.function .argumentSeparator) texts
    dropKeywords callee keywords
    return callee ++ "(" ++ inner ++ ")"
  | .name text => return text
  | .constant value => return constantText table value
  | .attribute value attr => do
    let dot ← require table (.access .attribute)
    let receiver ← (expr table value).settled
    return receiver ++ dot ++ attr
  | .binaryOp left op right => do
    let symbol ← requireOperator table (.ofBinary op)
    let left ← (expr table left).settled
    let right ← (expr table right).settled
    return left ++ symbol ++ right
  | .booleanOp op values => do
    let symbol ← requireOperator table (.ofBoolean op)
    let texts ← exprs table values
    return symbol.intercalate texts
  | .compare left [op] [right] => do
    let symbol ← requireOperator table (.ofCompare op)
    let left ← (expr table left).settled
    let right ← (expr table right).settled
    return left ++ symbol ++ right
  | .compare _ ops comparators => throw (unsupportedShape ops.length comparators.length)
  | .subscript value index => do
    let opening ← require table (.access .subscriptOpen)
    let closing ← require table (.access .subscriptClose)
    let value ← (expr table value).settled
    let index ← (expr table index).settled
    return value ++ opening ++ index ++ closing
  | .dict parts => do
    let opening ← require table (.literal .dictBegin)
    let closing ← require table (.literal .dictEnd)
    let texts ← entries table parts
    let inner ← join table (.literal .dictJoin) texts
    return opening ++ inner ++ closing
  | .list items => do
    let opening ← require table (.literal .listBegin)
    let closing ← require table (.literal .listEnd)
    let texts ← exprs table items
    let inner ← join table (.literal .listJoin) texts
    return opening ++ inner ++ closing
  | .tuple items => do
    let opening ← require table (.literal .tupleBegin)
    let closing ← require table (.literal .tupleEnd)
    let texts ← exprs table items
    let inner ← join table (.literal .tupleJoin) texts
    return opening ++ inner ++ closing
  | .other kind => throw (unsupportedConstruct kind)

/-- Renders expressions in order, each settled on its own. -/
def exprs (table : TokenTable) : List Expr → Session (List String)
  | [] => return []
  | first :: rest => do
    let text ← (expr table first).settled
    let more ← exprs table rest
    return text :: more

/-- Renders the entries of a dictionary; one without a key is reported and left out. -/
def entries (table : TokenTable) : List DictEntry → Session (List String)
  | [] => return []
  | .spread _ :: rest => do
    record (.report .malformedLiteral "dict entry without a key skipped")
    entries table rest
  | .keyed key value :: rest => do
    let between ← require table (.literal .dictAssign)
    let key ← (expr table key).settled
    let value ← (expr table value).settled
    let more ← entries table rest
    return (key ++ between ++ value) :: more

end

mutual

/-- Renders a statement. -/
def stmt (table : TokenTable) : Stmt → Session String
  | .assign targets value => do
    let between ← require table (.assignment .assignKey)
    let texts ← exprs table targets
    let group ← groupTargets table texts
    let value ← (expr table value).settled
    return group ++ between ++ value
  | .expr value => expr table value
  | .returns none => returnKey table
  | .returns (some value) => do
    let key ← returnKey table
    let text ← (expr table value).settled
    return key ++ text
  | .functionDef definition => function table definition
  | .forEach target iter inner orelse => do
    let between ← require table (.flow .foreachSeparator)
    dropElse "for" orelse
    let target ← (expr table target).settled
    let iter ← (expr table iter).settled
    let (before, after) ← blockFrame table forEachTokens (target ++ between ++ iter)
    let text ← body table inner
    return before ++ text ++ after
  | .ifElse test inner orelse => do
    dropElse "if" orelse
    let test ← (expr table test).settled
    let (before, after) ← blockFrame table ifTokens test
    let text ← body table inner
    return before ++ text ++ after
  | .whileLoop test inner orelse => do
    dropElse "while" orelse
    let test ← (expr table test).settled
    let (before, after) ← blockFrame table whileTokens test
    let text ← body table inner
    return before ++ text ++ after
  | .other kind => throw (unsupportedConstruct kind)

/-- Renders a function. -/
def function (table : TokenTable) : FunctionDef → Session String
  | .mk name params inner => do
    let (before, after) ← functionFrame table name params
    let text ← body table inner
    return before ++ text ++ after

/-- Renders a body: a bare expression in first place is left out. -/
def body (table : TokenTable) : List Stmt → Session String
  | .expr _ :: rest => lines table rest
  | inner => lines table inner

/-- Renders statements, each on a line of its own. -/
def lines (table : TokenTable) : List Stmt → Session String
  | [] => return ""
  | first :: rest => do
    let text ← (stmt table first).settled
    let more ← lines table rest
    return "\n\t" ++ text ++ more

end

end Session

end Respell.Render
