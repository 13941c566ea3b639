import Respell.Reader.Basic
import Respell.Source.Grammar.Module
import Respell.Source.Literal

/-!
From concrete trees to syntax trees. Parentheses and comments go, runs of one boolean operator
become one node, and constructs without a shape of their own keep the name of their kind.
-/

set_option autoImplicit false

namespace Respell.Source

open Respell.Syntax (DictEntry Expr FunctionDef Keyword Module Stmt)

/-- Name under which trivia shows where a value is looked for. -/
def Trivia.kindName : Trivia → String
  | .comment => "comment"
  | .continuation => "line_continuation"

/-- The text that a string literal denotes; nothing if something is interpolated. -/
def Literal.value? (literal : Literal) : Option (List Char) :=
  if literal.interpolated then none
  else if literal.raw then some literal.body
  else some (unescape literal.body)

/-- The joined value of literals side by side. -/
def readStrings (first : Literal) (rest : List Literal) : Expr :=
  match (first :: rest).mapM Literal.value? with
  | some values => .constant (.str (String.ofList values.flatten))
  | none => .other "JoinedStr"

/-- A comparison whose operands and operators do not alternate. -/
def unpairedComparison : ReadError :=
  .parse "comparison_operator operands and operators do not pair up"

/-- A chain of assignments that ends in a type without a value. -/
def valuelessAssignment : ReadError := .parse "assignment missing right"

/-- What is read in the place of the first child among trivia: the trivia itself, comments
included. -/
def firstOf (leading : List Trivia) (value : Except ReadError Expr) : Except ReadError Expr :=
  match leading with
  | [] => value
  | kind :: _ => .ok (.other kind.kindName)

/-- What is read in parentheses: comments are passed over, a continuation is not. -/
def firstBut (leading : List Trivia) (value : Except ReadError Expr) : Except ReadError Expr :=
  if leading.contains .continuation then .ok (.other Trivia.continuation.kindName) else value

mutual

/-- The expression that a tree stands for. -/
def readExpr : Tree → Except ReadError Expr
  | .trivia kind => .ok (.other kind.kindName)
  | .name text => .ok (.name text)
  | .integer digits =>
    .ok (match readInteger digits with
      | some value => .constant (.int value)
      | none => .other "integer")
  | .float digits =>
    .ok (match readFloat digits with
      | some bits => .constant (.float bits)
      | none => .other "float")
  | .strings first rest => .ok (readStrings first rest)
  | .true => .ok (.constant (.bool true))
  | .false => .ok (.constant (.bool false))
  | .none => .ok (.constant .none)
  | .ellipsis => .ok (.constant .ellipsis)
  | .call func arguments => do
    let func ← readExpr func
    let (args, keywords) ← readArguments arguments
    return .call func args keywords
  | .generatorCall func => do
    let func ← readExpr func
    return .call func [.other "GeneratorExp"] []
  | .attribute object attr => do
    let value ← readExpr object
    return .attribute value attr
  | .subscript value index more => do
    let value ← readExpr value
    let first ← readExpr index
    let rest ← readExprs more
    return .subscript value (if rest.isEmpty then first else .tuple (first :: rest))
  | .binary left op right => do
    let left ← readExpr left
    let right ← readExpr right
    return .binaryOp left op right
  | .boolean left op right => do
    let values ← readRun op left
    let last ← readExpr right
    return .booleanOp op (values ++ [last])
  | .comparison first links => do
    let first ← readExpr first
    let (ops, operands) ← readLinks links
    if operands.length == ops.length then return .compare first ops operands
    else throw unpairedComparison
  | .list children => do
    let items ← readChildren children
    return .list items
  | .tuple children => do
    let items ← readChildren children
    return .tuple items
  | .dictionary entries => do
    let entries ← readEntries entries
    return .dict entries
  | .parenthesized leading inner _ =>
    firstBut leading (match inner with
      | .yield => .ok (.other "Yield")
      | inner => readExpr inner)
  | .parenthesizedSplat => .ok (.tuple [.other "Starred"])
  | .starred => .ok (.other "Starred")
  | .yield => .ok (.other "yield")
  | .aliased => .ok (.other "as_pattern")
  | .other kind => .ok (.other kind)

/-- The values of the left side of a boolean operator: those of a run of the same operator, unless
parentheses close it off. -/
def readRun (op : Syntax.BooleanOperator) : Tree → Except ReadError (List Expr)
  | .boolean left op' right => do
    let values ← readRun op' left
    let last ← readExpr right
    return if op' = op then values ++ [last] else [.booleanOp op' (values ++ [last])]
  | tree => do
    let value ← readExpr tree
    return [value]

/-- The expressions that trees stand for. -/
def readExprs : List Tree → Except ReadError (List Expr)
  | [] => .ok []
  | tree :: rest => do
    let first ← readExpr tree
    let more ← readExprs rest
    return first :: more

/-- The elements of a collection: comments are passed over. -/
def readChildren : List Tree → Except ReadError (List Expr)
  | [] => .ok []
  | .trivia .comment :: rest => readChildren rest
  | .parenthesizedSplat :: rest => do
    let more ← readChildren rest
    return .other "parenthesized_list_splat" :: more
  | tree :: rest => do
    let first ← readExpr tree
    let more ← readChildren rest
    return first :: more

/-- Positional and named arguments: comments are passed over. -/
def readArguments : List Argument → Except ReadError (List Expr × List Keyword)
  | [] => .ok ([], [])
  | .positional (.trivia .comment) :: rest => readArguments rest
  | .positional .parenthesizedSplat :: rest => do
    let (args, keywords) ← readArguments rest
    return (.other "Starred" :: args, keywords)
  | .positional tree :: rest => do
    let value ← readExpr tree
    let (args, keywords) ← readArguments rest
    return (value :: args, keywords)
  | .keyword name tree :: rest => do
    let value ← readExpr tree
    let (args, keywords) ← readArguments rest
    return (args, .named name value :: keywords)
  | .spread leading tree :: rest => do
    let value ← firstOf leading (readExpr tree)
    let (args, keywords) ← readArguments rest
    return (args, .spread value :: keywords)

/-- Operators and operands of a comparison: comments are passed over, a continuation counts as an
operand. -/
def readLinks : List Link → Except ReadError (List Syntax.CompareOperator × List Expr)
  | [] => .ok ([], [])
  | .trivia .comment :: rest => readLinks rest
  | .trivia kind :: rest => do
    let (ops, operands) ← readLinks rest
    return (ops, .other kind.kindName :: operands)
  | .step op tree :: rest => do
    let operand ← readExpr tree
    let (ops, operands) ← readLinks rest
    return (op :: ops, operand :: operands)

/-- Entries of a dictionary. -/
def readEntries : List Entry → Except ReadError (List DictEntry)
  | [] => .ok []
  | .pair key value :: rest => do
    let key ← readExpr key
    let value ← readExpr value
    let more ← readEntries rest
    return .keyed key value :: more
  | .spread leading tree :: rest => do
    let value ← firstOf leading (readExpr tree)
    let more ← readEntries rest
    return .spread value :: more

end

/-- A value in a place of its own, where a yield goes by its construct's name. -/
def readValue : Tree → Except ReadError Expr
  | .yield => .ok (.other "Yield")
  | tree => readExpr tree

/-- Positional parameters: those with a name, up to the first that collects the rest. -/
def readParameters : List Parameter → List String
  | [] => []
  | .named text :: rest => text :: readParameters rest
  | .variadic :: _ => []
  | .unnamed :: rest => readParameters rest

mutual

/-- The statement that a tree stands for; none for a comment. -/
def readStmt : Statement → Except ReadError (Option Stmt)
  | .trivia .comment => .ok none
  | .trivia kind => .ok (some (.other kind.kindName))
  | .expression .aliased => .ok (some (.other "as_pattern"))
  | .expression tree => do
    let value ← readValue tree
    return some (.expr value)
  | .assignment first annotated more value =>
    if annotated then .ok (some (.other "AnnAssign"))
    else do
      let first ← readExpr first
      let targets ← readExprs more
      match value with
      | some tree =>
        let value ← readValue tree
        return some (.assign (first :: targets) value)
      | none => throw valuelessAssignment
  | .returns _ none => .ok (some (.returns none))
  | .returns leading (some tree) => do
    let value ← firstOf leading (readExpr tree)
    return some (.returns (some value))
  | .definition _ defined => do
    let statement ← readDefinition defined
    return some statement
  | .forEach isAsync target iter body orelse =>
    if isAsync then .ok (some (.other "AsyncFor"))
    else do
      let target ← readExpr target
      let iter ← readExpr iter
      let body ← readStmts body
      let orelse ← readStmts orelse
      return some (.forEach target iter body orelse)
  | .ifElse test body alternative => do
    let test ← readExpr test
    let body ← readStmts body
    let orelse ← readAlternative alternative
    return some (.ifElse test body orelse)
  | .whileLoop test body orelse => do
    let test ← readExpr test
    let body ← readStmts body
    let orelse ← readStmts orelse
    return some (.whileLoop test body orelse)
  | .imports _ => .ok (some (.other "Import"))
  | .importsFrom _ _ => .ok (some (.other "ImportFrom"))
  | .other kind => .ok (some (.other kind))

/-- The statement that a definition stands for. -/
def readDefinition : Definition → Except ReadError Stmt
  | .function isAsync name parameters body =>
    if isAsync then .ok (.other "AsyncFunctionDef")
    else do
      let body ← readStmts body
      return .functionDef (.mk name (readParameters parameters) body)
  | .klass _ => .ok (.other "ClassDef")

/-- A conditional's alternatives nest: each further test is the only statement of a branch. -/
def readAlternative : Alternative → Except ReadError (List Stmt)
  | .none => .ok []
  | .elseIf test body alternative => do
    let test ← readExpr test
    let body ← readStmts body
    let orelse ← readAlternative alternative
    return [.ifElse test body orelse]
  | .otherwise body => readStmts body

/-- The statements that trees stand for. -/
def readStmts : List Statement → Except ReadError (List Stmt)
  | [] => .ok []
  | tree :: rest => do
    let first ← readStmt tree
    let more ← readStmts rest
    return first.toList ++ more

end

/-- The statements of a source text, or that it is not well formed. -/
def parse (source : String) : Except ReadError (List Statement) :=
  match parse? source with
  | some statements => .ok statements
  | none => .error (.parse "syntax error in source")

/-- Reads a source text. -/
def read (source : String) : Except ReadError Module := do
  let statements ← parse source
  let body ← readStmts statements
  return ⟨body⟩

end Respell.Source
