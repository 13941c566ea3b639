import Respell.Syntax.Operator

/-!
The syntax tree that every source text is read into and every rendering starts from. Constructs
without a shape of their own are kept by the name of their kind, so that a renderer can report them.
-/

set_option autoImplicit false

namespace Respell.Syntax

/-- Literal values. A float is its 64-bit pattern. -/
inductive Constant
  | none
  | bool (value : Bool)
  | int (value : Int64)
  | float (bits : UInt64)
  | str (text : String)
  | ellipsis
  deriving DecidableEq

mutual

/-- Expressions. -/
inductive Expr
  | call (func : Expr) (args : List Expr) (keywords : List Keyword)
  | name (text : String)
  | constant (value : Constant)
  | attribute (value : Expr) (attr : String)
  | binaryOp (left : Expr) (op : BinaryOperator) (right : Expr)
  | booleanOp (op : BooleanOperator) (values : List Expr)
  | compare (left : Expr) (ops : List CompareOperator) (comparators : List Expr)
  | subscript (value : Expr) (index : Expr)
  | dict (entries : List DictEntry)
  | list (items : List Expr)
  | tuple (items : List Expr)
  | other (kind : String)

/-- An argument passed by name, or a mapping spread into the named arguments. -/
inductive Keyword
  | named (arg : String) (value : Expr)
  | spread (value : Expr)

/-- An entry of a dictionary, or a mapping spread into it. -/
inductive DictEntry
  | keyed (key : Expr) (value : Expr)
  | spread (value : Expr)

end

mutual

/-- Statements. -/
inductive Stmt
  | assign (targets : List Expr) (value : Expr)
  | expr (value : Expr)
  | returns (value : Option Expr)
  | functionDef (definition : FunctionDef)
  | forEach (target : Expr) (iter : Expr) (body : List Stmt) (orelse : List Stmt)
  | ifElse (test : Expr) (body : List Stmt) (orelse : List Stmt)
  | whileLoop (test : Expr) (body : List Stmt) (orelse : List Stmt)
  | other (kind : String)

/-- A function: its name, its positional parameters and its body. -/
inductive FunctionDef
  | mk (name : String) (params : List String) (body : List Stmt)

end

/-- A whole source file. -/
structure Module where
  /-- Top-level statements in order. -/
  body : List Stmt

/-- Name under which an argument is passed, if it has one. -/
def Keyword.arg? : Keyword → Option String
  | .named arg _ => some arg
  | .spread _ => none

/-- Value of a named argument. -/
def Keyword.value : Keyword → Expr
  | .named _ value => value
  | .spread value => value

/-- Key of a dictionary entry, if it has one. -/
def DictEntry.key? : DictEntry → Option Expr
  | .keyed key _ => some key
  | .spread _ => none

/-- Value of a dictionary entry. -/
def DictEntry.value : DictEntry → Expr
  | .keyed _ value => value
  | .spread value => value

namespace FunctionDef

/-- Name of the function. -/
def name : FunctionDef → String
  | .mk name _ _ => name

/-- Positional parameters of the function. -/
def params : FunctionDef → List String
  | .mk _ params _ => params

/-- Statements of the function. -/
def body : FunctionDef → List Stmt
  | .mk _ _ body => body

end FunctionDef

/-- Name of an expression's kind, as diagnostics and errors give it. -/
def Expr.kindName : Expr → String
  | .call .. => "Call"
  | .name .. => "Name"
  | .constant .. => "Constant"
  | .attribute .. => "Attribute"
  | .binaryOp .. => "BinOp"
  | .booleanOp .. => "BoolOp"
  | .compare .. => "Compare"
  | .subscript .. => "Subscript"
  | .dict .. => "Dict"
  | .list .. => "List"
  | .tuple .. => "Tuple"
  | .other kind => kind

/-- Name of a statement's kind, as diagnostics and errors give it. -/
def Stmt.kindName : Stmt → String
  | .assign .. => "Assign"
  | .expr .. => "Expr"
  | .returns .. => "Return"
  | .functionDef .. => "FunctionDef"
  | .forEach .. => "For"
  | .ifElse .. => "If"
  | .whileLoop .. => "While"
  | .other kind => kind

namespace Expr

/-- A call with positional arguments only. -/
def positionalCall (func : Expr) (args : List Expr) : Expr := .call func args []

/-- A comparison of two operands. -/
def comparison (left : Expr) (op : CompareOperator) (right : Expr) : Expr :=
  .compare left [op] [right]

/-- A dictionary from pairs; a pair without a key spreads its value. -/
def dictOfPairs (pairs : List (Option Expr × Expr)) : Expr :=
  .dict (pairs.map fun
    | (some key, value) => .keyed key value
    | (none, value) => .spread value)

end Expr

namespace Stmt

/-- A loop over a sequence without an alternative. -/
def plainFor (target iter : Expr) (body : List Stmt) : Stmt := .forEach target iter body []

/-- A conditional without an alternative. -/
def plainIf (test : Expr) (body : List Stmt) : Stmt := .ifElse test body []

/-- A loop on a condition without an alternative. -/
def plainWhile (test : Expr) (body : List Stmt) : Stmt := .whileLoop test body []

end Stmt

end Respell.Syntax
