import Respell.Syntax.Operator

/-!
Concrete trees of Python source. They keep what a parse shows and the syntax tree drops:
parentheses, comments and line continuations, the annotation of a target, the written text of
literals and definitions. Constructs whose parts nobody looks at are kept by the name of their
kind alone.
-/

set_option autoImplicit false

namespace Respell.Source

open Respell.Syntax (BinaryOperator BooleanOperator CompareOperator)

/-- What may stand between any two tokens and is kept. -/
inductive Trivia
  | comment
  | continuation
  deriving DecidableEq

/-- One string literal: whether its escapes are left alone, its body as written, and whether an
expression is interpolated into it. -/
structure Literal where
  /-- Backslashes stand for themselves. -/
  raw : Bool
  /-- Text between the quotes. -/
  body : List Char
  /-- The body holds an interpolated expression. -/
  interpolated : Bool
  deriving DecidableEq

mutual

/-- Expressions, targets, and the trivia among their children. -/
inductive Tree
  | trivia (kind : Trivia)
  | name (text : String)
  | integer (digits : List Char)
  | float (digits : List Char)
  | strings (first : Literal) (rest : List Literal)
  | true
  | false
  | none
  | ellipsis
  | call (func : Tree) (arguments : List Argument)
  | generatorCall (func : Tree)
  | attribute (object : Tree) (attr : String)
  | subscript (value : Tree) (index : Tree) (more : List Tree)
  | binary (left : Tree) (op : BinaryOperator) (right : Tree)
  | boolean (left : Tree) (op : BooleanOperator) (right : Tree)
  | comparison (first : Tree) (links : List Link)
  | list (children : List Tree)
  | tuple (children : List Tree)
  | dictionary (entries : List Entry)
  | parenthesized (leading : List Trivia) (inner : Tree) (trailing : List Trivia)
  | parenthesizedSplat
  | starred
  | yield
  | aliased
  | other (kind : String)

/-- A child of an argument list. -/
inductive Argument
  | positional (value : Tree)
  | keyword (name : String) (value : Tree)
  | spread (leading : List Trivia) (value : Tree)

/-- A child of a comparison after its first operand. -/
inductive Link
  | trivia (kind : Trivia)
  | step (op : CompareOperator) (operand : Tree)

/-- An entry of a dictionary display. -/
inductive Entry
  | pair (key : Tree) (value : Tree)
  | spread (leading : List Trivia) (value : Tree)

end

/-- A parameter of a function: one with a name, the start of those that are not positional, or one
that binds no single name. -/
inductive Parameter
  | named (text : String)
  | variadic
  | unnamed
  deriving DecidableEq

/-- A name in an import list, as written. -/
inductive Imported
  | plain (path : String)
  | aliased (path : String) (name : String)
  deriving DecidableEq

mutual

/-- Statements, and the trivia among them. -/
inductive Statement
  | trivia (kind : Trivia)
  | expression (value : Tree)
  /-- `first = more₁ = more₂ = … = value`; only the last link may lack a value, and only if
  annotated. -/
  | assignment (first : Tree) (annotated : Bool) (more : List Tree) (value : Option Tree)
  | returns (leading : List Trivia) (value : Option Tree)
  | definition (text : String) (defined : Definition)
  | forEach (isAsync : Bool) (target : Tree) (iter : Tree) (body : List Statement)
      (orelse : List Statement)
  | ifElse (test : Tree) (body : List Statement) (alternative : Alternative)
  | whileLoop (test : Tree) (body : List Statement) (orelse : List Statement)
  | imports (names : List Imported)
  | importsFrom (package : String) (names : List Imported)
  | other (kind : String)

/-- What a definition defines. -/
inductive Definition
  | function (isAsync : Bool) (name : String) (parameters : List Parameter) (body : List Statement)
  | klass (name : String)

/-- What follows the first branch of a conditional. -/
inductive Alternative
  | none
  | elseIf (test : Tree) (body : List Statement) (alternative : Alternative)
  | otherwise (body : List Statement)

end

end Respell.Source
