/-!
Operators of the syntax tree: each has a tag, its name in the tree, and the symbols that spell it
in source text.
-/

set_option autoImplicit false

namespace Respell.Syntax

/-- Arithmetic and bitwise operators. -/
inductive BinaryOperator
  | add | sub | mult | matMult | div | mod | pow | lShift | rShift | bitOr | bitXor | bitAnd
  | floorDiv
  deriving DecidableEq

namespace BinaryOperator

/-- Every binary operator, in declaration order. -/
def all : List BinaryOperator :=
  [add, sub, mult, matMult, div, mod, pow, lShift, rShift, bitOr, bitXor, bitAnd, floorDiv]

/-- Name of the operator in the tree. -/
def tag : BinaryOperator → String
  | add => "Add"
  | sub => "Sub"
  | mult => "Mult"
  | matMult => "MatMult"
  | div => "Div"
  | mod => "Mod"
  | pow => "Pow"
  | lShift => "LShift"
  | rShift => "RShift"
  | bitOr => "BitOr"
  | bitXor => "BitXor"
  | bitAnd => "BitAnd"
  | floorDiv => "FloorDiv"

/-- Spelling of the operator in source text. -/
def symbol : BinaryOperator → String
  | add => "+"
  | sub => "-"
  | mult => "*"
  | matMult => "@"
  | div => "/"
  | mod => "%"
  | pow => "**"
  | lShift => "<<"
  | rShift => ">>"
  | bitOr => "|"
  | bitXor => "^"
  | bitAnd => "&"
  | floorDiv => "//"

/-- The operator with a given tag. -/
def ofTag? (tag : String) : Option BinaryOperator :=
  all.find? fun op => op.tag == tag

/-- The operator that a symbol spells. -/
def ofSymbol? (symbol : String) : Option BinaryOperator :=
  all.find? fun op => op.symbol == symbol

end BinaryOperator

/-- Short-circuit operators. -/
inductive BooleanOperator
  | and | or
  deriving DecidableEq

namespace BooleanOperator

/-- Every boolean operator, in declaration order. -/
def all : List BooleanOperator := [and, or]

/-- Name of the operator in the tree. -/
def tag : BooleanOperator → String
  | and => "And"
  | or => "Or"

/-- Spelling of the operator in source text. -/
def symbol : BooleanOperator → String
  | and => "and"
  | or => "or"

/-- The operator with a given tag. -/
def ofTag? (tag : String) : Option BooleanOperator :=
  all.find? fun op => op.tag == tag

/-- The operator that a symbol spells. -/
def ofSymbol? (symbol : String) : Option BooleanOperator :=
  all.find? fun op => op.symbol == symbol

end BooleanOperator

/-- Comparison operators. -/
inductive CompareOperator
  | eq | notEq | lt | ltE | gt | gtE | is | isNot | in | notIn
  deriving DecidableEq

namespace CompareOperator

/-- Every comparison operator, in declaration order. -/
def all : List CompareOperator := [eq, notEq, lt, ltE, gt, gtE, is, isNot, .in, notIn]

/-- Name of the operator in the tree. -/
def tag : CompareOperator → String
  | eq => "Eq"
  | notEq => "NotEq"
  | lt => "Lt"
  | ltE => "LtE"
  | gt => "Gt"
  | gtE => "GtE"
  | is => "Is"
  | isNot => "IsNot"
  | .in => "In"
  | notIn => "NotIn"

/-- Spellings of the operator in source text; inequality has two. -/
def symbols : CompareOperator → List String
  | eq => ["=="]
  | notEq => ["!=", "<>"]
  | lt => ["<"]
  | ltE => ["<="]
  | gt => [">"]
  | gtE => [">="]
  | is => ["is"]
  | isNot => ["is not"]
  | .in => ["in"]
  | notIn => ["not in"]

/-- The operator with a given tag. -/
def ofTag? (tag : String) : Option CompareOperator :=
  all.find? fun op => op.tag == tag

/-- The operator that a symbol spells. -/
def ofSymbol? (symbol : String) : Option CompareOperator :=
  all.find? fun op => op.symbols.contains symbol

end CompareOperator

end Respell.Syntax
