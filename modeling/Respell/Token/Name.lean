/-!
Names of tokens: six categories, each a fixed list of names.
-/

set_option autoImplicit false

namespace Respell

/-- Tokens of function definitions, calls and returns. -/
inductive FunctionToken
  | defineKey | returnKey | argumentSeparator | openBody | closeBody
  deriving DecidableEq

namespace FunctionToken

/-- Every token of the category, in order. -/
def all : List FunctionToken :=
  [defineKey, returnKey, argumentSeparator, openBody, closeBody]

/-- Name of the token in a table. -/
def key : FunctionToken → String
  | defineKey => "define_key"
  | returnKey => "return_key"
  | argumentSeparator => "argument_separator"
  | openBody => "open_body"
  | closeBody => "close_body"

end FunctionToken

/-- Tokens of assignments. -/
inductive AssignmentToken
  | assignKey | multipleAssignBegin | multipleAssignEnd | multipleAssignJoin
  deriving DecidableEq

namespace AssignmentToken

/-- Every token of the category, in order. -/
def all : List AssignmentToken :=
  [assignKey, multipleAssignBegin, multipleAssignEnd, multipleAssignJoin]

/-- Name of the token in a table. -/
def key : AssignmentToken → String
  | assignKey => "assign_key"
  | multipleAssignBegin => "multiple_assign_begin"
  | multipleAssignEnd => "multiple_assign_end"
  | multipleAssignJoin => "multiple_assign_join"

end AssignmentToken

/-- Tokens of binary, boolean and comparison operators. -/
inductive OperatorToken
  | add | sub | mult | matMult | div | mod | pow | lShift | rShift | bitOr | bitXor | bitAnd
  | floorDiv | andOp | orOp | equal | notEqual | lowerThan | lowerThanEqual | greaterThan
  | greaterThanEqual | isOp | isNotOp | inOp | notInOp
  deriving DecidableEq

namespace OperatorToken

/-- Every token of the category, in order. -/
def all : List OperatorToken :=
  [add, sub, mult, matMult, div, mod, pow, lShift, rShift, bitOr, bitXor, bitAnd, floorDiv, andOp,
  orOp, equal, notEqual, lowerThan, lowerThanEqual, greaterThan, greaterThanEqual, isOp, isNotOp,
  inOp, notInOp]

/-- Name of the token in a table. -/
def key : OperatorToken → String
  | add => "add"
  | sub => "sub"
  | mult => "mult"
  | matMult => "mat_mult"
  | div => "div"
  | mod => "mod"
  | pow => "pow"
  | lShift => "l_shift"
  | rShift => "r_shift"
  | bitOr => "bit_or"
  | bitXor => "bit_xor"
  | bitAnd => "bit_and"
  | floorDiv => "floor_div"
  | andOp => "and_op"
  | orOp => "or_op"
  | equal => "equal"
  | notEqual => "not_equal"
  | lowerThan => "lower_than"
  | lowerThanEqual => "lower_than_equal"
  | greaterThan => "greater_than"
  | greaterThanEqual => "greater_than_equal"
  | isOp => "is_op"
  | isNotOp => "is_not_op"
  | inOp => "in_op"
  | notInOp => "not_in_op"

/-- The token with a given name. -/
def ofKey? (key : String) : Option OperatorToken := all.find? fun token => token.key == key

end OperatorToken

/-- Tokens of attributes and subscripts. -/
inductive AccessToken
  | subscriptOpen | subscriptClose | attribute
  deriving DecidableEq

namespace AccessToken

/-- Every token of the category, in order. -/
def all : List AccessToken :=
  [subscriptOpen, subscriptClose, .attribute]

/-- Name of the token in a table. -/
def key : AccessToken → String
  | subscriptOpen => "subscript_open"
  | subscriptClose => "subscript_close"
  | .attribute => "attribute"

end AccessToken

/-- Tokens of displays, and spellings of constants. -/
inductive LiteralToken
  | listBegin | listEnd | listJoin | tupleBegin | tupleEnd | tupleJoin | dictBegin | dictEnd
  | dictJoin | dictAssign | trueLiteral | falseLiteral | nullLiteral | stringBegin | stringEnd
  deriving DecidableEq

namespace LiteralToken

/-- Every token of the category, in order. -/
def all : List LiteralToken :=
  [listBegin, listEnd, listJoin, tupleBegin, tupleEnd, tupleJoin, dictBegin, dictEnd, dictJoin,
  dictAssign, trueLiteral, falseLiteral, nullLiteral, stringBegin, stringEnd]

/-- Name of the token in a table. -/
def key : LiteralToken → String
  | listBegin => "list_begin"
  | listEnd => "list_end"
  | listJoin => "list_join"
  | tupleBegin => "tuple_begin"
  | tupleEnd => "tuple_end"
  | tupleJoin => "tuple_join"
  | dictBegin => "dict_begin"
  | dictEnd => "dict_end"
  | dictJoin => "dict_join"
  | dictAssign => "dict_assign"
  | trueLiteral => "true_literal"
  | falseLiteral => "false_literal"
  | nullLiteral => "null_literal"
  | stringBegin => "string_begin"
  | stringEnd => "string_end"

end LiteralToken

/-- Tokens of control flow. The return key stands in for that of functions. -/
inductive FlowToken
  | whileKey | whileBegin | whileEnd | whileOpenBody | whileCloseBody | ifKey | ifBegin | ifEnd
  | ifOpenBody | ifCloseBody | foreachKey | foreachBegin | foreachEnd | foreachOpenBody
  | foreachCloseBody | foreachSeparator | returnKey
  deriving DecidableEq

namespace FlowToken

/-- Every token of the category, in order. -/
def all : List FlowToken :=
  [whileKey, whileBegin, whileEnd, whileOpenBody, whileCloseBody, ifKey, ifBegin, ifEnd,
  ifOpenBody, ifCloseBody, foreachKey, foreachBegin, foreachEnd, foreachOpenBody,
  foreachCloseBody, foreachSeparator, returnKey]

/-- Name of the token in a table. -/
def key : FlowToken → String
  | whileKey => "while_key"
  | whileBegin => "while_begin"
  | whileEnd => "while_end"
  | whileOpenBody => "while_open_body"
  | whileCloseBody => "while_close_body"
  | ifKey => "if_key"
  | ifBegin => "if_begin"
  | ifEnd => "if_end"
  | ifOpenBody => "if_open_body"
  | ifCloseBody => "if_close_body"
  | foreachKey => "foreach_key"
  | foreachBegin => "foreach_begin"
  | foreachEnd => "foreach_end"
  | foreachOpenBody => "foreach_open_body"
  | foreachCloseBody => "foreach_close_body"
  | foreachSeparator => "foreach_separator"
  | returnKey => "return_key"

end FlowToken

/-- Categories of tokens. -/
inductive Category
  | function | assignment | operator | access | literals | flow
  deriving DecidableEq

namespace Category

/-- Every category, in order. -/
def all : List Category := [function, assignment, operator, access, literals, flow]

/-- Name of the category in a table. -/
def key : Category → String
  | function => "function"
  | assignment => "assignment"
  | operator => "operator"
  | access => "access"
  | literals => "literals"
  | flow => "flow"

/-- The category with a given name; assignments have a second spelling. -/
def ofKey? (key : String) : Option Category :=
  if key == "assignement" then some assignment else all.find? fun category => category.key == key

end Category

/-- A token of any category. -/
inductive Token
  | function (token : FunctionToken)
  | assignment (token : AssignmentToken)
  | operator (token : OperatorToken)
  | access (token : AccessToken)
  | literal (token : LiteralToken)
  | flow (token : FlowToken)
  deriving DecidableEq

namespace Token

/-- Category of a token. -/
def category : Token → Category
  | function _ => .function
  | assignment _ => .assignment
  | operator _ => .operator
  | access _ => .access
  | literal _ => .literals
  | flow _ => .flow

/-- Name of a token within its category. -/
def key : Token → String
  | function token => token.key
  | assignment token => token.key
  | operator token => token.key
  | access token => token.key
  | literal token => token.key
  | flow token => token.key

/-- Name of a token with its category. -/
def qualified (token : Token) : String := token.category.key ++ "." ++ token.key

end Token

/-- Every token of a category, in order. -/
def Category.tokens : Category → List Token
  | function => FunctionToken.all.map .function
  | assignment => AssignmentToken.all.map .assignment
  | operator => OperatorToken.all.map .operator
  | access => AccessToken.all.map .access
  | literals => LiteralToken.all.map .literal
  | flow => FlowToken.all.map .flow

/-- The token of a category with a given name. -/
def Category.token? (category : Category) (key : String) : Option Token :=
  category.tokens.find? fun token => token.key == key

/-- Every token, by category and in order. -/
def Token.all : List Token := Category.all.flatMap Category.tokens

end Respell
