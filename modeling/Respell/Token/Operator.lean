import Respell.Syntax.Operator
import Respell.Text.LetterCase
import Respell.Token.Name

/-!
Tokens of operators. The token of a binary operator is its tag in snake case; comparisons and
boolean operators have names of their own.
-/

set_option autoImplicit false

namespace Respell

open Syntax (BinaryOperator BooleanOperator CompareOperator)

/-- Lower case with an underscore before every upper case letter but the first. -/
def snakeCase (tag : String) : String :=
  match tag.toList with
  | [] => ""
  | c :: rest => String.ofList (Text.toLower c ++ rest.flatMap fun c =>
      if Text.isUpper c then '_' :: Text.toLower c else Text.toLower c)

namespace OperatorToken

/-- Token of a binary operator. -/
def ofBinary : BinaryOperator → OperatorToken
  | .add => add
  | .sub => sub
  | .mult => mult
  | .matMult => matMult
  | .div => div
  | .mod => mod
  | .pow => pow
  | .lShift => lShift
  | .rShift => rShift
  | .bitOr => bitOr
  | .bitXor => bitXor
  | .bitAnd => bitAnd
  | .floorDiv => floorDiv

/-- Token of a comparison. -/
def ofCompare : CompareOperator → OperatorToken
  | .eq => equal
  | .notEq => notEqual
  | .lt => lowerThan
  | .ltE => lowerThanEqual
  | .gt => greaterThan
  | .gtE => greaterThanEqual
  | .is => isOp
  | .isNot => isNotOp
  | .in => inOp
  | .notIn => notInOp

/-- Token of a boolean operator. -/
def ofBoolean : BooleanOperator → OperatorToken
  | .and => andOp
  | .or => orOp

/-- Whether a token is that of a binary operator. -/
def isBinary (token : OperatorToken) : Bool := (BinaryOperator.all.map ofBinary).contains token

/-- Token of the binary operator with a tag: the one named by the tag in snake case. -/
def ofBinaryTag? (tag : String) : Option OperatorToken :=
  (ofKey? (snakeCase tag)).filter isBinary

/-- Token of the comparison with a tag. -/
def ofCompareTag? (tag : String) : Option OperatorToken :=
  (CompareOperator.ofTag? tag).map ofCompare

/-- Token of the boolean operator with a tag. -/
def ofBooleanTag? (tag : String) : Option OperatorToken :=
  (BooleanOperator.ofTag? tag).map ofBoolean

end OperatorToken

end Respell
