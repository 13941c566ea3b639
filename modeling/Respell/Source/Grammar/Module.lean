import Respell.Source.Grammar.Statement

/-!
The rules of the grammar, and whole source texts.
-/

set_option autoImplicit false

namespace Respell.Source

/-- Uses a rule at a lexeme; `calls` uses the rules inside it. -/
def Rule.use (calls : (rule : Rule) → Lexeme → Outcome rule.Result) :
    (rule : Rule) → Lexeme → Outcome rule.Result
  | expression rank expect => (Grammar.expressionBody rank expect).run calls
  | afterName rank expect name => (Grammar.afterNameBody rank expect name).run calls
  | atom expect => (Grammar.atomBody expect).run calls
  | iterable => Grammar.iterableBody.run calls
  | typeHint constrained expect => (Grammar.typeHintBody constrained expect).run calls
  | pattern expect => (Grammar.patternBody expect).run calls
  | alternatives expect => (Grammar.alternativesBody expect).run calls
  | assigned => Grammar.assignedBody.run calls
  | literal expect => Grammar.literalBody (calls .interpolated) expect
  | interpolated => Grammar.interpolatedBody.run calls
  | suite => Grammar.suiteBody.run calls

/-- Whether a rule may be used at a lexeme inside the use of another one at another lexeme. -/
def Rule.Inside (inner : Rule) (place : Lexeme) (outer : Rule) (start : Lexeme) : Prop :=
  place.start.length < start.start.length ∨
    (place.start.length = start.start.length ∧ inner.height < outer.height)

instance (inner : Rule) (place : Lexeme) (outer : Rule) (start : Lexeme) :
    Decidable (inner.Inside place outer start) := by
  unfold Rule.Inside
  infer_instance

/-- Uses a rule at a lexeme. -/
def Rule.read (rule : Rule) (lexeme : Lexeme) : Outcome rule.Result :=
  rule.use (fun inner place =>
    if inner.Inside place rule lexeme then inner.read place else ⟨none, place⟩) lexeme
termination_by (lexeme.start.length, rule.height)
decreasing_by
  rename_i inside
  rcases inside with shorter | ⟨same, lower⟩
  · exact Prod.Lex.left _ _ shorter
  · rw [same]
    exact Prod.Lex.right _ lower

/-- A text without the byte order mark that it may start with. -/
def withoutOrderMark : List Char → List Char
  | '\ufeff' :: rest => rest
  | text => text

/-- The statements of a source text; nothing if it is not well formed. -/
def parse? (source : String) : Option (List Statement) :=
  let first := (Input.mk (withoutOrderMark source.toList) [] false).next .operand
  let ⟨read, last⟩ := (Grammar.statements true).run Rule.read first
  if last.token == .stop then read else none

end Respell.Source
