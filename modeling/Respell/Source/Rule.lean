import Respell.Source.Layout
import Respell.Source.Tree

/-!
The rules of the grammar that are used inside one another, what each of them reads, and how strongly
operators bind.
-/

set_option autoImplicit false

namespace Respell.Source

namespace Rank

/-- Any expression. -/
def any : Nat := 0

/-- Conditional expressions. -/
def conditional : Nat := 1

/-- Aliases, and everything stronger. -/
def aliased : Nat := 2

/-- Disjunctions. -/
def disjunction : Nat := 10

/-- Conjunctions. -/
def conjunction : Nat := 11

/-- Negations. -/
def negation : Nat := 12

/-- Comparisons. -/
def comparison : Nat := 13

/-- Operands of comparisons and everything stronger: no lambda, negation or named expression. -/
def primary : Nat := 14

/-- Operands of signs and of `await`. -/
def power : Nat := 21

/-- Names, literals, brackets and what trails them. -/
def trailer : Nat := 22

end Rank

/-- A chain of assignments: its targets, whether the first is annotated, and its value. -/
structure Chain where
  /-- First target. -/
  first : Tree
  /-- The first target has a type. -/
  annotated : Bool
  /-- Further targets. -/
  more : List Tree
  /-- Value, unless the last target has only a type. -/
  value : Option Tree

/-- What stands on the right of an assignment: a value, or another assignment. -/
inductive Assigned
  /-- A value; the flag tells several expressions without brackets. -/
  | value (tree : Tree) (bare : Bool)
  | chain (links : Chain)
  | augmented

/-- Puts a target in front of what is assigned to it. -/
def Assigned.under (target : Tree) (annotated : Bool) : Assigned → Chain
  | .value tree _ => ⟨target, annotated, [], some tree⟩
  | .augmented => ⟨target, annotated, [], some (.other "augmented_assignment")⟩
  | .chain links => ⟨target, annotated, links.first :: links.more, links.value⟩

/-- The rules that are used from inside one another. -/
inductive Rule
  /-- An expression whose loosest operator is at least of a rank. -/
  | expression (rank : Nat) (expect : Expect)
  /-- The rest of an expression that starts with a name, after that name. -/
  | afterName (rank : Nat) (expect : Expect) (name : String)
  /-- A name, a literal, a display, or a star with what it stars. -/
  | atom (expect : Expect)
  /-- An expression iterated over in a comprehension, where `if` starts a filter. -/
  | iterable
  /-- A type; the flag allows a constraint after a colon. -/
  | typeHint (constrained : Bool) (expect : Expect)
  /-- A pattern of a `case` clause. -/
  | pattern (expect : Expect)
  /-- A pattern with alternatives but without a name for what it matches. -/
  | alternatives (expect : Expect)
  /-- An expression, expressions, or an assignment to them. -/
  | assigned
  /-- One string literal. -/
  | literal (expect : Expect)
  /-- What stands in braces in a format string, up to the brace or the colon after it. -/
  | interpolated
  /-- The body of a compound statement from its colon on, with the end of its line or block. -/
  | suite

namespace Rule

/-- What a rule reads. -/
abbrev Result : Rule → Type
  | expression _ _ | afterName _ _ _ | atom _ | iterable => Tree
  | typeHint _ _ | pattern _ | alternatives _ | interpolated => Unit
  | assigned => Assigned
  | literal _ => Literal
  | suite => List Statement

/-- Height of a rule: where a rule uses another one before it has passed a token, that one is lower.
-/
def height : Rule → Nat
  | literal _ => 0
  | atom _ => 1
  | expression _ _ => 2
  | alternatives _ => 2
  | afterName _ _ _ => 3
  | iterable => 3
  | typeHint _ _ => 3
  | pattern _ => 3
  | interpolated => 3
  | assigned => 3
  | suite => 4

end Rule

end Respell.Source
