import Respell.Proofs.Parts
import Respell.Proofs.Reparsing

/-!
Texts that are one atom. A numeral, or strings side by side, that ends where the text ends is parsed
as a statement of its own: no operator, trailer or assignment follows it. A text that is one numeral
is such a text.
-/

set_option autoImplicit false

namespace Respell.Source

open Respell.Syntax (Expr Stmt)

/-- A token that starts a literal. -/
inductive Token.StartsLiteral : Token → Prop
  | quote (opened : Quote) : StartsLiteral (.quote opened)
  | numeral (kind : NumeralKind) (text : List Char) : StartsLiteral (.numeral kind text)

theorem Parser.run_loop_done {σ α : Type} {calls : (rule : Rule) → Lexeme → Outcome rule.Result}
    {step : σ → Parser (Turn σ α)} {state : σ} {value : α} {lexeme rest : Lexeme}
    (stops : (step state).run calls lexeme = ⟨some (.done value), rest⟩) :
    (Parser.loop step state).run calls lexeme = ⟨some value, rest⟩ := by
  rw [run, iterate, stops]

theorem Parser.run_loop_again {σ α : Type}
    {calls : (rule : Rule) → Lexeme → Outcome rule.Result} {step : σ → Parser (Turn σ α)}
    {state next : σ} {lexeme rest : Lexeme}
    (goes : (step state).run calls lexeme = ⟨some (.again next), rest⟩)
    (further : rest.start.length < lexeme.start.length) :
    (Parser.loop step state).run calls lexeme = (Parser.loop step next).run calls rest := by
  rw [run, iterate, goes]
  dsimp only
  rw [if_pos further, run]

/-- A rule is used at the very place of a higher one. -/
theorem Rule.inner_of_lower {outer rule : Rule} (lower : rule.height < outer.height)
    (place : Lexeme) : outer.inner place rule place = rule.read place := by
  rw [Rule.inner, if_pos (.inr ⟨rfl, lower⟩)]

namespace Grammar

variable {first last : Lexeme} {tree : Tree}

section

variable {calls : (rule : Rule) → Lexeme → Outcome rule.Result} (ends : last.token = .newline)
include ends

theorem run_trailers_newline (expect : Expect) :
    (trailers expect tree).run calls last = ⟨some tree, last⟩ := by
  refine Parser.run_loop_done ?_
  obtain ⟨before, gap, start, token, after, _, _, _, _, _⟩ := last
  subst ends
  rfl

theorem run_operators_newline (expect : Expect) :
    (operators Rank.any expect tree).run calls last = ⟨some tree, last⟩ := by
  refine Parser.run_loop_done ?_
  obtain ⟨before, gap, start, token, after, _, _, _, _, _⟩ := last
  subst ends
  rfl

theorem run_itemsFrom_newline (item : Parser Tree) (expect : Expect) (read : List Tree) :
    (itemsFrom item expect read).run calls last = ⟨some read, last⟩ := by
  refine Parser.run_loop_done ?_
  obtain ⟨before, gap, start, token, after, _, _, _, _, _⟩ := last
  subst ends
  rfl

end

theorem read_expression (starts : first.token.StartsLiteral)
    (atom : (Rule.atom .lineEnd).read first = ⟨some tree, last⟩) (ends : last.token = .newline) :
    (Rule.expression Rank.any .lineEnd).read first = ⟨some tree, last⟩ := by
  rw [Rule.read_eq]
  change (expressionBody Rank.any .lineEnd).run _ first = _
  refine Parser.run_bind_iff.mpr ⟨tree, last, ?_, run_operators_newline ends _⟩
  have trailed : (trailed .lineEnd).run (Rule.inner (.expression Rank.any .lineEnd) first) first =
      ⟨some tree, last⟩ := by
    refine Parser.run_bind_iff.mpr ⟨tree, last, ?_, run_trailers_newline ends _⟩
    exact (Rule.inner_of_lower (by decide) first).trans atom
  obtain ⟨before, gap, start, token, after, _, _, _, _, _⟩ := first
  cases starts <;> exact trailed

theorem run_assignedFrom_newline {calls : (rule : Rule) → Lexeme → Outcome rule.Result}
    {head : Parser Tree} (read : head.run calls first = ⟨some tree, last⟩)
    (ends : last.token = .newline) :
    (assignedFrom head).run calls first = ⟨some (.value tree false), last⟩ := by
  refine Parser.run_bind_iff.mpr ⟨tree, last, read, ?_⟩
  refine Parser.run_bind_iff.mpr ⟨false, last, ?_, ?_⟩
  · change Outcome.mk (some (last.token == .symbol ",")) last = _
    rw [ends]
    rfl
  refine Parser.run_bind_iff.mpr ⟨[tree], last, run_itemsFrom_newline ends _ _ _, ?_⟩
  obtain ⟨before, gap, start, token, after, _, _, _, _, _⟩ := last
  subst ends
  rfl

theorem read_assigned (starts : first.token.StartsLiteral)
    (atom : (Rule.atom .lineEnd).read first = ⟨some tree, last⟩) (ends : last.token = .newline) :
    Rule.assigned.read first = ⟨some (.value tree false), last⟩ := by
  have whole : (expression Rank.any .lineEnd).run (Rule.inner .assigned first) first =
      ⟨some tree, last⟩ :=
    (Rule.inner_of_lower (by decide : _ < Rule.assigned.height) first).trans
      (read_expression starts atom ends)
  have value := run_assignedFrom_newline whole ends
  rw [Rule.read_eq]
  change assignedBody.run _ first = _
  obtain ⟨before, gap, start, token, after, _, _, _, _, _⟩ := first
  cases starts <;> exact value

/-- A line that is one atom is a statement. -/
theorem run_statement_of_atom (starts : first.token.StartsLiteral)
    (atom : (Rule.atom .lineEnd).read first = ⟨some tree, last⟩) (ends : last.token = .newline)
    (bare : last.gap = []) :
    statement.run Rule.read first = ⟨some [.expression tree], last.next .boundary⟩ := by
  have simple : simpleStatement.run Rule.read first = ⟨some (.expression tree), last⟩ := by
    have value : expressionStatement.run Rule.read first = ⟨some (.expression tree), last⟩ :=
      Parser.run_bind_iff.mpr ⟨_, last, read_assigned starts atom ends, rfl⟩
    obtain ⟨before, gap, start, token, after, _, _, _, _, _⟩ := first
    cases starts <;> exact value
  have line : (lineStatement simpleStatement).run Rule.read first =
      ⟨some [.expression tree], last.next .boundary⟩ := by
    refine Parser.run_bind_iff.mpr ⟨[.expression tree], last, ?_, ?_⟩
    · refine Parser.run_bind_iff.mpr ⟨.expression tree, last, simple, Parser.run_loop_done ?_⟩
      obtain ⟨before, gap, start, token, after, _, _, _, _, _⟩ := last
      subst ends bare
      rfl
    · refine Parser.run_bind_iff.mpr ⟨(), last.next .boundary, ?_, rfl⟩
      change (if last.token.isPassable then _ else _) = _
      rw [ends]
      rfl
  obtain ⟨before, gap, start, token, after, _, _, _, _, _⟩ := first
  cases starts <;> exact line

end Grammar

theorem next_at_end :
    ((Input.mk [] [] false).next .lineEnd).token = .newline ∧
      ((Input.mk [] [] false).next .lineEnd).gap = [] ∧
      ((Input.mk [] [] false).next .lineEnd).next .boundary =
        (Input.mk [] [] false).next .boundary := by
  have marked : (Input.mk [] [] false).mark Expect.lineEnd.valid = .newline := rfl
  rw [Input.next, Input.nextOf, nextLexeme_newline marked]
  exact ⟨rfl, rfl, rfl⟩

/-- A text that is one atom is parsed as that atom. -/
theorem parse?_of_atom {source : String} {first : Lexeme} {tree : Tree}
    (begins : (Input.mk (withoutOrderMark source.toList) [] false).next .operand = first)
    (starts : first.token.StartsLiteral) (bare : first.gap = [])
    (atom : (Rule.atom .lineEnd).read first = ⟨some tree, (Input.mk [] [] false).next .lineEnd⟩) :
    parse? source = some [.expression tree] := by
  obtain ⟨ends, last_bare, next⟩ := next_at_end
  have statement := Grammar.run_statement_of_atom starts atom ends last_bare
  rw [next] at statement
  have going : ¬(first.token == .dedent || first.token == .stop) = true := by
    generalize first.token = token at starts
    cases starts <;> simp
  have step : Grammar.statementsStep ([], true) first =
      ⟨some (.again ([.expression tree], true)), (Input.mk [] [] false).next .boundary⟩ := by
    rw [Grammar.statementsStep, if_neg going, statement, bare]
    rfl
  have stop : Grammar.statementsStep ([.expression tree], true)
      ((Input.mk [] [] false).next .boundary) =
      ⟨some (.done [.expression tree]), (Input.mk [] [] false).next .boundary⟩ := by
    rw [Grammar.next_of_nothing]
    rfl
  have shorter : ((Input.mk [] [] false).next .boundary).start.length < first.start.length := by
    rw [Grammar.next_of_nothing]
    have written : first.token.isWritten = true := by
      generalize first.token = token at starts
      cases starts <;> rfl
    exact Nat.lt_of_le_of_lt (Nat.zero_le _) (first.passes written)
  refine Grammar.parse?_iff.mpr ⟨_, congrArg Lexeme.token (Grammar.next_of_nothing false), ?_⟩
  rw [begins, Parser.iterate, step]
  dsimp only
  rw [if_pos shorter, Parser.iterate, stop]

/-- A text that is one atom is read as that atom. -/
theorem read_of_atom {source : String} {first : Lexeme} {tree : Tree} {stmt : Stmt}
    (begins : (Input.mk (withoutOrderMark source.toList) [] false).next .operand = first)
    (starts : first.token.StartsLiteral) (bare : first.gap = [])
    (atom : (Rule.atom .lineEnd).read first = ⟨some tree, (Input.mk [] [] false).next .lineEnd⟩)
    (value : readExpression tree = .ok stmt) : read source = .ok ⟨[stmt]⟩ := by
  rw [read_of_parse? (parse?_of_atom begins starts bare atom), readStmt_expression, value]
  rfl

/-! ### Numerals -/

/-- The tree of a numeral. -/
def NumeralKind.tree : NumeralKind → List Char → Tree
  | .integer => .integer
  | .float => .float

theorem read_atom_numeral {expect : Expect} {lexeme : Lexeme} {kind : NumeralKind}
    {digits : List Char} (numeral : lexeme.token = .numeral kind digits) :
    (Rule.atom expect).read lexeme = ⟨some (kind.tree digits), lexeme.next expect⟩ := by
  rw [Rule.read_eq]
  change (Grammar.atomBody expect).run _ lexeme = _
  obtain ⟨before, gap, start, token, after, _, _, _, _, _⟩ := lexeme
  subst numeral
  cases kind <;> rfl

section Numeral

variable {text : List Char} {kind : NumeralKind}
  (starts : ∃ digit < 10, text.head? = some digit.digitChar)
  (spelled : numeral? text = some (kind, text.length))
include starts spelled

theorem token_of_numeral : token text = (.numeral kind text, text.length) := by
  obtain ⟨digit, small, first⟩ := starts
  obtain ⟨rest, rfl⟩ := List.head?_eq_some_iff.mp first
  have word : Text.startsIdentifier digit.digitChar = false := by
    interval_cases digit <;> decide
  rw [token, word, spelled]
  simp

/-- A text that is one numeral is a module of that numeral. -/
theorem read_of_numeral {expr : Expr} (value : readExpr (kind.tree text) = .ok expr) :
    read (String.ofList text) = .ok ⟨[.expr expr]⟩ := by
  have whole := token_of_numeral starts spelled
  obtain ⟨digit, small, first⟩ := starts
  obtain ⟨rest, same⟩ := List.head?_eq_some_iff.mp first
  have begins : (Input.mk (withoutOrderMark (String.ofList text).toList) [] false).next .operand =
      .ordinary text [] ⟨text, [], false⟩ text List.suffix_rfl := by
    rw [String.toList_ofList, same]
    interval_cases digit <;> exact Grammar.next_of_ordinary rfl rfl rfl
  have numeral : (Lexeme.ordinary text [] ⟨text, [], false⟩ text List.suffix_rfl).token =
      .numeral kind text := congrArg Prod.fst whole
  have last : (Lexeme.ordinary text [] ⟨text, [], false⟩ text List.suffix_rfl).next .lineEnd =
      (Input.mk [] [] false).next .lineEnd := by
    change (Input.mk (text.drop (token text).2) [] false).next .lineEnd = _
    rw [whole, List.drop_length]
  have atom : (Rule.atom .lineEnd).read _ = _ := read_atom_numeral numeral
  have statement : readExpression (kind.tree text) = .ok (.expr expr) := by
    cases kind <;>
      · simp only [NumeralKind.tree] at value
        simp only [NumeralKind.tree, readExpression, readValue, value]
        rfl
  rw [last] at atom
  exact read_of_atom begins (numeral ▸ .numeral _ _) rfl atom statement

end Numeral

end Respell.Source
