import Respell.Proofs.Pruning

/-!
Respelling is compositional. A context is a node with one place left open for an expression, at any
depth. What a node makes of an expression inside is its text alone, which is empty if the expression
has no rendering: expressions with one text can stand for each other in every context. Only the open
place by itself, and the statement that is nothing else, tell more than the text.
-/

set_option autoImplicit false

namespace Respell

open Syntax (BinaryOperator BooleanOperator CompareOperator DictEntry Expr FunctionDef Keyword Stmt)

namespace Syntax

/-- An expression with one place left open. -/
inductive ExprContext
  | hole
  | callee (func : ExprContext) (args : List Expr) (keywords : List Keyword)
  | argument (func : Expr) (before : List Expr) (arg : ExprContext) (after : List Expr)
      (keywords : List Keyword)
  | named (func : Expr) (args : List Expr) (before : List Keyword) (arg : String)
      (value : ExprContext) (after : List Keyword)
  | namedSpread (func : Expr) (args : List Expr) (before : List Keyword) (value : ExprContext)
      (after : List Keyword)
  | receiver (value : ExprContext) (attr : String)
  | binaryLeft (left : ExprContext) (op : BinaryOperator) (right : Expr)
  | binaryRight (left : Expr) (op : BinaryOperator) (right : ExprContext)
  | boolean (op : BooleanOperator) (before : List Expr) (value : ExprContext) (after : List Expr)
  | compareLeft (left : ExprContext) (ops : List CompareOperator) (comparators : List Expr)
  | compareRight (left : Expr) (ops : List CompareOperator) (before : List Expr)
      (right : ExprContext) (after : List Expr)
  | subscriptValue (value : ExprContext) (index : Expr)
  | subscriptIndex (value : Expr) (index : ExprContext)
  | entryKey (before : List DictEntry) (key : ExprContext) (value : Expr) (after : List DictEntry)
  | entryValue (before : List DictEntry) (key : Expr) (value : ExprContext) (after : List DictEntry)
  | entrySpread (before : List DictEntry) (value : ExprContext) (after : List DictEntry)
  | listItem (before : List Expr) (item : ExprContext) (after : List Expr)
  | tupleItem (before : List Expr) (item : ExprContext) (after : List Expr)

/-- The expression with the open place filled. -/
def ExprContext.fill (expr : Expr) : ExprContext → Expr
  | .hole => expr
  | .callee func args keywords => .call (func.fill expr) args keywords
  | .argument func before arg after keywords =>
    .call func (before ++ arg.fill expr :: after) keywords
  | .named func args before arg value after =>
    .call func args (before ++ .named arg (value.fill expr) :: after)
  | .namedSpread func args before value after =>
    .call func args (before ++ .spread (value.fill expr) :: after)
  | .receiver value attr => .attribute (value.fill expr) attr
  | .binaryLeft left op right => .binaryOp (left.fill expr) op right
  | .binaryRight left op right => .binaryOp left op (right.fill expr)
  | .boolean op before value after => .booleanOp op (before ++ value.fill expr :: after)
  | .compareLeft left ops comparators => .compare (left.fill expr) ops comparators
  | .compareRight left ops before right after =>
    .compare left ops (before ++ right.fill expr :: after)
  | .subscriptValue value index => .subscript (value.fill expr) index
  | .subscriptIndex value index => .subscript value (index.fill expr)
  | .entryKey before key value after => .dict (before ++ .keyed (key.fill expr) value :: after)
  | .entryValue before key value after => .dict (before ++ .keyed key (value.fill expr) :: after)
  | .entrySpread before value after => .dict (before ++ .spread (value.fill expr) :: after)
  | .listItem before item after => .list (before ++ item.fill expr :: after)
  | .tupleItem before item after => .tuple (before ++ item.fill expr :: after)

/-- A statement with one place left open for an expression. -/
inductive StmtContext
  | assignTarget (before : List Expr) (target : ExprContext) (after : List Expr) (value : Expr)
  | assignValue (targets : List Expr) (value : ExprContext)
  | bare (value : ExprContext)
  | returned (value : ExprContext)
  | functionBody (name : String) (params : List String) (before : List Stmt) (stmt : StmtContext)
      (after : List Stmt)
  | forTarget (target : ExprContext) (iter : Expr) (body : List Stmt) (orelse : List Stmt)
  | forIter (target : Expr) (iter : ExprContext) (body : List Stmt) (orelse : List Stmt)
  | forBody (target : Expr) (iter : Expr) (before : List Stmt) (stmt : StmtContext)
      (after : List Stmt) (orelse : List Stmt)
  | forElse (target : Expr) (iter : Expr) (body : List Stmt) (before : List Stmt)
      (stmt : StmtContext) (after : List Stmt)
  | ifTest (test : ExprContext) (body : List Stmt) (orelse : List Stmt)
  | ifBody (test : Expr) (before : List Stmt) (stmt : StmtContext) (after : List Stmt)
      (orelse : List Stmt)
  | ifElse (test : Expr) (body : List Stmt) (before : List Stmt) (stmt : StmtContext)
      (after : List Stmt)
  | whileTest (test : ExprContext) (body : List Stmt) (orelse : List Stmt)
  | whileBody (test : Expr) (before : List Stmt) (stmt : StmtContext) (after : List Stmt)
      (orelse : List Stmt)
  | whileElse (test : Expr) (body : List Stmt) (before : List Stmt) (stmt : StmtContext)
      (after : List Stmt)

/-- The statement with the open place filled. -/
def StmtContext.fill (expr : Expr) : StmtContext → Stmt
  | .assignTarget before target after value =>
    .assign (before ++ target.fill expr :: after) value
  | .assignValue targets value => .assign targets (value.fill expr)
  | .bare value => .expr (value.fill expr)
  | .returned value => .returns (some (value.fill expr))
  | .functionBody name params before stmt after =>
    .functionDef (.mk name params (before ++ stmt.fill expr :: after))
  | .forTarget target iter body orelse => .forEach (target.fill expr) iter body orelse
  | .forIter target iter body orelse => .forEach target (iter.fill expr) body orelse
  | .forBody target iter before stmt after orelse =>
    .forEach target iter (before ++ stmt.fill expr :: after) orelse
  | .forElse target iter body before stmt after =>
    .forEach target iter body (before ++ stmt.fill expr :: after)
  | .ifTest test body orelse => .ifElse (test.fill expr) body orelse
  | .ifBody test before stmt after orelse =>
    .ifElse test (before ++ stmt.fill expr :: after) orelse
  | .ifElse test body before stmt after => .ifElse test body (before ++ stmt.fill expr :: after)
  | .whileTest test body orelse => .whileLoop (test.fill expr) body orelse
  | .whileBody test before stmt after orelse =>
    .whileLoop test (before ++ stmt.fill expr :: after) orelse
  | .whileElse test body before stmt after =>
    .whileLoop test body (before ++ stmt.fill expr :: after)

/-- What fills the open place makes no statement a bare expression, nor keeps it from being one. -/
theorem isBare_fill (context : StmtContext) (first second : Expr) :
    (context.fill first).isBare = (context.fill second).isBare := by
  cases context <;> rfl

end Syntax

open Syntax (ExprContext StmtContext)

/-- A node with one place left open for an expression. -/
inductive NodeContext
  | expr (value : ExprContext)
  | stmt (value : StmtContext)
  | function (name : String) (params : List String) (before : List Stmt) (inner : StmtContext)
      (after : List Stmt)

/-- The node with the open place filled. -/
def NodeContext.fill (expr : Expr) : NodeContext → Node
  | .expr value => .expr (value.fill expr)
  | .stmt value => .stmt (value.fill expr)
  | .function name params before inner after =>
    .function (.mk name params (before ++ inner.fill expr :: after))

namespace Render

namespace Draft

/-- Drafts that are settled to one text. -/
def SameText (first second : Draft String) : Prop := first.settle.1.text = second.settle.1.text

theorem SameText.settled {first second : Draft String} (same : SameText first second) :
    Matches first.settled second.settled :=
  congrArg Except.ok same

theorem Matches.bind_right {α β : Type} {draft : Draft α} {next after : α → Draft β}
    (rest : ∀ value, Matches (next value) (after value)) :
    Matches (draft.bind next) (draft.bind after) :=
  (Matches.refl draft).bind rest

theorem Matches.sameText {first second : Draft String} (equal : Matches first second) :
    SameText first second :=
  congrArg Rendering.text equal.settle

end Draft

open Draft (Matches SameText)

section Splicing

/-! ### Lists that differ in one place -/

variable {table : TokenTable}

theorem matches_texts_splice {first second : Expr}
    (same : SameText (renderExpr table first) (renderExpr table second)) (before after : List Expr) :
    Matches (renderTexts table (before ++ first :: after))
      (renderTexts table (before ++ second :: after)) := by
  induction before with
  | nil =>
      rw [List.nil_append, List.nil_append, renderTexts, renderTexts]
      exact same.settled.bind fun _ => .refl _
  | cons expr rest ih =>
      rw [List.cons_append, List.cons_append, renderTexts, renderTexts]
      exact .bind_right fun _ => ih.bind fun _ => .refl _

theorem matches_entries_splice {first second : DictEntry} {after : List DictEntry}
    (same : Matches (renderEntries table (first :: after)) (renderEntries table (second :: after)))
    (before : List DictEntry) :
    Matches (renderEntries table (before ++ first :: after))
      (renderEntries table (before ++ second :: after)) := by
  induction before with
  | nil => exact same
  | cons entry rest ih =>
      cases entry with
      | spread value =>
          rw [List.cons_append, List.cons_append, renderEntries, renderEntries]
          exact .bind_right fun _ => ih
      | keyed key value =>
          rw [List.cons_append, List.cons_append, renderEntries, renderEntries]
          exact .bind_right fun _ => .bind_right fun _ =>
            .bind_right fun _ => ih.bind fun _ => .refl _

theorem matches_lines_splice {first second : Stmt}
    (same : SameText (renderStmt table first) (renderStmt table second)) (before after : List Stmt) :
    Matches (renderLines table (before ++ first :: after))
      (renderLines table (before ++ second :: after)) := by
  induction before with
  | nil =>
      rw [List.nil_append, List.nil_append, renderLines, renderLines]
      exact same.settled.bind fun _ => .refl _
  | cons stmt rest ih =>
      rw [List.cons_append, List.cons_append, renderLines, renderLines]
      exact .bind_right fun _ => ih.bind fun _ => .refl _

/-- A statement in first place is looked at only for whether it is a bare expression. -/
theorem matches_body_splice {first second : Stmt}
    (same : SameText (renderStmt table first) (renderStmt table second))
    (bare : first.isBare = second.isBare) (before after : List Stmt) :
    Matches (renderBody table (before ++ first :: after))
      (renderBody table (before ++ second :: after)) := by
  cases before with
  | nil =>
      rw [List.nil_append, List.nil_append, renderBody_cons, renderBody_cons, bare]
      split
      · exact .refl _
      · exact matches_lines_splice same [] after
  | cons stmt rest =>
      rw [List.cons_append, List.cons_append, renderBody_cons, renderBody_cons]
      split
      · exact matches_lines_splice same rest after
      · exact matches_lines_splice same (stmt :: rest) after

/-- A call tells its named arguments only in what it records. -/
theorem matches_call_keywords (func : Expr) (args : List Expr) (first second : List Keyword) :
    Matches (renderExpr table (.call func args first)) (renderExpr table (.call func args second)) := by
  have dropped (callee : String) : Matches (dropKeywords callee first) (dropKeywords callee second) :=
    (matches_dropKeywords callee first).symm.trans (matches_dropKeywords callee second)
  rw [renderExpr, renderExpr]
  exact .bind_right fun _ => .bind_right fun _ => .bind_right fun _ =>
    (dropped _).bind fun _ => .refl _

theorem matches_compare_left {left other : Expr}
    (same : SameText (renderExpr table left) (renderExpr table other)) (ops : List CompareOperator)
    (comparators : List Expr) :
    Matches (renderExpr table (.compare left ops comparators))
      (renderExpr table (.compare other ops comparators)) := by
  match ops, comparators with
  | [op], [right] =>
      rw [renderExpr, renderExpr]
      exact .bind_right fun _ => same.settled.bind fun _ => .refl _
  | [], _ | _ :: _ :: _, _ | [_], [] | [_], _ :: _ :: _ => exact .refl _

/-- A comparison of any other shape than two operands is refused for the number of its operands. -/
theorem matches_compare_right {right other : Expr}
    (same : SameText (renderExpr table right) (renderExpr table other)) (left : Expr)
    (ops : List CompareOperator) (before after : List Expr) :
    Matches (renderExpr table (.compare left ops (before ++ right :: after)))
      (renderExpr table (.compare left ops (before ++ other :: after))) := by
  match ops, before, after with
  | [op], [], [] =>
      rw [List.nil_append, List.nil_append, renderExpr, renderExpr]
      exact .bind_right fun _ => .bind_right fun _ => same.settled.bind fun _ => .refl _
  | [], _, _ | _ :: _ :: _, _, _ => simp [renderExpr, Matches]
  | [_], [], _ :: _ | [_], [_], _ | [_], _ :: _ :: _, _ => simp [renderExpr, Matches]

theorem matches_dict {entries others : List DictEntry}
    (same : Matches (renderEntries table entries) (renderEntries table others)) :
    Matches (renderExpr table (.dict entries)) (renderExpr table (.dict others)) := by
  rw [renderExpr, renderExpr]
  exact .bind_right fun _ => .bind_right fun _ => same.bind fun _ => .refl _

theorem matches_function {name : String} {params : List String} {body other : List Stmt}
    (same : Matches (renderBody table body) (renderBody table other)) :
    Matches (renderFunction table (.mk name params body))
      (renderFunction table (.mk name params other)) := by
  rw [renderFunction, renderFunction]
  exact .bind_right fun _ => same.bind fun _ => .refl _

/-- An alternative is told only in what is recorded. -/
theorem matches_alternative (construct : String) (first second : List Stmt) :
    Matches (dropElse construct first) (dropElse construct second) :=
  (matches_dropElse construct first).symm.trans (matches_dropElse construct second)

end Splicing

section Contexts

/-! ### Contexts -/

variable {table : TokenTable} {first second : Expr}

/-- Drafts of one text, which match as soon as something stands around the open place. -/
private theorem matched {one other : Draft String} {around : Prop} (equal : Matches one other) :
    SameText one other ∧ (around → Matches one other) :=
  ⟨equal.sameText, fun _ => equal⟩

theorem fill_expr (same : SameText (renderExpr table first) (renderExpr table second))
    (context : ExprContext) :
    SameText (renderExpr table (context.fill first)) (renderExpr table (context.fill second)) ∧
      (context ≠ .hole → Matches (renderExpr table (context.fill first))
        (renderExpr table (context.fill second))) := by
  induction context with
  | hole => exact ⟨same, fun around => absurd rfl around⟩
  | callee func args keywords ih =>
      apply matched
      simp only [ExprContext.fill, renderExpr]
      exact ih.1.settled.bind fun _ => .refl _
  | argument func before arg after keywords ih =>
      apply matched
      simp only [ExprContext.fill, renderExpr]
      exact .bind_right fun _ => (matches_texts_splice ih.1 before after).bind fun _ => .refl _
  | named func args before arg value after ih => exact matched (matches_call_keywords func args _ _)
  | namedSpread func args before value after ih =>
      exact matched (matches_call_keywords func args _ _)
  | receiver value attr ih =>
      apply matched
      simp only [ExprContext.fill, renderExpr]
      exact .bind_right fun _ => ih.1.settled.bind fun _ => .refl _
  | binaryLeft left op right ih =>
      apply matched
      simp only [ExprContext.fill, renderExpr]
      exact .bind_right fun _ => ih.1.settled.bind fun _ => .refl _
  | binaryRight left op right ih =>
      apply matched
      simp only [ExprContext.fill, renderExpr]
      exact .bind_right fun _ => .bind_right fun _ => ih.1.settled.bind fun _ => .refl _
  | boolean op before value after ih =>
      apply matched
      simp only [ExprContext.fill, renderExpr]
      exact .bind_right fun _ => (matches_texts_splice ih.1 before after).bind fun _ => .refl _
  | compareLeft left ops comparators ih =>
      apply matched
      simp only [ExprContext.fill]
      exact matches_compare_left ih.1 ops comparators
  | compareRight left ops before right after ih =>
      apply matched
      simp only [ExprContext.fill]
      exact matches_compare_right ih.1 left ops before after
  | subscriptValue value index ih =>
      apply matched
      simp only [ExprContext.fill, renderExpr]
      exact .bind_right fun _ => .bind_right fun _ => ih.1.settled.bind fun _ => .refl _
  | subscriptIndex value index ih =>
      apply matched
      simp only [ExprContext.fill, renderExpr]
      exact .bind_right fun _ => .bind_right fun _ => .bind_right fun _ =>
        ih.1.settled.bind fun _ => .refl _
  | entryKey before key value after ih =>
      apply matched
      simp only [ExprContext.fill]
      refine matches_dict (matches_entries_splice ?_ before)
      rw [renderEntries, renderEntries]
      exact .bind_right fun _ => ih.1.settled.bind fun _ => .refl _
  | entryValue before key value after ih =>
      apply matched
      simp only [ExprContext.fill]
      refine matches_dict (matches_entries_splice ?_ before)
      rw [renderEntries, renderEntries]
      exact .bind_right fun _ => .bind_right fun _ => ih.1.settled.bind fun _ => .refl _
  | entrySpread before value after ih =>
      apply matched
      simp only [ExprContext.fill]
      refine matches_dict (matches_entries_splice ?_ before)
      rw [renderEntries, renderEntries]
      exact .refl _
  | listItem before item after ih =>
      apply matched
      simp only [ExprContext.fill, renderExpr]
      exact .bind_right fun _ => .bind_right fun _ =>
        (matches_texts_splice ih.1 before after).bind fun _ => .refl _
  | tupleItem before item after ih =>
      apply matched
      simp only [ExprContext.fill, renderExpr]
      exact .bind_right fun _ => .bind_right fun _ =>
        (matches_texts_splice ih.1 before after).bind fun _ => .refl _

theorem fill_stmt (same : SameText (renderExpr table first) (renderExpr table second))
    (context : StmtContext) :
    SameText (renderStmt table (context.fill first)) (renderStmt table (context.fill second)) ∧
      (context ≠ .bare .hole → Matches (renderStmt table (context.fill first))
        (renderStmt table (context.fill second))) := by
  induction context with
  | assignTarget before target after value =>
      apply matched
      simp only [StmtContext.fill, renderStmt]
      exact .bind_right fun _ =>
        (matches_texts_splice (fill_expr same target).1 before after).bind fun _ => .refl _
  | assignValue targets value =>
      apply matched
      simp only [StmtContext.fill, renderStmt]
      exact .bind_right fun _ => .bind_right fun _ => .bind_right fun _ =>
        (fill_expr same value).1.settled.bind fun _ => .refl _
  | bare value =>
      -- a bare expression is rendered as the statement, with its fault and all
      simp only [StmtContext.fill, renderStmt]
      have inner := fill_expr same value
      refine ⟨inner.1, fun around => inner.2 fun hole => around ?_⟩
      rw [hole]
  | returned value =>
      apply matched
      simp only [StmtContext.fill, renderStmt]
      exact .bind_right fun _ => (fill_expr same value).1.settled.bind fun _ => .refl _
  | functionBody name params before stmt after ih =>
      apply matched
      simp only [StmtContext.fill, renderStmt]
      exact matches_function (matches_body_splice ih.1 (Syntax.isBare_fill stmt _ _) before after)
  | forTarget target iter body orelse =>
      apply matched
      simp only [StmtContext.fill, renderStmt]
      exact .bind_right fun _ => .bind_right fun _ =>
        (fill_expr same target).1.settled.bind fun _ => .refl _
  | forIter target iter body orelse =>
      apply matched
      simp only [StmtContext.fill, renderStmt]
      exact .bind_right fun _ => .bind_right fun _ => .bind_right fun _ =>
        (fill_expr same iter).1.settled.bind fun _ => .refl _
  | forBody target iter before stmt after orelse ih =>
      have inner := matches_body_splice ih.1 (Syntax.isBare_fill stmt first second) before after
      apply matched
      simp only [StmtContext.fill, renderStmt]
      exact .bind_right fun _ => .bind_right fun _ => .bind_right fun _ =>
        .bind_right fun _ => .bind_right fun _ => inner.bind fun _ => .refl _
  | forElse target iter body before stmt after ih =>
      apply matched
      simp only [StmtContext.fill, renderStmt]
      exact .bind_right fun _ => (matches_alternative _ _ _).bind fun _ => .refl _
  | ifTest test body orelse =>
      apply matched
      simp only [StmtContext.fill, renderStmt]
      exact .bind_right fun _ => (fill_expr same test).1.settled.bind fun _ => .refl _
  | whileTest test body orelse =>
      apply matched
      simp only [StmtContext.fill, renderStmt]
      exact .bind_right fun _ => (fill_expr same test).1.settled.bind fun _ => .refl _
  | ifBody test before stmt after orelse ih =>
      have inner := matches_body_splice ih.1 (Syntax.isBare_fill stmt first second) before after
      apply matched
      simp only [StmtContext.fill, renderStmt]
      exact .bind_right fun _ => .bind_right fun _ => .bind_right fun _ =>
        inner.bind fun _ => .refl _
  | whileBody test before stmt after orelse ih =>
      have inner := matches_body_splice ih.1 (Syntax.isBare_fill stmt first second) before after
      apply matched
      simp only [StmtContext.fill, renderStmt]
      exact .bind_right fun _ => .bind_right fun _ => .bind_right fun _ =>
        inner.bind fun _ => .refl _
  | ifElse test body before stmt after ih =>
      apply matched
      simp only [StmtContext.fill, renderStmt]
      exact (matches_alternative _ _ _).bind fun _ => .refl _
  | whileElse test body before stmt after ih =>
      apply matched
      simp only [StmtContext.fill, renderStmt]
      exact (matches_alternative _ _ _).bind fun _ => .refl _

end Contexts

end Render

open Render.Draft (Matches SameText)

theorem NodeContext.matches_fill {table : TokenTable} {first second : Expr}
    (same : SameText (Render.renderExpr table first) (Render.renderExpr table second))
    {context : NodeContext} (notHole : context ≠ .expr .hole)
    (notBare : context ≠ .stmt (.bare .hole)) :
    Matches ((context.fill first).render table) ((context.fill second).render table) := by
  cases context with
  | expr value =>
      refine (Render.fill_expr same value).2 fun hole => notHole ?_
      rw [hole]
  | stmt value =>
      refine (Render.fill_stmt same value).2 fun bare => notBare ?_
      rw [bare]
  | function name params before inner after =>
      exact Render.matches_function (Render.matches_body_splice (Render.fill_stmt same inner).1
        (Syntax.isBare_fill inner _ _) before after)

/-- Respelling is compositional: in every context but the open place itself and the statement that is
nothing else, expressions of one text lead to one outcome, and an expression without a rendering does
what the empty name does. -/
theorem respell_fill_eq (table : TokenTable) (context : NodeContext)
    (notHole : context ≠ .expr .hole) (notBare : context ≠ .stmt (.bare .hole)) :
    (∀ first second : Expr,
      (respellExpr table first).1.text = (respellExpr table second).1.text →
        (respell table (context.fill first)).1 = (respell table (context.fill second)).1) ∧
    ∀ lost : Expr, (respellExpr table lost).1.isRendered = false →
      (respell table (context.fill lost)).1 = (respell table (context.fill (.name ""))).1 := by
  have exchange (first second : Expr)
      (same : (respellExpr table first).1.text = (respellExpr table second).1.text) :
      (respell table (context.fill first)).1 = (respell table (context.fill second)).1 :=
    (NodeContext.matches_fill same notHole notBare).settle
  refine ⟨exchange, fun lost unrendered => exchange lost (.name "") ?_⟩
  cases outcome : (respellExpr table lost).1 with
  | rendered text => simp [outcome, Rendering.isRendered] at unrendered
  | unsupported kind => rfl

/-- Tokens of functions and conditionals, and a sign for sums. -/
def sumTokens : TokenTable := wordTokens.set (.operator .add) "+"

/-- A function with a conditional, in which a bare statement is left open. -/
def openStatement : NodeContext :=
  .function "run" ["path"] [.expr (.name "note")]
    (.ifBody (.name "path") [.returns none] (.bare .hole) [] []) []

/-- In the open statement a sum does what the name of its text does, and an expression without a
rendering what the empty name does. -/
theorem respell_fill_eq_open_statement :
    (respellExpr sumTokens (.binaryOp (.name "a") .add (.name "b"))).1.text =
        (respellExpr sumTokens (.name "a+b")).1.text ∧
      (respell sumTokens (openStatement.fill (.binaryOp (.name "a") .add (.name "b")))).1 =
        .rendered "function run(path) begin\n\tif path then\n\treturn \n\ta+b fi end" ∧
      (respellExpr sumTokens (.other "Lambda")).1.isRendered = false ∧
      (respell sumTokens (openStatement.fill (.other "Lambda"))).1 =
        .rendered "function run(path) begin\n\tif path then\n\treturn \n\t fi end" := by
  obtain ⟨exchange, lost⟩ := respell_fill_eq sumTokens openStatement (by simp [openStatement])
    (by simp [openStatement])
  have same : (respellExpr sumTokens (.binaryOp (.name "a") .add (.name "b"))).1.text =
      (respellExpr sumTokens (.name "a+b")).1.text := by cbv
  have unrendered : (respellExpr sumTokens (.other "Lambda")).1.isRendered = false := by cbv
  refine ⟨same, ?_, unrendered, ?_⟩
  · rw [exchange _ _ same]
    cbv
  · rw [lost _ unrendered]
    cbv

end Respell
