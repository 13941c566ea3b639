import Respell.Proofs.Records

/-!
Strict rendering: a text for a node only if nothing of it is lost. It stops at the first part that
has no rendering, at the first missing token and at everything that rendering would drop. Rendering
records nothing exactly if strict rendering gives a text, and then renders that text.
-/

set_option autoImplicit false

namespace Respell

open Syntax (DictEntry Expr FunctionDef Stmt)

namespace Strict

/-- Texts with a token between them; without neighbours no token is needed. -/
def join? (table : TokenTable) (separator : Token) (texts : List String) : Option String :=
  if texts.length < 2 then some (String.join texts)
  else (table.get? separator).map fun between => between.intercalate texts

/-- A text between two tokens. -/
def enclose? (table : TokenTable) (opening closing : Token) (inner : String) : Option String := do
  let before ← table.get? opening
  let after ← table.get? closing
  some (before ++ inner ++ after)

/-- Two texts with an operator between them. -/
def operate? (table : TokenTable) (operator : OperatorToken) (left right : String) : Option String :=
  (table.get? (.operator operator)).map fun symbol => left ++ symbol ++ right

mutual

/-- The text of an expression that loses nothing. -/
def expr? (table : TokenTable) : Expr → Option String
  | .call func args [] => do
    let callee ← expr? table func
    let inner ← join? table (.function .argumentSeparator) (← exprs? table args)
    some (callee ++ "(" ++ inner ++ ")")
  | .call _ _ (_ :: _) => none
  | .name text => some text
  | .constant value => some (Render.constantText table value)
  | .attribute value attr => do
    let receiver ← expr? table value
    let dot ← table.get? (.access .attribute)
    some (receiver ++ dot ++ attr)
  | .binaryOp left op right => do
    operate? table (.ofBinary op) (← expr? table left) (← expr? table right)
  | .booleanOp op values => do
    let texts ← exprs? table values
    let symbol ← table.get? (.operator (.ofBoolean op))
    some (symbol.intercalate texts)
  | .compare left [op] [right] => do
    operate? table (.ofCompare op) (← expr? table left) (← expr? table right)
  | .compare _ _ _ => none
  | .subscript value index => do
    let receiver ← expr? table value
    let key ← enclose? table (.access .subscriptOpen) (.access .subscriptClose)
      (← expr? table index)
    some (receiver ++ key)
  | .dict entries => do
    let inner ← join? table (.literal .dictJoin) (← entries? table entries)
    enclose? table (.literal .dictBegin) (.literal .dictEnd) inner
  | .list items => do
    let inner ← join? table (.literal .listJoin) (← exprs? table items)
    enclose? table (.literal .listBegin) (.literal .listEnd) inner
  | .tuple items => do
    let inner ← join? table (.literal .tupleJoin) (← exprs? table items)
    enclose? table (.literal .tupleBegin) (.literal .tupleEnd) inner
  | .other _ => none

/-- The texts of expressions that all lose nothing. -/
def exprs? (table : TokenTable) : List Expr → Option (List String)
  | [] => some []
  | expr :: rest => do
    let first ← expr? table expr
    let more ← exprs? table rest
    some (first :: more)

/-- The texts of dictionary entries that all have a key and lose nothing. -/
def entries? (table : TokenTable) : List DictEntry → Option (List String)
  | [] => some []
  | .spread _ :: _ => none
  | .keyed key value :: rest => do
    let key ← expr? table key
    let value ← expr? table value
    let between ← table.get? (.literal .dictAssign)
    let more ← entries? table rest
    some ((key ++ between ++ value) :: more)

end

/-- A construct with a head and a body. -/
def block? (table : TokenTable) (tokens : Render.BlockTokens) (head inner : String) :
    Option String := do
  let key ← table.get? (.flow tokens.key)
  let head ← enclose? table (.flow tokens.opening) (.flow tokens.closing) head
  let body ← enclose? table (.flow tokens.openBody) (.flow tokens.closeBody) inner
  some (key ++ head ++ body)

/-- The targets of an assignment, grouped if both marks have a text that is not empty. -/
def targets? (table : TokenTable) (texts : List String) : Option String := do
  let group ← join? table (.assignment .multipleAssignJoin) texts
  match table.get? (.assignment .multipleAssignBegin),
    table.get? (.assignment .multipleAssignEnd) with
  | some opening, some closing =>
    if opening = "" ∨ closing = "" then some group else some (opening ++ group ++ closing)
  | _, _ => some group

mutual

/-- The text of a statement that loses nothing. -/
def stmt? (table : TokenTable) : Stmt → Option String
  | .assign targets value => do
    let group ← targets? table (← exprs? table targets)
    let between ← table.get? (.assignment .assignKey)
    let value ← expr? table value
    some (group ++ between ++ value)
  | .expr value => expr? table value
  | .returns value => do
    let key ← (table.get? (.function .returnKey)).or (table.get? (.flow .returnKey))
    match value with
    | none => some key
    | some value => (expr? table value).map fun text => key ++ text
  | .functionDef definition => function? table definition
  | .forEach target iter body [] => do
    let target ← expr? table target
    let between ← table.get? (.flow .foreachSeparator)
    let iter ← expr? table iter
    block? table Render.forEachTokens (target ++ between ++ iter) (← body? table body)
  | .ifElse test body [] => do
    block? table Render.ifTokens (← expr? table test) (← body? table body)
  | .whileLoop test body [] => do
    block? table Render.whileTokens (← expr? table test) (← body? table body)
  | .forEach _ _ _ (_ :: _) | .ifElse _ _ (_ :: _) | .whileLoop _ _ (_ :: _) => none
  | .other _ => none

/-- The text of a function that loses nothing. -/
def function? (table : TokenTable) : FunctionDef → Option String
  | .mk name params body => do
    let define ← table.get? (.function .defineKey)
    let inner ← join? table (.function .argumentSeparator) params
    let body ← enclose? table (.function .openBody) (.function .closeBody) (← body? table body)
    some (define ++ name ++ "(" ++ inner ++ ")" ++ body)

/-- The text of a body: a bare expression in first place is not looked at. -/
def body? (table : TokenTable) : List Stmt → Option String
  | .expr _ :: rest => lines? table rest
  | body => lines? table body

/-- The text of statements, each on a line of its own. -/
def lines? (table : TokenTable) : List Stmt → Option String
  | [] => some ""
  | stmt :: rest => do
    let first ← stmt? table stmt
    let more ← lines? table rest
    some ("\n\t" ++ first ++ more)

end

end Strict

/-- The text of a node that loses nothing. -/
def Node.strict? (table : TokenTable) : Node → Option String
  | .expr value => Strict.expr? table value
  | .stmt value => Strict.stmt? table value
  | .function definition => Strict.function? table definition

namespace Render

/-! ### The value of an intact rendering -/

@[simp]
theorem intact?_require (table : TokenTable) (token : Token) :
    (require table token).intact? = table.get? token := by
  unfold require
  cases table.get? token <;> rfl

@[simp]
theorem intact?_requireOperator (table : TokenTable) (operator : OperatorToken) :
    (requireOperator table operator).intact? = table.get? (.operator operator) := by
  unfold requireOperator
  cases table.get? (.operator operator) <;> rfl

@[simp]
theorem intact?_join (table : TokenTable) (separator : Token) (texts : List String) :
    (join table separator texts).intact? = Strict.join? table separator texts := by
  match texts with
  | [] => rfl
  | [text] => simp [join, Strict.join?, String.join]
  | first :: second :: rest =>
      have several : ¬ (first :: second :: rest).length < 2 := by simp
      rw [Strict.join?, if_neg several]
      cases found : table.get? separator <;> simp [join, found]

@[simp]
theorem intact?_returnKey (table : TokenTable) :
    (returnKey table).intact? =
      (table.get? (.function .returnKey)).or (table.get? (.flow .returnKey)) := by
  unfold returnKey
  cases (table.get? (.function .returnKey)).or (table.get? (.flow .returnKey)) <;> rfl

@[simp]
theorem intact?_groupTargets (table : TokenTable) (texts : List String) :
    (groupTargets table texts).intact? = Strict.targets? table texts := by
  cases opening : table.get? (.assignment .multipleAssignBegin) with
  | none => simp [groupTargets, Strict.targets?, TokenTable.isSet, opening]
  | some before =>
      cases closing : table.get? (.assignment .multipleAssignEnd) with
      | none => simp [groupTargets, Strict.targets?, TokenTable.isSet, opening, closing]
      | some after =>
          by_cases first : before = "" <;> by_cases second : after = "" <;>
            simp [groupTargets, Strict.targets?, TokenTable.isSet, opening, closing, first, second]

@[simp]
theorem intact?_dropKeywords_cons (callee : String) (first : Syntax.Keyword)
    (rest : List Syntax.Keyword) : (dropKeywords callee (first :: rest)).intact? = none := rfl

@[simp]
theorem intact?_dropElse_cons (construct : String) (first : Stmt) (rest : List Stmt) :
    (dropElse construct (first :: rest)).intact? = none := rfl

private theorem operated (table : TokenTable) (operator : OperatorToken)
    (left right : Option String) :
    ((table.get? (.operator operator)).bind fun symbol => left.bind fun first =>
        right.bind fun second => (Pure.pure (first ++ symbol ++ second) : Draft String).intact?) =
      left.bind fun first => right.bind fun second => Strict.operate? table operator first second := by
  unfold Strict.operate?
  cases table.get? (.operator operator) <;> cases left <;> cases right <;> rfl

private theorem enclosed (table : TokenTable) (opening closing separator : Token)
    (texts : Option (List String)) :
    ((table.get? opening).bind fun before => (table.get? closing).bind fun after =>
        texts.bind fun texts => (Strict.join? table separator texts).bind fun inner =>
          (Pure.pure (before ++ inner ++ after) : Draft String).intact?) =
      texts.bind fun texts => (Strict.join? table separator texts).bind fun inner =>
        Strict.enclose? table opening closing inner := by
  unfold Strict.enclose?
  cases texts with
  | none => cases table.get? opening <;> cases table.get? closing <;> rfl
  | some texts =>
      cases table.get? opening <;> cases table.get? closing <;>
        cases Strict.join? table separator texts <;> simp

mutual

/-- An expression is rendered intact exactly to its strict text. -/
@[simp]
theorem intact?_renderExpr (table : TokenTable) :
    (expr : Expr) → (renderExpr table expr).intact? = Strict.expr? table expr
  | .call func args [] => by
      have callee := intact?_renderExpr table func
      have texts := intact?_renderTexts table args
      simp [renderExpr, Strict.expr?, dropKeywords, callee, texts]
  | .call func args (first :: rest) => by simp [renderExpr, Strict.expr?]
  | .name text => rfl
  | .constant value => rfl
  | .attribute value attr => by
      have receiver := intact?_renderExpr table value
      simp only [renderExpr, Strict.expr?, Draft.bind_eq, Draft.intact?_bind, receiver,
        Draft.intact?_settled, intact?_require]
      cases table.get? (.access .attribute) <;> cases Strict.expr? table value <;> rfl
  | .binaryOp left op right => by
      have first := intact?_renderExpr table left
      have second := intact?_renderExpr table right
      simp only [renderExpr, Strict.expr?, Draft.bind_eq, Draft.intact?_bind, first, second,
        Draft.intact?_settled, intact?_requireOperator]
      exact operated table (.ofBinary op) (Strict.expr? table left) (Strict.expr? table right)
  | .booleanOp op values => by
      have texts := intact?_renderTexts table values
      simp only [renderExpr, Strict.expr?, Draft.bind_eq, Draft.intact?_bind, texts,
        intact?_requireOperator]
      cases table.get? (.operator (.ofBoolean op)) <;> cases Strict.exprs? table values <;> rfl
  | .compare left [op] [right] => by
      have first := intact?_renderExpr table left
      have second := intact?_renderExpr table right
      simp only [renderExpr, Strict.expr?, Draft.bind_eq, Draft.intact?_bind, first, second,
        Draft.intact?_settled, intact?_requireOperator]
      exact operated table (.ofCompare op) (Strict.expr? table left) (Strict.expr? table right)
  | .compare left [] comparators => rfl
  | .compare left (_ :: _ :: _) comparators => rfl
  | .compare left [_] [] => rfl
  | .compare left [_] (_ :: _ :: _) => rfl
  | .subscript value index => by
      have receiver := intact?_renderExpr table value
      have key := intact?_renderExpr table index
      simp only [renderExpr, Strict.expr?, Strict.enclose?, Draft.bind_eq, Draft.intact?_bind, receiver,
        key, Draft.intact?_settled, intact?_require]
      cases table.get? (.access .subscriptOpen) <;> cases table.get? (.access .subscriptClose) <;>
        cases Strict.expr? table value <;> cases Strict.expr? table index <;>
          simp [String.append_assoc]
  | .dict entries => by
      have texts := intact?_renderEntries table entries
      simp only [renderExpr, Strict.expr?, Draft.bind_eq, Draft.intact?_bind, texts,
        intact?_require, intact?_join]
      exact enclosed table (.literal .dictBegin) (.literal .dictEnd) (.literal .dictJoin)
        (Strict.entries? table entries)
  | .list items => by
      have texts := intact?_renderTexts table items
      simp only [renderExpr, Strict.expr?, Draft.bind_eq, Draft.intact?_bind, texts,
        intact?_require, intact?_join]
      exact enclosed table (.literal .listBegin) (.literal .listEnd) (.literal .listJoin)
        (Strict.exprs? table items)
  | .tuple items => by
      have texts := intact?_renderTexts table items
      simp only [renderExpr, Strict.expr?, Draft.bind_eq, Draft.intact?_bind, texts,
        intact?_require, intact?_join]
      exact enclosed table (.literal .tupleBegin) (.literal .tupleEnd) (.literal .tupleJoin)
        (Strict.exprs? table items)
  | .other kind => rfl

@[simp]
theorem intact?_renderTexts (table : TokenTable) :
    (exprs : List Expr) → (renderTexts table exprs).intact? = Strict.exprs? table exprs
  | [] => rfl
  | expr :: rest => by
      have first := intact?_renderExpr table expr
      have more := intact?_renderTexts table rest
      simp [renderTexts, Strict.exprs?, first, more]

@[simp]
theorem intact?_renderEntries (table : TokenTable) :
    (entries : List DictEntry) → (renderEntries table entries).intact? = Strict.entries? table entries
  | [] => rfl
  | .spread value :: rest => by simp [renderEntries, Strict.entries?]
  | .keyed key value :: rest => by
      have first := intact?_renderExpr table key
      have second := intact?_renderExpr table value
      have more := intact?_renderEntries table rest
      simp only [renderEntries, Strict.entries?, Draft.bind_eq, Draft.intact?_bind, first, second,
        more, Draft.intact?_settled, intact?_require]
      cases table.get? (.literal .dictAssign) <;> cases Strict.expr? table key <;>
        cases Strict.expr? table value <;> rfl

end

private theorem intact?_block (table : TokenTable) (tokens : BlockTokens) (head : String)
    (body : Option String) :
    ((blockFrame table tokens head).intact?.bind fun ends => body.bind fun inner =>
        some (ends.1 ++ inner ++ ends.2)) =
      body.bind fun inner => Strict.block? table tokens head inner := by
  cases body with
  | none => simp
  | some inner =>
  simp only [blockFrame, Strict.block?, Strict.enclose?, Draft.bind_eq, Draft.intact?_bind,
    Draft.pure_eq, Draft.intact?_pure, intact?_require, Option.bind_some]
  -- Both sides ask for the tokens in the same order.
  cases table.get? (.flow tokens.key) with
  | none => rfl
  | some key =>
  cases table.get? (.flow tokens.opening) with
  | none => rfl
  | some opening =>
  cases table.get? (.flow tokens.closing) with
  | none => rfl
  | some closing =>
  cases table.get? (.flow tokens.openBody) with
  | none => rfl
  | some openBody =>
  cases table.get? (.flow tokens.closeBody) with
  | none => rfl
  | some closeBody => simp [String.append_assoc]

private theorem intact?_lines_cons {table : TokenTable} {stmt : Stmt} {rest : List Stmt}
    (first : (renderStmt table stmt).intact? = Strict.stmt? table stmt)
    (more : (renderLines table rest).intact? = Strict.lines? table rest) :
    (renderLines table (stmt :: rest)).intact? = Strict.lines? table (stmt :: rest) := by
  simp [renderLines, Strict.lines?, first, more]

theorem Strict.body?_cons (table : TokenTable) (stmt : Stmt) (rest : List Stmt) :
    Strict.body? table (stmt :: rest) =
      if stmt.isBare then Strict.lines? table rest else Strict.lines? table (stmt :: rest) := by
  cases stmt <;> simp [Strict.body?, Stmt.isBare]

mutual

/-- A statement is rendered intact exactly to its strict text. -/
@[simp]
theorem intact?_renderStmt (table : TokenTable) :
    (stmt : Stmt) → (renderStmt table stmt).intact? = Strict.stmt? table stmt
  | .assign targets value => by
      simp only [renderStmt, Strict.stmt?, Draft.bind_eq, Draft.intact?_bind, intact?_renderExpr,
        intact?_renderTexts, Draft.intact?_settled, intact?_require, intact?_groupTargets]
      cases table.get? (.assignment .assignKey) with
      | none => simp
      | some between => rfl
  | .expr value => by rw [renderStmt, Strict.stmt?, intact?_renderExpr]
  | .returns none => by simp [renderStmt, Strict.stmt?]
  | .returns (some value) => by
      simp only [renderStmt, Strict.stmt?, Draft.bind_eq, Draft.intact?_bind, intact?_renderExpr,
        Draft.intact?_settled, intact?_returnKey]
      cases Strict.expr? table value <;> simp
  | .functionDef definition => by
      rw [renderStmt, Strict.stmt?, intact?_renderFunction table definition]
  | .forEach target iter body [] => by
      have inner := intact?_renderBody table body
      simp only [renderStmt, Strict.stmt?, Draft.bind_eq, Draft.intact?_bind, intact?_renderExpr,
        Draft.intact?_settled, intact?_require, Draft.pure_eq, Draft.intact?_pure, inner, dropElse,
        intact?_block]
      cases table.get? (.flow .foreachSeparator) <;> cases Strict.expr? table target <;> rfl
  | .ifElse test body [] => by
      have inner := intact?_renderBody table body
      simp [renderStmt, Strict.stmt?, dropElse, inner, intact?_block]
  | .whileLoop test body [] => by
      have inner := intact?_renderBody table body
      simp [renderStmt, Strict.stmt?, dropElse, inner, intact?_block]
  | .forEach target iter body (first :: rest) => by simp [renderStmt, Strict.stmt?]
  | .ifElse test body (first :: rest) => by simp [renderStmt, Strict.stmt?]
  | .whileLoop test body (first :: rest) => by simp [renderStmt, Strict.stmt?]
  | .other kind => by simp [renderStmt, Strict.stmt?]

@[simp]
theorem intact?_renderFunction (table : TokenTable) :
    (definition : FunctionDef) →
      (renderFunction table definition).intact? = Strict.function? table definition
  | .mk name params body => by
      have inner := intact?_renderBody table body
      simp only [renderFunction, functionFrame, Strict.function?, Strict.enclose?, Draft.bind_eq,
        Draft.intact?_bind, Draft.pure_eq, Draft.intact?_pure, intact?_require, intact?_join, inner]
      cases table.get? (.function .defineKey) with
      | none => rfl
      | some define =>
      cases Strict.join? table (.function .argumentSeparator) params with
      | none => simp
      | some inner =>
      cases Strict.body? table body with
      | none => simp
      | some lines =>
      cases table.get? (.function .openBody) with
      | none => rfl
      | some opening =>
      cases table.get? (.function .closeBody) with
      | none => rfl
      | some closing => simp [String.append_assoc]

@[simp]
theorem intact?_renderBody (table : TokenTable) :
    (body : List Stmt) → (renderBody table body).intact? = Strict.body? table body
  | [] => by simp [renderBody_nil, Strict.body?, Strict.lines?]
  | stmt :: rest => by
      have more := intact?_renderLines table rest
      rw [renderBody_cons, Strict.body?_cons, apply_ite Draft.intact?, more,
        intact?_lines_cons (intact?_renderStmt table stmt) more]

@[simp]
theorem intact?_renderLines (table : TokenTable) :
    (body : List Stmt) → (renderLines table body).intact? = Strict.lines? table body
  | [] => by simp [renderLines, Strict.lines?]
  | stmt :: rest =>
      intact?_lines_cons (intact?_renderStmt table stmt) (intact?_renderLines table rest)

end

end Render

/-- A node is rendered intact exactly to its strict text. -/
theorem Node.intact?_render (table : TokenTable) (node : Node) :
    (node.render table).intact? = node.strict? table := by
  cases node with
  | expr value => exact Render.intact?_renderExpr table value
  | stmt value => exact Render.intact?_renderStmt table value
  | function definition => exact Render.intact?_renderFunction table definition

/-- Without a strict text there is a record, which is no mere note. -/
theorem respell_not_clean (table : TokenTable) (node : Node) (lost : node.strict? table = none) :
    (respell table node).2.isClean ≠ true := by
  rw [Ne, Render.Draft.isClean_iff_eq_nil (respell_telling table node)]
  exact Render.Draft.settle_records_ne_nil ((node.intact?_render table).trans lost)

/-- With a strict text respelling gives that text and records nothing. -/
theorem respell_of_strict {table : TokenTable} {node : Node} {text : String}
    (whole : node.strict? table = some text) : respell table node = (.rendered text, []) :=
  Render.Draft.settle_of_intact ((node.intact?_render table).trans whole)

/-- Respelling is clean exactly if the node has a strict text; the text is then what is rendered,
and nothing at all is recorded. -/
theorem respell_clean_iff_strict (table : TokenTable) (node : Node) :
    ((respell table node).2.isClean = true ↔ ∃ text, node.strict? table = some text) ∧
      ∀ text, node.strict? table = some text ↔ respell table node = (.rendered text, []) := by
  cases strict : node.strict? table with
  | none =>
      have unclean := respell_not_clean table node strict
      refine ⟨by simpa using unclean, fun text => ⟨by simp, ?_⟩⟩
      intro rendered
      simp [rendered, Diagnostics.isClean] at unclean
  | some whole =>
      have rendered := respell_of_strict strict
      refine ⟨by simp [rendered, Diagnostics.isClean], fun text => ?_⟩
      simp [rendered]

end Respell
