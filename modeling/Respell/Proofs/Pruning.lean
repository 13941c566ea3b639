import Respell.Proofs.Records

/-!
Parts that are never rendered have no influence on the rendering. Pruning a node removes them at every
depth: named arguments, alternatives and entries without a key go, and a bare expression in first
place of a body becomes a given one. Only what is recorded tells a node from the pruned one, not its
outcome.
-/

set_option autoImplicit false

namespace Respell

open Syntax (DictEntry Expr FunctionDef Keyword Stmt)

namespace Syntax

mutual

/-- An expression without named arguments and without dictionary entries that have no key. -/
def Expr.pruned : Expr → Expr
  | .call func args _ => .call func.pruned (Expr.prunedAll args) []
  | .name text => .name text
  | .constant value => .constant value
  | .attribute value attr => .attribute value.pruned attr
  | .binaryOp left op right => .binaryOp left.pruned op right.pruned
  | .booleanOp op values => .booleanOp op (Expr.prunedAll values)
  | .compare left ops comparators => .compare left.pruned ops (Expr.prunedAll comparators)
  | .subscript value index => .subscript value.pruned index.pruned
  | .dict entries => .dict (DictEntry.prunedAll entries)
  | .list items => .list (Expr.prunedAll items)
  | .tuple items => .tuple (Expr.prunedAll items)
  | .other kind => .other kind

/-- Pruned expressions in order. -/
def Expr.prunedAll : List Expr → List Expr
  | [] => []
  | expr :: rest => expr.pruned :: Expr.prunedAll rest

/-- Entries that have a key, pruned. -/
def DictEntry.prunedAll : List DictEntry → List DictEntry
  | [] => []
  | .spread _ :: rest => DictEntry.prunedAll rest
  | .keyed key value :: rest => .keyed key.pruned value.pruned :: DictEntry.prunedAll rest

end

mutual

/-- A statement without alternatives, its expressions pruned; `filler` stands for each bare expression
in first place of a body. -/
def Stmt.pruned (filler : Expr) : Stmt → Stmt
  | .assign targets value => .assign (Expr.prunedAll targets) value.pruned
  | .expr value => .expr value.pruned
  | .returns none => .returns none
  | .returns (some value) => .returns (some value.pruned)
  | .functionDef definition => .functionDef (definition.pruned filler)
  | .forEach target iter body _ =>
    .forEach target.pruned iter.pruned (Stmt.prunedBody filler body) []
  | .ifElse test body _ => .ifElse test.pruned (Stmt.prunedBody filler body) []
  | .whileLoop test body _ => .whileLoop test.pruned (Stmt.prunedBody filler body) []
  | .other kind => .other kind

/-- A function with its body pruned. -/
def FunctionDef.pruned (filler : Expr) : FunctionDef → FunctionDef
  | .mk name params body => .mk name params (Stmt.prunedBody filler body)

/-- A body with the given expression in place of a bare one at its start. -/
def Stmt.prunedBody (filler : Expr) : List Stmt → List Stmt
  | .expr _ :: rest => .expr filler :: Stmt.prunedAll filler rest
  | body => Stmt.prunedAll filler body

/-- Pruned statements in order. -/
def Stmt.prunedAll (filler : Expr) : List Stmt → List Stmt
  | [] => []
  | stmt :: rest => stmt.pruned filler :: Stmt.prunedAll filler rest

end

end Syntax

/-- A node without the parts that are never rendered. -/
def Node.pruned (filler : Expr) : Node → Node
  | .expr value => .expr value.pruned
  | .stmt value => .stmt (value.pruned filler)
  | .function definition => .function (definition.pruned filler)

namespace Render

variable {α β : Type}

namespace Draft

/-- Drafts with the same result or the same fault, whatever they recorded. -/
def Matches (first second : Draft α) : Prop := first.result = second.result

namespace Matches

theorem refl (draft : Draft α) : Matches draft draft := Eq.refl draft.result

theorem bind {first second : Draft α} {next after : α → Draft β} (start : Matches first second)
    (rest : ∀ value, Matches (next value) (after value)) :
    Matches (first.bind next) (second.bind after) := by
  unfold Matches Draft.bind
  rw [start]
  cases second.result with
  | error fault => rfl
  | ok value => exact rest value

theorem settled {first second : Draft String} (same : Matches first second) :
    Matches first.settled second.settled := by
  unfold Matches Draft.settled Draft.settle
  rw [same]
  cases second.result <;> rfl

/-- A record changes no result. -/
theorem recorded (diagnostic : Diagnostic) (draft : Draft α) :
    Matches draft ((record diagnostic).bind fun _ => draft) := Eq.refl draft.result

/-- The outcome of a draft depends on its result only. -/
theorem settle {first second : Draft String} (same : Matches first second) :
    first.settle.1 = second.settle.1 := by
  unfold Draft.settle
  rw [same]
  cases second.result <;> rfl

end Matches

end Draft

open Draft (Matches)

theorem matches_dropKeywords (callee : String) (keywords : List Keyword) :
    Matches (dropKeywords callee []) (dropKeywords callee keywords) := by
  cases keywords <;> rfl

theorem matches_dropElse (construct : String) (orelse : List Stmt) :
    Matches (dropElse construct []) (dropElse construct orelse) := by
  cases orelse <;> rfl

theorem length_prunedAll (exprs : List Expr) : (Expr.prunedAll exprs).length = exprs.length := by
  induction exprs with
  | nil => rfl
  | cons expr rest ih => rw [Expr.prunedAll, List.length_cons, List.length_cons, ih]

theorem isBare_pruned (filler : Expr) (stmt : Stmt) :
    (stmt.pruned filler).isBare = stmt.isBare := by
  cases stmt with
  | returns value => cases value <;> simp [Stmt.pruned, Stmt.isBare]
  | _ => simp [Stmt.pruned, Stmt.isBare]

theorem prunedBody_cons (filler : Expr) (stmt : Stmt) (rest : List Stmt) :
    Stmt.prunedBody filler (stmt :: rest) =
      if stmt.isBare then .expr filler :: Stmt.prunedAll filler rest
      else Stmt.prunedAll filler (stmt :: rest) := by
  cases stmt <;> simp [Stmt.prunedBody, Stmt.isBare]

section Trees

variable (table : TokenTable)

mutual

theorem matches_renderExpr :
    (expr : Expr) → Matches (renderExpr table expr.pruned) (renderExpr table expr)
  | .call func args keywords => by
      rw [Expr.pruned, renderExpr, renderExpr]
      exact (matches_renderExpr func).settled.bind fun callee =>
        (matches_renderTexts args).bind fun _ => (Matches.refl _).bind fun _ =>
          (matches_dropKeywords callee keywords).bind fun _ => .refl _
  | .name text => .refl _
  | .constant value => .refl _
  | .attribute value attr => by
      rw [Expr.pruned, renderExpr, renderExpr]
      exact (Matches.refl _).bind fun _ => (matches_renderExpr value).settled.bind fun _ => .refl _
  | .binaryOp left op right => by
      rw [Expr.pruned, renderExpr, renderExpr]
      exact (Matches.refl _).bind fun _ => (matches_renderExpr left).settled.bind fun _ =>
        (matches_renderExpr right).settled.bind fun _ => .refl _
  | .booleanOp op values => by
      rw [Expr.pruned, renderExpr, renderExpr]
      exact (Matches.refl _).bind fun _ => (matches_renderTexts values).bind fun _ => .refl _
  | .compare left [op] [right] => by
      rw [Expr.pruned, Expr.prunedAll, Expr.prunedAll, renderExpr, renderExpr]
      exact (Matches.refl _).bind fun _ => (matches_renderExpr left).settled.bind fun _ =>
        (matches_renderExpr right).settled.bind fun _ => .refl _
  | .compare left [] comparators | .compare left (_ :: _ :: _) comparators => by
      simp only [Expr.pruned, renderExpr, length_prunedAll]
      exact .refl _
  | .compare left [_] [] => .refl _
  | .compare left [_] (_ :: _ :: _) => by
      simp only [Expr.pruned, Expr.prunedAll, renderExpr, List.length_cons, length_prunedAll]
      exact .refl _
  | .subscript value index => by
      rw [Expr.pruned, renderExpr, renderExpr]
      exact (Matches.refl _).bind fun _ => (Matches.refl _).bind fun _ =>
        (matches_renderExpr value).settled.bind fun _ =>
          (matches_renderExpr index).settled.bind fun _ => .refl _
  | .dict entries => by
      rw [Expr.pruned, renderExpr, renderExpr]
      exact (Matches.refl _).bind fun _ => (Matches.refl _).bind fun _ =>
        (matches_renderEntries entries).bind fun _ => .refl _
  | .list items | .tuple items => by
      rw [Expr.pruned, renderExpr, renderExpr]
      exact (Matches.refl _).bind fun _ => (Matches.refl _).bind fun _ =>
        (matches_renderTexts items).bind fun _ => .refl _
  | .other kind => .refl _

theorem matches_renderTexts :
    (exprs : List Expr) → Matches (renderTexts table (Expr.prunedAll exprs)) (renderTexts table exprs)
  | [] => .refl _
  | expr :: rest => by
      rw [Expr.prunedAll, renderTexts, renderTexts]
      exact (matches_renderExpr expr).settled.bind fun _ =>
        (matches_renderTexts rest).bind fun _ => .refl _

/-- An entry without a key leaves a record and no text, so the texts to join are the same. -/
theorem matches_renderEntries :
    (entries : List DictEntry) →
      Matches (renderEntries table (DictEntry.prunedAll entries)) (renderEntries table entries)
  | [] => .refl _
  | .spread value :: rest => by
      rw [DictEntry.prunedAll, renderEntries]
      exact (matches_renderEntries rest).trans (Matches.recorded _ _)
  | .keyed key value :: rest => by
      rw [DictEntry.prunedAll, renderEntries, renderEntries]
      exact (Matches.refl _).bind fun _ => (matches_renderExpr key).settled.bind fun _ =>
        (matches_renderExpr value).settled.bind fun _ =>
          (matches_renderEntries rest).bind fun _ => .refl _

end

variable (filler : Expr)

variable {table filler} in
private theorem matches_lines_cons {stmt : Stmt} {rest : List Stmt}
    (first : Matches (renderStmt table (stmt.pruned filler)) (renderStmt table stmt))
    (more : Matches (renderLines table (Stmt.prunedAll filler rest)) (renderLines table rest)) :
    Matches (renderLines table (Stmt.prunedAll filler (stmt :: rest)))
      (renderLines table (stmt :: rest)) := by
  rw [Stmt.prunedAll, renderLines, renderLines]
  exact first.settled.bind fun _ => more.bind fun _ => .refl _

mutual

theorem matches_renderStmt :
    (stmt : Stmt) → Matches (renderStmt table (stmt.pruned filler)) (renderStmt table stmt)
  | .assign targets value => by
      rw [Stmt.pruned, renderStmt, renderStmt]
      exact (Matches.refl _).bind fun _ => (matches_renderTexts table targets).bind fun _ =>
        (Matches.refl _).bind fun _ => (matches_renderExpr table value).settled.bind fun _ => .refl _
  | .expr value => by
      rw [Stmt.pruned, renderStmt, renderStmt]
      exact matches_renderExpr table value
  | .returns none => by
      rw [Stmt.pruned]
      exact .refl _
  | .returns (some value) => by
      rw [Stmt.pruned, renderStmt, renderStmt]
      exact (Matches.refl _).bind fun _ => (matches_renderExpr table value).settled.bind fun _ =>
        .refl _
  | .functionDef definition => by
      rw [Stmt.pruned, renderStmt, renderStmt]
      exact matches_renderFunction definition
  | .forEach target iter body orelse => by
      rw [Stmt.pruned, renderStmt, renderStmt]
      exact (Matches.refl _).bind fun _ => (matches_dropElse _ orelse).bind fun _ =>
        (matches_renderExpr table target).settled.bind fun _ =>
          (matches_renderExpr table iter).settled.bind fun _ =>
            (Matches.refl _).bind fun _ => (matches_renderBody body).bind fun _ => .refl _
  | .ifElse test body orelse | .whileLoop test body orelse => by
      rw [Stmt.pruned, renderStmt, renderStmt]
      exact (matches_dropElse _ orelse).bind fun _ =>
        (matches_renderExpr table test).settled.bind fun _ =>
          (Matches.refl _).bind fun _ => (matches_renderBody body).bind fun _ => .refl _
  | .other kind => by
      rw [Stmt.pruned]
      exact .refl _

theorem matches_renderFunction :
    (definition : FunctionDef) →
      Matches (renderFunction table (definition.pruned filler)) (renderFunction table definition)
  | .mk name params body => by
      rw [FunctionDef.pruned, renderFunction, renderFunction]
      exact (Matches.refl _).bind fun _ => (matches_renderBody body).bind fun _ => .refl _

theorem matches_renderBody :
    (body : List Stmt) →
      Matches (renderBody table (Stmt.prunedBody filler body)) (renderBody table body)
  | [] => by
      rw [Stmt.prunedBody, Stmt.prunedAll]
      · exact .refl _
      · simp
  | stmt :: rest => by
      have more := matches_renderLines rest
      rw [prunedBody_cons, renderBody_cons]
      split
      next =>
          rw [renderBody]
          exact more
      next kept =>
          have all := matches_lines_cons (matches_renderStmt stmt) more
          rw [Stmt.prunedAll] at all ⊢
          rwa [renderBody_cons, isBare_pruned, if_neg kept]

theorem matches_renderLines :
    (body : List Stmt) →
      Matches (renderLines table (Stmt.prunedAll filler body)) (renderLines table body)
  | [] => by
      rw [Stmt.prunedAll]
      exact .refl _
  | stmt :: rest => matches_lines_cons (matches_renderStmt stmt) (matches_renderLines rest)

end

end Trees

end Render

theorem Node.matches_render (table : TokenTable) (filler : Expr) (node : Node) :
    ((node.pruned filler).render table).Matches (node.render table) := by
  cases node with
  | expr value => exact Render.matches_renderExpr table value
  | stmt value => exact Render.matches_renderStmt table filler value
  | function definition => exact Render.matches_renderFunction table filler definition

/-- Two nodes that are equal once pruned have the same outcome with every table: the same text, or the
same kind under which they are unsupported. -/
theorem respell_eq_of_pruned_eq (table : TokenTable) (filler : Expr) {first second : Node}
    (same : first.pruned filler = second.pruned filler) :
    (respell table first).1 = (respell table second).1 := by
  calc (respell table first).1
      = (respell table (first.pruned filler)).1 := (first.matches_render table filler).settle.symm
    _ = (respell table (second.pruned filler)).1 := by rw [same]
    _ = (respell table second).1 := (second.matches_render table filler).settle

/-- A function that says nothing but what is rendered. -/
def bareFetch : FunctionDef :=
  .mk "fetch" ["path"] [.expr (.name "note"),
    .ifElse (.name "path") [.expr (.name "note"),
      .returns (some (.call (.name "get") [.dict [.keyed (.name "at") (.name "path")]] []))] []]

/-- The same function with texts at the start of its bodies, an alternative, a named argument and an
entry without a key, some of which have no rendering. -/
def wordyFetch : FunctionDef :=
  .mk "fetch" ["path"] [.expr (.constant (.str "Fetches a path.")),
    .ifElse (.name "path") [.expr (.other "Yield"),
      .returns (some (.call (.name "get")
        [.dict [.spread (.other "Lambda"), .keyed (.name "at") (.name "path")]]
        [.named "retry" (.other "Await")]))]
      [.other "Raise", .returns none]]

/-- Tokens of functions, conditionals and dictionaries, without any separator. -/
def wordTokens : TokenTable :=
  .ofList [(.function .defineKey, "function "), (.function .openBody, " begin"),
    (.function .closeBody, " end"), (.function .returnKey, "return "), (.flow .ifKey, "if "),
    (.flow .ifBegin, ""), (.flow .ifEnd, " then"), (.flow .ifOpenBody, ""),
    (.flow .ifCloseBody, " fi"), (.literal .dictBegin, "["), (.literal .dictEnd, "]"),
    (.literal .dictAssign, ": ")]

/-- Whatever is dropped from the longer function, its text is that of the short one. -/
theorem respell_eq_of_pruned_eq_wordy :
    (Node.function wordyFetch).pruned (.name "note") =
        (Node.function bareFetch).pruned (.name "note") ∧
      respell wordTokens (.function bareFetch) =
        (.rendered "function fetch(path) begin\n\tif path then\n\treturn get([at: path]) fi end",
          []) ∧
      (respell wordTokens (.function wordyFetch)).2.length = 3 ∧
      (respell wordTokens (.function wordyFetch)).1 =
        .rendered "function fetch(path) begin\n\tif path then\n\treturn get([at: path]) fi end" := by
  have same : (Node.function wordyFetch).pruned (.name "note") =
      (Node.function bareFetch).pruned (.name "note") := by cbv
  have bare : respell wordTokens (.function bareFetch) =
      (.rendered "function fetch(path) begin\n\tif path then\n\treturn get([at: path]) fi end",
        []) := by cbv
  have wordy := respell_eq_of_pruned_eq wordTokens (.name "note") same
  rw [bare] at wordy
  exact ⟨same, bare, by cbv, wordy⟩

end Respell
