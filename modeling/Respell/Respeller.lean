import Respell.Render.Session

/-!
Respelling of expressions, statements and functions, one by one or by a respeller that collects the
diagnostics of several.
-/

set_option autoImplicit false

namespace Respell

open Syntax (Expr FunctionDef Stmt)

/-- A node that can be respelled. -/
inductive Node
  | expr (value : Expr)
  | stmt (value : Stmt)
  | function (definition : FunctionDef)

/-- Renders a node. -/
def Node.render (table : TokenTable) : Node → Render.Draft String
  | .expr value => Render.renderExpr table value
  | .stmt value => Render.renderStmt table value
  | .function definition => Render.renderFunction table definition

/-- Renders a node into a collector. -/
def Node.collect (table : TokenTable) : Node → Render.Session String
  | .expr value => .expr table value
  | .stmt value => .stmt table value
  | .function definition => .function table definition

/-- Respells a node. -/
def respell (table : TokenTable) (node : Node) : Rendering × Diagnostics :=
  (node.render table).settle

/-- Respells an expression. -/
def respellExpr (table : TokenTable) (expr : Expr) : Rendering × Diagnostics :=
  respell table (.expr expr)

/-- Respells a statement. -/
def respellStmt (table : TokenTable) (stmt : Stmt) : Rendering × Diagnostics :=
  respell table (.stmt stmt)

/-- Respells a function. -/
def respellFunction (table : TokenTable) (definition : FunctionDef) : Rendering × Diagnostics :=
  respell table (.function definition)

/-- A respeller: a token table and the diagnostics so far. -/
structure Respeller where
  /-- The token table. -/
  table : TokenTable
  /-- Diagnostics in order. -/
  diagnostics : Diagnostics

namespace Respeller

/-- A respeller that has recorded nothing. -/
def new (table : TokenTable) : Respeller := ⟨table, []⟩

/-- Respells one node, with the diagnostics so far as its collector. -/
def step (respeller : Respeller) (node : Node) : Rendering × Respeller :=
  let (rendering, records) := (node.collect respeller.table).settle.run respeller.diagnostics
  (rendering, { respeller with diagnostics := records })

/-- Respells nodes in order. -/
def run (respeller : Respeller) : List Node → List Rendering × Respeller
  | [] => ([], respeller)
  | node :: rest =>
    let (first, respeller) := respeller.step node
    let (more, respeller) := respeller.run rest
    (first :: more, respeller)

end Respeller

end Respell
