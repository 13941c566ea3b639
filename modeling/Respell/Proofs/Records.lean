import Respell.Respeller
import Respell.Proofs.Draft

/-!
What rendering records. Whatever the tree and the table, every record is an error or a warning about
a dropped part, so no record is silent, and none is about the files and modules of a package.
-/

set_option autoImplicit false

namespace Respell

open Syntax (DictEntry Expr FunctionDef Stmt)

/-- Whether a statement is a bare expression. -/
def Syntax.Stmt.isBare : Stmt → Bool
  | .expr _ => true
  | _ => false

namespace Render

theorem renderBody_nil (table : TokenTable) : renderBody table [] = .pure "" := by
  rw [renderBody, renderLines]
  simp

/-- A bare expression in first place is left out of a body; the other statements are its lines. -/
theorem renderBody_cons (table : TokenTable) (stmt : Stmt) (rest : List Stmt) :
    renderBody table (stmt :: rest) =
      if stmt.isBare then renderLines table rest else renderLines table (stmt :: rest) := by
  cases stmt <;> simp [renderBody, Stmt.isBare]

theorem candid_require (table : TokenTable) (token : Token) : (require table token).Candid := by
  unfold require
  split
  · exact .pure _
  · exact .fail rfl

theorem candid_requireOperator (table : TokenTable) (operator : OperatorToken) :
    (requireOperator table operator).Candid := by
  unfold requireOperator
  split
  · exact .pure _
  · exact .fail rfl

theorem candid_join (table : TokenTable) (separator : Token) (texts : List String) :
    (join table separator texts).Candid := by
  unfold join
  split
  · exact .pure _
  · exact .pure _
  · exact (candid_require table separator).bind fun _ => .pure _

theorem candid_returnKey (table : TokenTable) : (returnKey table).Candid := by
  unfold returnKey
  split
  · exact .pure _
  · exact .fail rfl

theorem candid_dropKeywords (callee : String) (keywords : List Syntax.Keyword) :
    (dropKeywords callee keywords).Candid := by
  unfold dropKeywords
  split
  · exact .pure _
  · exact .record (.inr ⟨rfl, rfl⟩) rfl

theorem candid_dropElse (construct : String) (orelse : List Stmt) :
    (dropElse construct orelse).Candid := by
  unfold dropElse
  split
  · exact .pure _
  · exact .record (.inr ⟨rfl, rfl⟩) rfl

theorem candid_groupTargets (table : TokenTable) (texts : List String) :
    (groupTargets table texts).Candid := by
  refine (candid_join table _ texts).bind fun group => ?_
  split
  · exact (candid_require table _).bind fun _ => (candid_require table _).bind fun _ => .pure _
  · exact .pure _

theorem candid_blockFrame (table : TokenTable) (tokens : BlockTokens) (head : String) :
    (blockFrame table tokens head).Candid :=
  (candid_require table _).bind fun _ => (candid_require table _).bind fun _ =>
    (candid_require table _).bind fun _ => (candid_require table _).bind fun _ =>
      (candid_require table _).bind fun _ => .pure _

theorem candid_functionFrame (table : TokenTable) (name : String) (params : List String) :
    (functionFrame table name params).Candid :=
  (candid_require table _).bind fun _ => (candid_require table _).bind fun _ =>
    (candid_require table _).bind fun _ => (candid_join table _ params).bind fun _ => .pure _

mutual

theorem candid_renderExpr (table : TokenTable) :
    (expr : Expr) → (renderExpr table expr).Candid
  | .call func args keywords => by
      rw [renderExpr]
      exact (candid_renderExpr table func).settled.bind fun callee =>
        (candid_renderTexts table args).bind fun texts =>
          (candid_join table _ texts).bind fun _ =>
            (candid_dropKeywords callee keywords).bind fun _ => .pure _
  | .name text => .pure text
  | .constant value => .pure _
  | .attribute value attr => by
      rw [renderExpr]
      exact (candid_require table _).bind fun _ =>
        (candid_renderExpr table value).settled.bind fun _ => .pure _
  | .binaryOp left op right => by
      rw [renderExpr]
      exact (candid_requireOperator table _).bind fun _ =>
        (candid_renderExpr table left).settled.bind fun _ =>
          (candid_renderExpr table right).settled.bind fun _ => .pure _
  | .booleanOp op values => by
      rw [renderExpr]
      exact (candid_requireOperator table _).bind fun _ =>
        (candid_renderTexts table values).bind fun _ => .pure _
  | .compare left [op] [right] => by
      rw [renderExpr]
      exact (candid_requireOperator table _).bind fun _ =>
        (candid_renderExpr table left).settled.bind fun _ =>
          (candid_renderExpr table right).settled.bind fun _ => .pure _
  | .compare _ [] _ | .compare _ (_ :: _ :: _) _ | .compare _ [_] [] |
    .compare _ [_] (_ :: _ :: _) => .fail rfl
  | .subscript value index => by
      rw [renderExpr]
      exact (candid_require table _).bind fun _ => (candid_require table _).bind fun _ =>
        (candid_renderExpr table value).settled.bind fun _ =>
          (candid_renderExpr table index).settled.bind fun _ => .pure _
  | .dict entries => by
      rw [renderExpr]
      exact (candid_require table _).bind fun _ => (candid_require table _).bind fun _ =>
        (candid_renderEntries table entries).bind fun texts =>
          (candid_join table _ texts).bind fun _ => .pure _
  | .list items | .tuple items => by
      rw [renderExpr]
      exact (candid_require table _).bind fun _ => (candid_require table _).bind fun _ =>
        (candid_renderTexts table items).bind fun texts =>
          (candid_join table _ texts).bind fun _ => .pure _
  | .other kind => .fail rfl

theorem candid_renderTexts (table : TokenTable) :
    (exprs : List Expr) → (renderTexts table exprs).Candid
  | [] => .pure []
  | expr :: rest => by
      rw [renderTexts]
      exact (candid_renderExpr table expr).settled.bind fun _ =>
        (candid_renderTexts table rest).bind fun _ => .pure _

theorem candid_renderEntries (table : TokenTable) :
    (entries : List DictEntry) → (renderEntries table entries).Candid
  | [] => .pure []
  | .spread _ :: rest => by
      rw [renderEntries]
      exact (Draft.Candid.record (.inl rfl) rfl).bind fun _ => candid_renderEntries table rest
  | .keyed key value :: rest => by
      rw [renderEntries]
      exact (candid_require table _).bind fun _ =>
        (candid_renderExpr table key).settled.bind fun _ =>
          (candid_renderExpr table value).settled.bind fun _ =>
            (candid_renderEntries table rest).bind fun _ => .pure _

end

private theorem candid_lines_cons {table : TokenTable} {stmt : Stmt} {rest : List Stmt}
    (first : (renderStmt table stmt).Candid) (more : (renderLines table rest).Candid) :
    (renderLines table (stmt :: rest)).Candid := by
  rw [renderLines]
  exact first.settled.bind fun _ => more.bind fun _ => .pure _

mutual

theorem candid_renderStmt (table : TokenTable) :
    (stmt : Stmt) → (renderStmt table stmt).Candid
  | .assign targets value => by
      rw [renderStmt]
      exact (candid_require table _).bind fun _ =>
        (candid_renderTexts table targets).bind fun texts =>
          (candid_groupTargets table texts).bind fun _ =>
            (candid_renderExpr table value).settled.bind fun _ => .pure _
  | .expr value => by
      rw [renderStmt]
      exact candid_renderExpr table value
  | .returns none => by
      rw [renderStmt]
      exact candid_returnKey table
  | .returns (some value) => by
      rw [renderStmt]
      exact (candid_returnKey table).bind fun _ =>
        (candid_renderExpr table value).settled.bind fun _ => .pure _
  | .functionDef definition => by
      rw [renderStmt]
      exact candid_renderFunction table definition
  | .forEach target iter body orelse => by
      rw [renderStmt]
      exact (candid_require table _).bind fun _ => (candid_dropElse _ orelse).bind fun _ =>
        (candid_renderExpr table target).settled.bind fun _ =>
          (candid_renderExpr table iter).settled.bind fun _ =>
            (candid_blockFrame table _ _).bind fun _ =>
              (candid_renderBody table body).bind fun _ => .pure _
  | .ifElse test body orelse | .whileLoop test body orelse => by
      rw [renderStmt]
      exact (candid_dropElse _ orelse).bind fun _ =>
        (candid_renderExpr table test).settled.bind fun _ =>
          (candid_blockFrame table _ _).bind fun _ =>
            (candid_renderBody table body).bind fun _ => .pure _
  | .other kind => by
      rw [renderStmt]
      exact .fail rfl

theorem candid_renderFunction (table : TokenTable) :
    (definition : FunctionDef) → (renderFunction table definition).Candid
  | .mk name params body => by
      rw [renderFunction]
      exact (candid_functionFrame table name params).bind fun _ =>
        (candid_renderBody table body).bind fun _ => .pure _

theorem candid_renderBody (table : TokenTable) :
    (body : List Stmt) → (renderBody table body).Candid
  | [] => by
      rw [renderBody_nil]
      exact .pure ""
  | stmt :: rest => by
      have more := candid_renderLines table rest
      rw [renderBody_cons]
      exact iteInduction (fun _ => more)
        fun _ => candid_lines_cons (candid_renderStmt table stmt) more

theorem candid_renderLines (table : TokenTable) :
    (body : List Stmt) → (renderLines table body).Candid
  | [] => by
      rw [renderLines]
      exact .pure ""
  | stmt :: rest => candid_lines_cons (candid_renderStmt table stmt) (candid_renderLines table rest)

end

end Render

theorem Node.candid_render (table : TokenTable) (node : Node) : (node.render table).Candid := by
  cases node with
  | expr value => exact Render.candid_renderExpr table value
  | stmt value => exact Render.candid_renderStmt table value
  | function definition => exact Render.candid_renderFunction table definition

/-- Each record of a respelling is an error or a warning about a dropped part. -/
theorem respell_telling (table : TokenTable) (node : Node) :
    ∀ record ∈ (respell table node).2, Render.Draft.Telling record :=
  (node.candid_render table).telling_settle

/-- Each record of a respelling is about rendering. -/
theorem respell_isRendering (table : TokenTable) (node : Node) :
    ∀ record ∈ (respell table node).2, record.kind.isRendering = true :=
  (node.candid_render table).own_settle

end Respell
