import Respell.Package.Unit
import Respell.Proofs.Records

/-!
One collector for many nodes. A step of a session follows a draft if it has the result of the draft
and adds its records, whatever was collected before. Rendering into a collector follows the drafts of
all nodes, so nothing of what was collected is ever read or changed, and a respeller does with each of
its nodes what a new one would do.
-/

set_option autoImplicit false

namespace Respell

open Syntax (DictEntry Expr FunctionDef Stmt)

namespace Render.Session

variable {α β : Type}

/-- The step has the result of the draft, and adds its records to any that are there. -/
def Follows (step : Session α) (draft : Draft α) : Prop :=
  ∀ records : Diagnostics, step.run.run records = (draft.result, records ++ draft.records)

namespace Follows

theorem pure (value : α) : Follows (Pure.pure value) (Draft.pure value) := by
  intro records
  change (Except.ok value, records) = (Except.ok value, records ++ [])
  rw [List.append_nil]

theorem throw (fault : Fault) : Follows (MonadExcept.throw fault : Session α) (Draft.fail fault) := by
  intro records
  change (Except.error fault, records) = (Except.error fault, records ++ [])
  rw [List.append_nil]

theorem record (diagnostic : Diagnostic) :
    Follows (Session.record diagnostic) (Draft.record diagnostic) :=
  fun _ => rfl

theorem lift (draft : Draft α) : Follows (liftM draft) draft := by
  intro records
  obtain ⟨result, made⟩ := draft
  cases result <;> rfl

/-- What the first step adds is there when the second one begins. -/
theorem bind {step : Session α} {draft : Draft α} {next : α → Session β} {after : α → Draft β}
    (start : Follows step draft) (rest : ∀ value, Follows (next value) (after value)) :
    Follows (step >>= next) (draft.bind after) := by
  intro records
  obtain ⟨result, made⟩ := draft
  rw [ExceptT.run_bind, StateT.run_bind, start records]
  cases result with
  | error fault => rfl
  | ok value =>
      change (next value).run.run (records ++ made) = _
      rw [rest value, List.append_assoc]
      rfl

theorem settle {step : Session String} {draft : Draft String} (follows : Follows step draft)
    (records : Diagnostics) :
    step.settle.run records = (draft.settle.1, records ++ draft.settle.2) := by
  obtain ⟨result, made⟩ := draft
  rw [Session.settle, StateT.run_bind, follows records]
  cases result with
  | ok text => rfl
  | error fault =>
      change (Rendering.unsupported fault.kind, records ++ made ++ _) = _
      rw [List.append_assoc]
      rfl

theorem settled {step : Session String} {draft : Draft String} (follows : Follows step draft) :
    Follows step.settled draft.settled := by
  intro records
  have run : step.settled.run.run records =
      ((.ok (step.settle.run records).1.text, (step.settle.run records).2) :
        Except Fault String × Diagnostics) := rfl
  rw [run, follows.settle]
  rfl

end Follows

section Trees

variable (table : TokenTable)

mutual

theorem follows_expr : (tree : Expr) → Follows (expr table tree) (renderExpr table tree)
  | .call func args keywords => by
      rw [expr, renderExpr]
      exact (follows_expr func).settled.bind fun _ => (follows_exprs args).bind fun _ =>
        (Follows.lift _).bind fun _ => (Follows.lift _).bind fun _ => .pure _
  | .name text => .pure text
  | .constant value => .pure _
  | .attribute value attr => by
      rw [expr, renderExpr]
      exact (Follows.lift _).bind fun _ => (follows_expr value).settled.bind fun _ => .pure _
  | .binaryOp left op right => by
      rw [expr, renderExpr]
      exact (Follows.lift _).bind fun _ => (follows_expr left).settled.bind fun _ =>
        (follows_expr right).settled.bind fun _ => .pure _
  | .booleanOp op values => by
      rw [expr, renderExpr]
      exact (Follows.lift _).bind fun _ => (follows_exprs values).bind fun _ => .pure _
  | .compare left [op] [right] => by
      rw [expr, renderExpr]
      exact (Follows.lift _).bind fun _ => (follows_expr left).settled.bind fun _ =>
        (follows_expr right).settled.bind fun _ => .pure _
  | .compare _ [] _ | .compare _ (_ :: _ :: _) _ | .compare _ [_] [] |
    .compare _ [_] (_ :: _ :: _) => .throw _
  | .subscript value index => by
      rw [expr, renderExpr]
      exact (Follows.lift _).bind fun _ => (Follows.lift _).bind fun _ =>
        (follows_expr value).settled.bind fun _ => (follows_expr index).settled.bind fun _ => .pure _
  | .dict parts => by
      rw [expr, renderExpr]
      exact (Follows.lift _).bind fun _ => (Follows.lift _).bind fun _ =>
        (follows_entries parts).bind fun _ => (Follows.lift _).bind fun _ => .pure _
  | .list items | .tuple items => by
      rw [expr, renderExpr]
      exact (Follows.lift _).bind fun _ => (Follows.lift _).bind fun _ =>
        (follows_exprs items).bind fun _ => (Follows.lift _).bind fun _ => .pure _
  | .other kind => .throw _

theorem follows_exprs : (trees : List Expr) → Follows (exprs table trees) (renderTexts table trees)
  | [] => .pure []
  | first :: rest => by
      rw [exprs, renderTexts]
      exact (follows_expr first).settled.bind fun _ => (follows_exprs rest).bind fun _ => .pure _

theorem follows_entries :
    (parts : List DictEntry) → Follows (entries table parts) (renderEntries table parts)
  | [] => .pure []
  | .spread _ :: rest => by
      rw [entries, renderEntries]
      exact (Follows.record _).bind fun _ => follows_entries rest
  | .keyed key value :: rest => by
      rw [entries, renderEntries]
      exact (Follows.lift _).bind fun _ => (follows_expr key).settled.bind fun _ =>
        (follows_expr value).settled.bind fun _ => (follows_entries rest).bind fun _ => .pure _

end

variable {table} in
private theorem follows_lines_cons {tree : Stmt} {rest : List Stmt}
    (first : Follows (stmt table tree) (renderStmt table tree))
    (more : Follows (lines table rest) (renderLines table rest)) :
    Follows (lines table (tree :: rest)) (renderLines table (tree :: rest)) := by
  rw [lines, renderLines]
  exact first.settled.bind fun _ => more.bind fun _ => .pure _

theorem body_cons (tree : Stmt) (rest : List Stmt) :
    body table (tree :: rest) =
      if tree.isBare then lines table rest else lines table (tree :: rest) := by
  cases tree <;> simp [body, Stmt.isBare]

mutual

theorem follows_stmt : (tree : Stmt) → Follows (stmt table tree) (renderStmt table tree)
  | .assign targets value => by
      rw [stmt, renderStmt]
      exact (Follows.lift _).bind fun _ => (follows_exprs table targets).bind fun _ =>
        (Follows.lift _).bind fun _ => (follows_expr table value).settled.bind fun _ => .pure _
  | .expr value => by
      rw [stmt, renderStmt]
      exact follows_expr table value
  | .returns none => by
      rw [stmt, renderStmt]
      exact .lift _
  | .returns (some value) => by
      rw [stmt, renderStmt]
      exact (Follows.lift _).bind fun _ => (follows_expr table value).settled.bind fun _ => .pure _
  | .functionDef definition => by
      rw [stmt, renderStmt]
      exact follows_function definition
  | .forEach target iter inner orelse => by
      rw [stmt, renderStmt]
      exact (Follows.lift _).bind fun _ => (Follows.lift _).bind fun _ =>
        (follows_expr table target).settled.bind fun _ =>
          (follows_expr table iter).settled.bind fun _ => (Follows.lift _).bind fun _ =>
            (follows_body inner).bind fun _ => .pure _
  | .ifElse test inner orelse | .whileLoop test inner orelse => by
      rw [stmt, renderStmt]
      exact (Follows.lift _).bind fun _ => (follows_expr table test).settled.bind fun _ =>
        (Follows.lift _).bind fun _ => (follows_body inner).bind fun _ => .pure _
  | .other kind => by
      rw [stmt, renderStmt]
      exact .throw _

theorem follows_function :
    (definition : FunctionDef) → Follows (function table definition) (renderFunction table definition)
  | .mk name params inner => by
      rw [function, renderFunction]
      exact (Follows.lift _).bind fun _ => (follows_body inner).bind fun _ => .pure _

theorem follows_body : (inner : List Stmt) → Follows (body table inner) (renderBody table inner)
  | [] => by
      rw [body, renderBody_nil, lines]
      · exact .pure ""
      · simp
  | first :: rest => by
      have more := follows_lines rest
      rw [body_cons, renderBody_cons]
      split
      · exact more
      · exact follows_lines_cons (follows_stmt first) more

theorem follows_lines : (trees : List Stmt) → Follows (lines table trees) (renderLines table trees)
  | [] => by
      rw [lines, renderLines]
      exact .pure ""
  | first :: rest => follows_lines_cons (follows_stmt first) (follows_lines rest)

end

end Trees

end Render.Session

theorem Node.follows_collect (table : TokenTable) (node : Node) :
    (node.collect table).Follows (node.render table) := by
  cases node with
  | expr value => exact Render.Session.follows_expr table value
  | stmt value => exact Render.Session.follows_stmt table value
  | function definition => exact Render.Session.follows_function table definition

namespace Respeller

/-- A respeller adds the records of each node to those it has. -/
theorem step_eq (respeller : Respeller) (node : Node) :
    respeller.step node = ((respell respeller.table node).1,
      ⟨respeller.table, respeller.diagnostics ++ (respell respeller.table node).2⟩) := by
  have settled := (node.follows_collect respeller.table).settle respeller.diagnostics
  unfold step
  rw [settled]
  rfl

theorem run_eq (respeller : Respeller) (nodes : List Node) :
    respeller.run nodes = (nodes.map fun node => (respell respeller.table node).1,
      ⟨respeller.table,
        respeller.diagnostics ++ nodes.flatMap fun node => (respell respeller.table node).2⟩) := by
  induction nodes generalizing respeller with
  | nil =>
      obtain ⟨table, diagnostics⟩ := respeller
      simp [run]
  | cons node rest ih =>
      rw [run, step_eq]
      dsimp only
      rw [ih]
      simp

end Respeller

namespace FunctionUnit

theorem run_sourceInto (table : TokenTable) (unit : FunctionUnit) (records : Diagnostics) :
    (unit.sourceInto table).run records =
      ((unit.respell table).1.text, records ++ (unit.respell table).2) := by
  have fresh := (Respeller.new table).step_eq (.function unit.definition)
  unfold sourceInto
  rw [fresh]
  rfl

theorem run_mapM_sourceInto (table : TokenTable) (units : List FunctionUnit)
    (records : Diagnostics) :
    (units.mapM (sourceInto table)).run records =
      (units.map fun unit => (unit.respell table).1.text,
        records ++ units.flatMap fun unit => (unit.respell table).2) := by
  induction units generalizing records with
  | nil =>
      change ([], records) = ([], records ++ [])
      rw [List.append_nil]
  | cons unit rest ih =>
      rw [List.mapM_cons, StateT.run_bind, run_sourceInto]
      -- the first text is there, and the others are taken with what it added
      change (do
        let texts ← rest.mapM (sourceInto table)
        pure ((unit.respell table).1.text :: texts) : StateM Diagnostics (List String)).run
          (records ++ (unit.respell table).2) = _
      rw [StateT.run_bind, ih, List.map_cons, List.flatMap_cons, ← List.append_assoc]
      rfl

end FunctionUnit

/-- One collector does what new ones do. Whatever a respeller has collected, the outcomes of any
sequence of nodes are those of a new respeller for each node, and their diagnostics are added one node
after the other; a new respeller tells of a node what respelling it tells. In the same way any
sequence of functions, one function any number of times among them, adds to a collector at each of
them what a new respeller collects. -/
theorem collecting_eq_fresh (respeller : Respeller) :
    let fresh := (Respeller.new respeller.table).step
    (∀ nodes : List Node, respeller.run nodes =
      (nodes.map fun node => (fresh node).1, ⟨respeller.table,
        respeller.diagnostics ++ nodes.flatMap fun node => (fresh node).2.diagnostics⟩)) ∧
    (∀ node : Node, respell respeller.table node = ((fresh node).1, (fresh node).2.diagnostics)) ∧
    ∀ (units : List FunctionUnit) (records : Diagnostics),
      (units.mapM (FunctionUnit.sourceInto respeller.table)).run records =
        (units.map fun unit => (fresh (.function unit.definition)).1.text, records ++
          units.flatMap fun unit => (fresh (.function unit.definition)).2.diagnostics) := by
  intro fresh
  have alone (node : Node) : fresh node = ((respell respeller.table node).1,
      ⟨respeller.table, (respell respeller.table node).2⟩) :=
    (Respeller.new respeller.table).step_eq node
  refine ⟨fun nodes => ?_, fun node => ?_, fun units records => ?_⟩
  · simp only [alone]
    exact respeller.run_eq nodes
  · rw [alone]
  · simp only [alone]
    exact FunctionUnit.run_mapM_sourceInto respeller.table units records

end Respell
