import Respell.Proofs.Records

/-!
Accounts of a respelling. Which nodes are visited depends only on the tree and on which tokens the
table has. Each visited node is charged for what is its own: an error if it is not rendered, an error
for each entry without a key, a warning for dropped arguments or a dropped alternative. The records
of a respelling are these charges and no more.
-/

set_option autoImplicit false

namespace Respell

open Syntax (DictEntry Expr FunctionDef Stmt)

/-- Whether a token has a text. -/
def TokenTable.has (table : TokenTable) (token : Token) : Bool := (table.get? token).isSome

namespace Visit

/-- Whether so many texts can be joined. -/
def joins (has : Token → Bool) (separator : Token) (count : Nat) : Bool :=
  count < 2 || has separator

/-- Whether a construct with a head and a body has all its tokens. -/
def frames (has : Token → Bool) (tokens : Render.BlockTokens) : Bool :=
  has (.flow tokens.key) && has (.flow tokens.opening) && has (.flow tokens.closing) &&
    has (.flow tokens.openBody) && has (.flow tokens.closeBody)

mutual

/-- The nodes visited in an expression, itself first. -/
def expr (has : Token → Bool) : Expr → List Node
  | .call func args keywords =>
    .expr (.call func args keywords) :: (expr has func ++ exprs has args)
  | .name text => [.expr (.name text)]
  | .constant value => [.expr (.constant value)]
  | .attribute value attr =>
    .expr (.attribute value attr) :: if has (.access .attribute) then expr has value else []
  | .binaryOp left op right =>
    .expr (.binaryOp left op right) ::
      if has (.operator (.ofBinary op)) then expr has left ++ expr has right else []
  | .booleanOp op values =>
    .expr (.booleanOp op values) ::
      if has (.operator (.ofBoolean op)) then exprs has values else []
  | .compare left [op] [right] =>
    .expr (.compare left [op] [right]) ::
      if has (.operator (.ofCompare op)) then expr has left ++ expr has right else []
  | .compare left ops comparators => [.expr (.compare left ops comparators)]
  | .subscript value index =>
    .expr (.subscript value index) ::
      if has (.access .subscriptOpen) && has (.access .subscriptClose)
      then expr has value ++ expr has index else []
  | .dict parts =>
    .expr (.dict parts) ::
      if has (.literal .dictBegin) && has (.literal .dictEnd) then entries has parts else []
  | .list items =>
    .expr (.list items) ::
      if has (.literal .listBegin) && has (.literal .listEnd) then exprs has items else []
  | .tuple items =>
    .expr (.tuple items) ::
      if has (.literal .tupleBegin) && has (.literal .tupleEnd) then exprs has items else []
  | .other kind => [.expr (.other kind)]

/-- The nodes visited in expressions. -/
def exprs (has : Token → Bool) : List Expr → List Node
  | [] => []
  | first :: rest => expr has first ++ exprs has rest

/-- The nodes visited in dictionary entries: none in one without a key, and none from the first one
on that has a key and no token to give it. -/
def entries (has : Token → Bool) : List DictEntry → List Node
  | [] => []
  | .spread _ :: rest => entries has rest
  | .keyed key value :: rest =>
    if has (.literal .dictAssign) then expr has key ++ expr has value ++ entries has rest else []

end

mutual

/-- The nodes visited in a statement, itself first; a bare expression and a definition stand for
their statements. -/
def stmt (has : Token → Bool) : Stmt → List Node
  | .assign targets value =>
    .stmt (.assign targets value) ::
      if has (.assignment .assignKey) then
        exprs has targets ++
          if joins has (.assignment .multipleAssignJoin) targets.length then expr has value else []
      else []
  | .expr value => expr has value
  | .returns none => [.stmt (.returns none)]
  | .returns (some value) =>
    .stmt (.returns (some value)) ::
      if has (.function .returnKey) || has (.flow .returnKey) then expr has value else []
  | .functionDef definition => function has definition
  | .forEach target iter inner orelse =>
    .stmt (.forEach target iter inner orelse) ::
      if has (.flow .foreachSeparator) then
        expr has target ++ expr has iter ++
          if frames has Render.forEachTokens then body has inner else []
      else []
  | .ifElse test inner orelse =>
    .stmt (.ifElse test inner orelse) ::
      (expr has test ++ if frames has Render.ifTokens then body has inner else [])
  | .whileLoop test inner orelse =>
    .stmt (.whileLoop test inner orelse) ::
      (expr has test ++ if frames has Render.whileTokens then body has inner else [])
  | .other kind => [.stmt (.other kind)]

/-- The nodes visited in a function, itself first. -/
def function (has : Token → Bool) : FunctionDef → List Node
  | .mk name params inner =>
    .function (.mk name params inner) ::
      if has (.function .defineKey) && has (.function .openBody) && has (.function .closeBody) &&
          joins has (.function .argumentSeparator) params.length
      then body has inner else []

/-- The nodes visited in a body: none in a bare expression in first place. -/
def body (has : Token → Bool) : List Stmt → List Node
  | .expr _ :: rest => stmts has rest
  | inner => stmts has inner

/-- The nodes visited in statements. -/
def stmts (has : Token → Bool) : List Stmt → List Node
  | [] => []
  | first :: rest => stmt has first ++ stmts has rest

end

theorem body_nil (has : Token → Bool) : body has [] = [] := by
  rw [body, stmts]
  simp

theorem body_cons (has : Token → Bool) (first : Stmt) (rest : List Stmt) :
    body has (first :: rest) =
      if first.isBare then stmts has rest else stmts has (first :: rest) := by
  cases first <;> simp [body, Stmt.isBare]

/-- The entries without a key that are reached. -/
def keyless (has : Token → Bool) : List DictEntry → Nat
  | [] => 0
  | .spread _ :: rest => keyless has rest + 1
  | .keyed _ _ :: rest => if has (.literal .dictAssign) then keyless has rest else 0

end Visit

namespace Node

/-- The nodes visited in a node, where `has` tells which tokens there are. -/
def visited (has : Token → Bool) : Node → List Node
  | .expr value => Visit.expr has value
  | .stmt value => Visit.stmt has value
  | .function definition => Visit.function has definition

/-- The entries without a key that are reached in a node, if it is a dictionary. -/
def keyless (has : Token → Bool) : Node → Nat
  | .expr (.dict entries) =>
    if has (.literal .dictBegin) && has (.literal .dictEnd) then Visit.keyless has entries else 0
  | _ => 0

/-- Whether a node is a call with named arguments. -/
def hasKeywords : Node → Bool
  | .expr (.call _ _ keywords) => !keywords.isEmpty
  | _ => false

/-- Whether a node is a block whose alternative is dropped when it is reached. -/
def dropsElse (has : Token → Bool) : Node → Bool
  | .stmt (.forEach _ _ _ orelse) => !orelse.isEmpty && has (.flow .foreachSeparator)
  | .stmt (.ifElse _ _ orelse) => !orelse.isEmpty
  | .stmt (.whileLoop _ _ orelse) => !orelse.isEmpty
  | _ => false

/-- Whether a node is rendered. -/
def renders (table : TokenTable) (node : Node) : Bool := (respell table node).1.isRendered

end Node

namespace Render

open Draft (Spends errorCost warningCost)

/-- What a node is charged for at a level, apart from the nodes in it. -/
def charge (table : TokenTable) (level : Level) (node : Node) : Nat :=
  errorCost level * ((if node.renders table then 0 else 1) + node.keyless table.has) +
    warningCost level * ((if node.hasKeywords && node.renders table then 1 else 0) +
      if node.dropsElse table.has then 1 else 0)

/-- What nodes are charged for together. -/
def total (table : TokenTable) (level : Level) (nodes : List Node) : Nat :=
  (nodes.map (charge table level)).sum

section Totals

variable {table : TokenTable} {level : Level}

@[simp]
theorem total_nil : total table level [] = 0 := rfl

@[simp]
theorem total_cons (node : Node) (nodes : List Node) :
    total table level (node :: nodes) = charge table level node + total table level nodes := by
  simp [total]

@[simp]
theorem total_append (first second : List Node) :
    total table level (first ++ second) = total table level first + total table level second := by
  simp [total]

@[simp]
theorem total_ite (condition : Prop) [Decidable condition] (nodes : List Node) :
    total table level (if condition then nodes else []) =
      if condition then total table level nodes else 0 := by
  split <;> rfl

/-- What is recorded in a node is its own charge and the total of the nodes in it. -/
theorem countAt_respell {node : Node} {cost : Nat} {done : Bool} {inner : Nat}
    (spends : Spends level (node.render table) cost done)
    (balance : cost = inner + errorCost level * node.keyless table.has +
      warningCost level * ((if node.hasKeywords && done then 1 else 0) +
        if node.dropsElse table.has then 1 else 0)) :
    (respell table node).2.countAt level = charge table level node + inner := by
  have rendered : node.renders table = done := by
    rw [← spends.done]
    exact Draft.isRendered_settle (node.render table)
  rw [respell, spends.countAt_settle (node.candid_render table), charge, rendered, balance]
  cases done <;> simp only [Bool.and_false, Bool.and_true, if_true, Bool.false_eq_true, if_false] <;>
    ring

theorem spends_require (token : Token) : Spends level (require table token) 0 (table.has token) := by
  unfold require TokenTable.has
  cases table.get? token <;> exact ⟨rfl, rfl⟩

theorem spends_requireOperator (operator : OperatorToken) :
    Spends level (requireOperator table operator) 0 (table.has (.operator operator)) := by
  unfold requireOperator TokenTable.has
  cases table.get? (.operator operator) <;> exact ⟨rfl, rfl⟩

theorem spends_join (separator : Token) {texts : List String} {count : Nat}
    (length : texts.length = count) :
    Spends level (join table separator texts) 0 (Visit.joins table.has separator count) := by
  subst length
  match texts with
  | [] => exact ⟨rfl, rfl⟩
  | [text] => exact ⟨rfl, rfl⟩
  | first :: second :: rest =>
      exact ((spends_require separator).bind fun between _ => .pure _).of_eq
        (by simp) (by simp [Visit.joins])

theorem has_of_isSet {token : Token} (set : table.isSet token = true) : table.has token = true := by
  unfold TokenTable.isSet at set
  unfold TokenTable.has
  cases found : table.get? token with
  | none => simp [found] at set
  | some text => rfl

theorem spends_returnKey :
    Spends level (returnKey table) 0
      (table.has (.function .returnKey) || table.has (.flow .returnKey)) := by
  unfold returnKey TokenTable.has
  cases table.get? (.function .returnKey) <;> cases table.get? (.flow .returnKey) <;>
    exact ⟨rfl, rfl⟩

theorem spends_groupTargets {texts : List String} {count : Nat} (length : texts.length = count) :
    Spends level (groupTargets table texts) 0
      (Visit.joins table.has (.assignment .multipleAssignJoin) count) := by
  have marks (group : String) : Spends level
      (if table.isSet (.assignment .multipleAssignBegin) &&
          table.isSet (.assignment .multipleAssignEnd) then do
        let opening ← require table (.assignment .multipleAssignBegin)
        let closing ← require table (.assignment .multipleAssignEnd)
        return opening ++ group ++ closing
      else return group : Draft String) 0 true := by
    split
    next set =>
      obtain ⟨opening, closing⟩ := Bool.and_eq_true_iff.mp set
      have hasOpening := has_of_isSet opening
      have hasClosing := has_of_isSet closing
      exact ((spends_require _).bind fun _ _ => (spends_require _).bind fun _ _ => .pure _).of_eq
        (by simp) (by simp [hasOpening, hasClosing])
    next => exact .pure group
  exact ((spends_join _ length).bind fun group _ => marks group).of_eq (by simp) (by simp)

theorem spends_blockFrame (tokens : BlockTokens) (head : String) :
    Spends level (blockFrame table tokens head) 0 (Visit.frames table.has tokens) :=
  ((spends_require _).bind fun _ _ => (spends_require _).bind fun _ _ =>
    (spends_require _).bind fun _ _ => (spends_require _).bind fun _ _ =>
      (spends_require _).bind fun _ _ => .pure _).of_eq
    (by simp) (by simp [Visit.frames, Bool.and_assoc])

theorem spends_functionFrame (name : String) (params : List String) :
    Spends level (functionFrame table name params) 0
      (table.has (.function .defineKey) && table.has (.function .openBody) &&
        table.has (.function .closeBody) &&
          Visit.joins table.has (.function .argumentSeparator) params.length) :=
  ((spends_require _).bind fun _ _ => (spends_require _).bind fun _ _ =>
    (spends_require _).bind fun _ _ => (spends_join _ rfl).bind fun _ _ => .pure _).of_eq
    (by simp) (by simp [Bool.and_assoc])

theorem spends_dropKeywords (callee : String) (keywords : List Syntax.Keyword) :
    Spends level (dropKeywords callee keywords)
      (if keywords.isEmpty then 0 else warningCost level) true := by
  cases keywords with
  | nil => exact .pure ()
  | cons first rest => exact .warning rfl

theorem spends_dropElse (construct : String) (orelse : List Stmt) :
    Spends level (dropElse construct orelse)
      (if orelse.isEmpty then 0 else warningCost level) true := by
  cases orelse with
  | nil => exact .pure ()
  | cons first rest => exact .warning rfl

theorem length_of_renderTexts {exprs : List Expr} {texts : List String}
    (rendered : (renderTexts table exprs).result = .ok texts) : texts.length = exprs.length := by
  induction exprs generalizing texts with
  | nil =>
      rw [renderTexts] at rendered
      rw [← Except.ok.inj rendered, List.length_nil, List.length_nil]
  | cons expr rest ih =>
      rw [renderTexts] at rendered
      cases more : (renderTexts table rest).result with
      | error fault => simp [Draft.bind, Draft.settled, more] at rendered
      | ok others =>
          simp only [Draft.bind_eq, Draft.bind, Draft.settled, more, Draft.pure_eq,
            Draft.pure, Except.ok.injEq] at rendered
          rw [← rendered, List.length_cons, List.length_cons, ih more]

theorem length_of_renderEntries {entries : List DictEntry} {texts : List String}
    (rendered : (renderEntries table entries).result = .ok texts) :
    texts.length = entries.countP fun entry => entry.key?.isSome := by
  induction entries generalizing texts with
  | nil =>
      rw [renderEntries] at rendered
      rw [← Except.ok.inj rendered, List.length_nil, List.countP_nil]
  | cons entry rest ih =>
      cases entry with
      | spread value =>
          rw [renderEntries] at rendered
          rw [ih rendered, List.countP_cons_of_neg (by simp [Syntax.DictEntry.key?])]
      | keyed key value =>
          rw [renderEntries] at rendered
          cases between : (require table (.literal .dictAssign)).result with
          | error fault => simp [Draft.bind, between] at rendered
          | ok symbol =>
              cases more : (renderEntries table rest).result with
              | error fault => simp [Draft.bind, Draft.settled, between, more] at rendered
              | ok others =>
                  simp only [Draft.bind_eq, Draft.bind, Draft.settled, between, more,
                    Draft.pure_eq, Draft.pure, Except.ok.injEq] at rendered
                  rw [← rendered, List.length_cons, ih more,
                    List.countP_cons_of_pos (by simp [Syntax.DictEntry.key?])]

end Totals

section Balance

variable (table : TokenTable) (level : Level)

variable {table level} in
/-- What is recorded about an expression is spent where its text is used. -/
private theorem spends_settled {expr : Expr} (counted :
    (respell table (.expr expr)).2.countAt level = total table level (Visit.expr table.has expr)) :
    Spends level (renderExpr table expr).settled (total table level (Visit.expr table.has expr))
      true :=
  (Spends.settled (renderExpr table expr)).of_eq counted rfl

mutual

theorem countAt_respell_expr : (expr : Expr) →
    (respell table (.expr expr)).2.countAt level = total table level (Visit.expr table.has expr)
  | .call func args keywords => by
      rw [Visit.expr, total_cons]
      apply countAt_respell
      case spends =>
        rw [Node.render, renderExpr]
        exact (spends_settled (countAt_respell_expr func)).bind fun callee _ =>
          (spends_renderTexts args).bind fun texts rendered =>
            (spends_join _ (length_of_renderTexts rendered)).bind fun _ _ =>
              (spends_dropKeywords callee keywords).bind fun _ _ => .pure _
      case balance =>
        cases Visit.joins table.has (.function .argumentSeparator) args.length <;>
          cases keywords <;> simp [Node.keyless, Node.hasKeywords, Node.dropsElse, Nat.add_assoc]
  | .name text => by
      rw [Visit.expr, total_cons]
      exact countAt_respell (.pure text) rfl
  | .constant value => by
      rw [Visit.expr, total_cons]
      exact countAt_respell (.pure _) rfl
  | .attribute value attr => by
      rw [Visit.expr, total_cons]
      apply countAt_respell
      case spends =>
        rw [Node.render, renderExpr]
        exact (spends_require _).bind fun _ _ =>
          (spends_settled (countAt_respell_expr value)).bind fun _ _ => .pure _
      case balance => simp [Node.keyless, Node.hasKeywords, Node.dropsElse]
  | .binaryOp left op right => by
      rw [Visit.expr, total_cons]
      apply countAt_respell
      case spends =>
        rw [Node.render, renderExpr]
        exact (spends_requireOperator _).bind fun _ _ =>
          (spends_settled (countAt_respell_expr left)).bind fun _ _ =>
            (spends_settled (countAt_respell_expr right)).bind fun _ _ => .pure _
      case balance => simp [Node.keyless, Node.hasKeywords, Node.dropsElse]
  | .booleanOp op values => by
      rw [Visit.expr, total_cons]
      apply countAt_respell
      case spends =>
        rw [Node.render, renderExpr]
        exact (spends_requireOperator _).bind fun _ _ =>
          (spends_renderTexts values).bind fun _ _ => .pure _
      case balance => simp [Node.keyless, Node.hasKeywords, Node.dropsElse]
  | .compare left [op] [right] => by
      rw [Visit.expr, total_cons]
      apply countAt_respell
      case spends =>
        rw [Node.render, renderExpr]
        exact (spends_requireOperator _).bind fun _ _ =>
          (spends_settled (countAt_respell_expr left)).bind fun _ _ =>
            (spends_settled (countAt_respell_expr right)).bind fun _ _ => .pure _
      case balance => simp [Node.keyless, Node.hasKeywords, Node.dropsElse]
  | .compare _ [] _ | .compare _ (_ :: _ :: _) _ | .compare _ [_] [] |
    .compare _ [_] (_ :: _ :: _) => countAt_respell (.fail _) rfl
  | .subscript value index => by
      rw [Visit.expr, total_cons]
      apply countAt_respell
      case spends =>
        rw [Node.render, renderExpr]
        exact (spends_require _).bind fun _ _ => (spends_require _).bind fun _ _ =>
          (spends_settled (countAt_respell_expr value)).bind fun _ _ =>
            (spends_settled (countAt_respell_expr index)).bind fun _ _ => .pure _
      case balance =>
        cases table.has (.access .subscriptOpen) <;> cases table.has (.access .subscriptClose) <;>
          simp [Node.keyless, Node.hasKeywords, Node.dropsElse]
  | .dict entries => by
      rw [Visit.expr, total_cons]
      obtain ⟨reached, texts⟩ := spends_renderEntries entries
      apply countAt_respell
      case spends =>
        rw [Node.render, renderExpr]
        exact (spends_require _).bind fun _ _ => (spends_require _).bind fun _ _ =>
          texts.bind fun _ rendered =>
            (spends_join _ (length_of_renderEntries rendered)).bind fun _ _ => .pure _
      case balance =>
        cases opening : table.has (.literal .dictBegin) <;>
          cases closing : table.has (.literal .dictEnd) <;>
            simp [Node.keyless, Node.hasKeywords, Node.dropsElse, opening, closing]
  | .list items => by
      rw [Visit.expr, total_cons]
      apply countAt_respell
      case spends =>
        rw [Node.render, renderExpr]
        exact (spends_require _).bind fun _ _ => (spends_require _).bind fun _ _ =>
          (spends_renderTexts items).bind fun _ rendered =>
            (spends_join _ (length_of_renderTexts rendered)).bind fun _ _ => .pure _
      case balance =>
        cases table.has (.literal .listBegin) <;> cases table.has (.literal .listEnd) <;>
          simp [Node.keyless, Node.hasKeywords, Node.dropsElse]
  | .tuple items => by
      rw [Visit.expr, total_cons]
      apply countAt_respell
      case spends =>
        rw [Node.render, renderExpr]
        exact (spends_require _).bind fun _ _ => (spends_require _).bind fun _ _ =>
          (spends_renderTexts items).bind fun _ rendered =>
            (spends_join _ (length_of_renderTexts rendered)).bind fun _ _ => .pure _
      case balance =>
        cases table.has (.literal .tupleBegin) <;> cases table.has (.literal .tupleEnd) <;>
          simp [Node.keyless, Node.hasKeywords, Node.dropsElse]
  | .other kind => countAt_respell (.fail _) rfl

theorem spends_renderTexts : (exprs : List Expr) →
    Spends level (renderTexts table exprs) (total table level (Visit.exprs table.has exprs)) true
  | [] => .pure []
  | expr :: rest => by
      rw [renderTexts, Visit.exprs, total_append]
      exact ((spends_settled (countAt_respell_expr expr)).bind fun _ _ =>
        (spends_renderTexts rest).bind fun _ _ => .pure _).of_eq (by simp) rfl

theorem spends_renderEntries : (entries : List DictEntry) →
    ∃ done, Spends level (renderEntries table entries)
      (total table level (Visit.entries table.has entries) +
        errorCost level * Visit.keyless table.has entries) done
  | [] => ⟨true, .pure []⟩
  | .spread value :: rest => by
      obtain ⟨done, spends⟩ := spends_renderEntries rest
      rw [renderEntries, Visit.entries, Visit.keyless]
      exact ⟨_, ((Spends.error rfl).bind fun _ _ => spends).of_eq (by simp; ring) rfl⟩
  | .keyed key value :: rest => by
      obtain ⟨done, spends⟩ := spends_renderEntries rest
      rw [renderEntries, Visit.entries, Visit.keyless]
      refine ⟨_, ((spends_require _).bind fun _ _ =>
        (spends_settled (countAt_respell_expr key)).bind fun _ _ =>
          (spends_settled (countAt_respell_expr value)).bind fun _ _ =>
            spends.bind fun _ _ => .pure _).of_eq ?_ rfl⟩
      cases table.has (.literal .dictAssign) <;> simp [Nat.add_assoc]

end

variable {table level} in
private theorem spends_lines_cons {stmt : Stmt} {rest : List Stmt} (counted :
    (respell table (.stmt stmt)).2.countAt level = total table level (Visit.stmt table.has stmt))
    (more : Spends level (renderLines table rest)
      (total table level (Visit.stmts table.has rest)) true) :
    Spends level (renderLines table (stmt :: rest))
      (total table level (Visit.stmts table.has (stmt :: rest))) true := by
  rw [renderLines, Visit.stmts, total_append, ← counted]
  exact ((Spends.settled (renderStmt table stmt)).bind fun _ _ =>
    more.bind fun _ _ => .pure _).of_eq (by simp [respell, Node.render]) rfl

mutual

theorem countAt_respell_stmt : (stmt : Stmt) →
    (respell table (.stmt stmt)).2.countAt level = total table level (Visit.stmt table.has stmt)
  | .assign targets value => by
      rw [Visit.stmt, total_cons]
      apply countAt_respell
      case spends =>
        rw [Node.render, renderStmt]
        exact (spends_require _).bind fun _ _ =>
          (spends_renderTexts table level targets).bind fun _ rendered =>
            (spends_groupTargets (length_of_renderTexts rendered)).bind fun _ _ =>
              (spends_settled (countAt_respell_expr table level value)).bind fun _ _ => .pure _
      case balance => simp [Node.keyless, Node.hasKeywords, Node.dropsElse]
  | .expr value => by
      rw [Visit.stmt, respell, Node.render, renderStmt]
      exact countAt_respell_expr table level value
  | .returns none => by
      rw [Visit.stmt, total_cons]
      apply countAt_respell
      case spends =>
        rw [Node.render, renderStmt]
        exact spends_returnKey
      case balance => rfl
  | .returns (some value) => by
      rw [Visit.stmt, total_cons]
      apply countAt_respell
      case spends =>
        rw [Node.render, renderStmt]
        exact spends_returnKey.bind fun _ _ =>
          (spends_settled (countAt_respell_expr table level value)).bind fun _ _ => .pure _
      case balance => simp [Node.keyless, Node.hasKeywords, Node.dropsElse]
  | .functionDef definition => by
      rw [Visit.stmt, respell, Node.render, renderStmt]
      exact countAt_respell_function definition
  | .forEach target iter body orelse => by
      rw [Visit.stmt, total_cons]
      apply countAt_respell
      case spends =>
        rw [Node.render, renderStmt]
        exact (spends_require _).bind fun _ _ => (spends_dropElse _ orelse).bind fun _ _ =>
          (spends_settled (countAt_respell_expr table level target)).bind fun _ _ =>
            (spends_settled (countAt_respell_expr table level iter)).bind fun _ _ =>
              (spends_blockFrame _ _).bind fun _ _ =>
                (spends_renderBody body).bind fun _ _ => .pure _
      case balance =>
        cases between : table.has (.flow .foreachSeparator) <;> cases orelse <;>
          simp [Node.keyless, Node.hasKeywords, Node.dropsElse, between]
        ring
  | .ifElse test body orelse => by
      rw [Visit.stmt, total_cons]
      apply countAt_respell
      case spends =>
        rw [Node.render, renderStmt]
        exact (spends_dropElse _ orelse).bind fun _ _ =>
          (spends_settled (countAt_respell_expr table level test)).bind fun _ _ =>
            (spends_blockFrame _ _).bind fun _ _ =>
              (spends_renderBody body).bind fun _ _ => .pure _
      case balance =>
        cases orelse <;> simp [Node.keyless, Node.hasKeywords, Node.dropsElse]
        ring
  | .whileLoop test body orelse => by
      rw [Visit.stmt, total_cons]
      apply countAt_respell
      case spends =>
        rw [Node.render, renderStmt]
        exact (spends_dropElse _ orelse).bind fun _ _ =>
          (spends_settled (countAt_respell_expr table level test)).bind fun _ _ =>
            (spends_blockFrame _ _).bind fun _ _ =>
              (spends_renderBody body).bind fun _ _ => .pure _
      case balance =>
        cases orelse <;> simp [Node.keyless, Node.hasKeywords, Node.dropsElse]
        ring
  | .other kind => by
      rw [Visit.stmt, total_cons]
      apply countAt_respell
      case spends =>
        rw [Node.render, renderStmt]
        exact .fail _
      case balance => rfl

theorem countAt_respell_function : (definition : FunctionDef) →
    (respell table (.function definition)).2.countAt level =
      total table level (Visit.function table.has definition)
  | .mk name params body => by
      rw [Visit.function, total_cons]
      apply countAt_respell
      case spends =>
        rw [Node.render, renderFunction]
        exact (spends_functionFrame name params).bind fun _ _ =>
          (spends_renderBody body).bind fun _ _ => .pure _
      case balance => simp [Node.keyless, Node.hasKeywords, Node.dropsElse]

theorem spends_renderBody : (body : List Stmt) →
    Spends level (renderBody table body) (total table level (Visit.body table.has body)) true
  | [] => by
      rw [renderBody_nil, Visit.body_nil]
      exact .pure ""
  | stmt :: rest => by
      have more := spends_renderLines rest
      rw [renderBody_cons, Visit.body_cons]
      split
      · exact more
      · exact spends_lines_cons (countAt_respell_stmt stmt) more

theorem spends_renderLines : (body : List Stmt) →
    Spends level (renderLines table body) (total table level (Visit.stmts table.has body)) true
  | [] => by
      rw [renderLines, Visit.stmts]
      exact .pure ""
  | stmt :: rest => spends_lines_cons (countAt_respell_stmt stmt) (spends_renderLines rest)

end

end Balance

/-- Errors are for nodes that are not rendered and for entries without a key. -/
theorem total_error (table : TokenTable) (nodes : List Node) :
    total table .error nodes =
      (nodes.countP fun node => !node.renders table) + (nodes.map (Node.keyless table.has)).sum := by
  induction nodes with
  | nil => rfl
  | cons node rest ih =>
      have own : charge table .error node =
          (if node.renders table then 0 else 1) + node.keyless table.has := by
        simp [charge, errorCost, warningCost]
      rw [total_cons, own, ih, List.countP_cons, List.map_cons, List.sum_cons]
      cases node.renders table <;> simp <;> ring

/-- Warnings are for dropped arguments of rendered calls and for dropped alternatives. -/
theorem total_warning (table : TokenTable) (nodes : List Node) :
    total table .warning nodes =
      (nodes.countP fun node => node.hasKeywords && node.renders table) +
        nodes.countP (Node.dropsElse table.has) := by
  induction nodes with
  | nil => rfl
  | cons node rest ih =>
      have own : charge table .warning node =
          (if node.hasKeywords && node.renders table then 1 else 0) +
            if node.dropsElse table.has then 1 else 0 := by
        simp [charge, errorCost, warningCost]
      rw [total_cons, own, ih, List.countP_cons, List.countP_cons]
      ring

end Render

open Render

/-- At each level, the records of a respelling are the charges of the visited nodes. -/
theorem countAt_respell_visited (table : TokenTable) (level : Level) (node : Node) :
    (respell table node).2.countAt level = total table level (node.visited table.has) := by
  cases node with
  | expr value => exact countAt_respell_expr table level value
  | stmt value => exact countAt_respell_stmt table level value
  | function definition => exact countAt_respell_function table level definition

/-- Telling records are errors and warnings, so their number is the sum of both. -/
theorem length_of_telling {records : Diagnostics}
    (telling : ∀ record ∈ records, Draft.Telling record) :
    records.length = records.countAt .error + records.countAt .warning := by
  induction records with
  | nil => rfl
  | cons first rest ih =>
      have more := ih fun record member => telling record (List.mem_cons_of_mem first member)
      have split (level : Level) : Diagnostics.countAt (first :: rest) level =
          Diagnostics.countAt [first] level + Diagnostics.countAt rest level :=
        Draft.countAt_append [first] rest level
      rw [List.length_cons, more, split .error, split .warning]
      rcases telling first (List.mem_cons_self ..) with grave | ⟨mild, -⟩
      · rw [Draft.countAt_error grave, Draft.countAt_error grave]
        simp [Draft.errorCost]
        omega
      · rw [Draft.countAt_warning mild, Draft.countAt_warning mild]
        simp [Draft.warningCost]
        omega

/-- A node that is not rendered is reported last. -/
theorem getLast?_respell {table : TokenTable} {node : Node} {kind : DiagnosticKind}
    (broken : (respell table node).1 = .unsupported kind) :
    ∃ message, (respell table node).2.getLast? = some ⟨.error, kind, message⟩ := by
  have candid := node.candid_render table
  unfold respell Draft.settle at *
  cases result : (node.render table).result with
  | ok text => simp [result] at broken
  | error fault =>
      have grave := candid.grave fault result
      obtain rfl : fault.kind = kind := by simpa [result] using broken
      exact ⟨fault.message, by simp [Diagnostic.report, grave]⟩

/-- Every degraded node is reported exactly once. A node that is not rendered is reported last, as
an error of its kind. There are as many records as visited nodes that are not rendered, entries
without a key that are reached, rendered calls with named arguments, and blocks whose alternative is
dropped; the latter two are warnings about an unsupported construct, and all others are errors. -/
theorem respell_reports_once (table : TokenTable) (node : Node) :
    (∀ kind, (respell table node).1 = .unsupported kind →
      ∃ message, (respell table node).2.getLast? = some ⟨.error, kind, message⟩) ∧
    (respell table node).2.length =
      ((node.visited table.has).countP fun inner => !inner.renders table) +
      ((node.visited table.has).map (Node.keyless table.has)).sum +
      ((node.visited table.has).countP fun inner => inner.hasKeywords && inner.renders table) +
      (node.visited table.has).countP (Node.dropsElse table.has) ∧
    (∀ record ∈ (respell table node).2, record.level = .error ∨
      record.level = .warning ∧ record.kind = .unsupportedConstruct) ∧
    (respell table node).2.countAt .warning =
      ((node.visited table.has).countP fun inner => inner.hasKeywords && inner.renders table) +
      (node.visited table.has).countP (Node.dropsElse table.has) := by
  have telling := respell_telling table node
  have errors := (countAt_respell_visited table .error node).trans (total_error table _)
  have warnings := (countAt_respell_visited table .warning node).trans (total_warning table _)
  refine ⟨fun kind broken => getLast?_respell broken, ?_, telling, warnings⟩
  rw [length_of_telling telling, errors, warnings]
  ring

/-- A sum without a token for its operator is visited alone and reported alone. -/
theorem respell_reports_once_lone_sum :
    (respell .empty (.expr (.binaryOp (.name "a") .add (.other "Lambda")))).1 =
        .unsupported .unsupportedOperator ∧
      ∃ message, (respell .empty (.expr (.binaryOp (.name "a") .add (.other "Lambda")))).2.getLast? =
        some ⟨.error, .unsupportedOperator, message⟩ :=
  ⟨rfl, (respell_reports_once _ _).1 .unsupportedOperator rfl⟩

end Respell
