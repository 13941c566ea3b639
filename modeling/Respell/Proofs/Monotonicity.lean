import Respell.Proofs.Accounting

/-!
More tokens never make a respelling worse. A table covers another one if it has all of its tokens,
whatever their texts. Two drafts of one node, the second with the covering table, are followed side by
side: where the first has a result the second has one too, and if the first recorded nothing on the
way, neither did the second. How many texts there are to join does not depend on the table.
-/

set_option autoImplicit false

namespace Respell

open Syntax (DictEntry Expr FunctionDef Keyword Stmt)

/-- Whether a table has every token that another one has, with any texts. -/
def TokenTable.Covers (many few : TokenTable) : Prop :=
  ∀ token, few.has token = true → many.has token = true

namespace Render

variable {α β : Type} {few many : TokenTable}

namespace Draft

/-- The second draft does at least as well as the first: a result of the first is matched by a related
one, and then without records if there were none. -/
def Improves (related : α → α → Prop) (first second : Draft α) : Prop :=
  ∀ value, first.result = .ok value →
    ∃ better, second.result = .ok better ∧ related value better ∧
      (first.records = [] → second.records = [])

/-- Texts are not compared. -/
abbrev AnyText {α : Type} (_ _ : α) : Prop := True

/-- Lists of texts are compared by their lengths. -/
abbrev SameLength (first second : List String) : Prop := first.length = second.length

namespace Improves

variable {related : α → α → Prop} {more : β → β → Prop}

theorem pure {value better : α} (agree : related value better) :
    Improves related (Draft.pure value) (Draft.pure better) := by
  rintro _ ⟨⟩
  exact ⟨better, rfl, agree, id⟩

theorem fail (fault : Fault) (second : Draft α) :
    Improves related (Draft.fail fault) second := by
  rintro _ ⟨⟩

theorem record (first second : Diagnostic) :
    Improves AnyText (Draft.record first) (Draft.record second) := by
  rintro _ ⟨⟩
  exact ⟨(), rfl, trivial, by simp [Draft.record]⟩

/-- An intact draft does as well as any other. -/
theorem intact {first second : Draft α} {value : α} (whole : second.intact? = some value) :
    Improves AnyText first second := by
  obtain ⟨result, records⟩ := second
  intro _ _
  cases result with
  | error fault => simp [intact?] at whole
  | ok better =>
      cases records with
      | nil => exact ⟨better, rfl, trivial, fun _ => rfl⟩
      | cons head tail => simp [intact?] at whole

/-- A chain does as well as another if each of its links does. -/
theorem bind {first second : Draft α} {next after : α → Draft β}
    (start : Improves related first second)
    (rest : ∀ value better, related value better → Improves more (next value) (after better)) :
    Improves more (first.bind next) (second.bind after) := by
  obtain ⟨result, records⟩ := first
  cases result with
  | error fault => rintro _ ⟨⟩
  | ok value =>
      intro final reached
      obtain ⟨better, found, agree, quiet⟩ := start value rfl
      obtain ⟨last, ends, holds, silent⟩ := rest value better agree final reached
      refine ⟨last, by rw [Draft.bind, found]; exact ends, holds, fun none => ?_⟩
      obtain ⟨before, later⟩ := List.append_eq_nil_iff.mp none
      rw [Draft.bind, found]
      exact List.append_eq_nil_iff.mpr ⟨quiet before, silent later⟩

/-- A settled draft always has a result; it recorded nothing only if it had one before. -/
theorem settled {first second : Draft String} (better : Improves AnyText first second) :
    Improves AnyText first.settled second.settled := by
  rintro _ ⟨⟩
  refine ⟨second.settle.1.text, rfl, trivial, fun none => ?_⟩
  obtain ⟨result, records⟩ := first
  cases result with
  | error fault => simp [Draft.settled, Draft.settle] at none
  | ok text =>
      obtain ⟨other, found, -, quiet⟩ := better text rfl
      change second.settle.2 = []
      rw [Draft.settle, found]
      exact quiet none

end Improves

end Draft

open Draft (AnyText Improves SameLength)

/-- A token that is looked up, or a fault. -/
private theorem improves_lookup (found other : Option String) (fault : Fault) :
    (found.isSome = true → other.isSome = true) →
      Improves AnyText
        (match found with
        | some text => .pure text
        | none => .fail fault)
        (match other with
        | some text => .pure text
        | none => .fail fault) := by
  intro kept
  cases found with
  | none => exact .fail fault _
  | some text =>
      obtain ⟨better, rfl⟩ := Option.isSome_iff_exists.mp (kept rfl)
      exact .pure trivial

theorem improves_require (covers : many.Covers few) (token : Token) :
    Improves AnyText (require few token) (require many token) :=
  improves_lookup _ _ _ (covers token)

theorem improves_requireOperator (covers : many.Covers few) (operator : OperatorToken) :
    Improves AnyText (requireOperator few operator) (requireOperator many operator) :=
  improves_lookup _ _ _ (covers (.operator operator))

/-- The token of functions may come in where that of control flow stood in for it. -/
theorem improves_returnKey (covers : many.Covers few) :
    Improves AnyText (returnKey few) (returnKey many) := by
  refine improves_lookup _ _ _ fun found => ?_
  rw [Option.isSome_or, Bool.or_eq_true] at found ⊢
  exact found.imp (covers _) (covers _)

theorem improves_join (covers : many.Covers few) (separator : Token) {texts others : List String}
    (length : SameLength texts others) :
    Improves AnyText (join few separator texts) (join many separator others) := by
  match texts, others, length with
  | [], [], _ => exact .pure trivial
  | [_], [_], _ => exact .pure trivial
  | _ :: _ :: _, _ :: _ :: _, _ =>
      exact (improves_require covers separator).bind fun _ _ _ => .pure trivial

theorem improves_dropKeywords (callee other : String) (keywords : List Keyword) :
    Improves AnyText (dropKeywords callee keywords) (dropKeywords other keywords) := by
  cases keywords with
  | nil => exact .pure trivial
  | cons first rest => exact .record _ _

theorem improves_dropElse (construct : String) (orelse : List Stmt) :
    Improves AnyText (dropElse construct orelse) (dropElse construct orelse) := by
  cases orelse with
  | nil => exact .pure trivial
  | cons first rest => exact .record _ _

/-- Marks around targets are written only if both are there, so new ones never fail. -/
theorem improves_groupTargets (covers : many.Covers few) {texts others : List String}
    (length : SameLength texts others) :
    Improves AnyText (groupTargets few texts) (groupTargets many others) := by
  refine (improves_join covers _ length).bind fun _ group _ => ?_
  cases set : many.isSet (.assignment .multipleAssignBegin) &&
      many.isSet (.assignment .multipleAssignEnd) with
  | false => exact .intact rfl
  | true =>
      obtain ⟨opening, closing⟩ := Bool.and_eq_true_iff.mp set
      obtain ⟨before, foundBefore⟩ := Option.isSome_iff_exists.mp (has_of_isSet opening)
      obtain ⟨after, foundAfter⟩ := Option.isSome_iff_exists.mp (has_of_isSet closing)
      refine .intact (show _ = some (before ++ group ++ after) from ?_)
      simp [require, foundBefore, foundAfter]

theorem improves_blockFrame (covers : many.Covers few) (tokens : BlockTokens) (head other : String) :
    Improves AnyText (blockFrame few tokens head) (blockFrame many tokens other) :=
  (improves_require covers _).bind fun _ _ _ => (improves_require covers _).bind fun _ _ _ =>
    (improves_require covers _).bind fun _ _ _ => (improves_require covers _).bind fun _ _ _ =>
      (improves_require covers _).bind fun _ _ _ => .pure trivial

theorem improves_functionFrame (covers : many.Covers few) (name : String) (params : List String) :
    Improves AnyText (functionFrame few name params) (functionFrame many name params) :=
  (improves_require covers _).bind fun _ _ _ => (improves_require covers _).bind fun _ _ _ =>
    (improves_require covers _).bind fun _ _ _ => (improves_join covers _ rfl).bind fun _ _ _ =>
      .pure trivial

mutual

theorem improves_renderExpr (covers : many.Covers few) :
    (expr : Expr) → Improves AnyText (renderExpr few expr) (renderExpr many expr)
  | .call func args keywords => by
      rw [renderExpr, renderExpr]
      exact (improves_renderExpr covers func).settled.bind fun callee other _ =>
        (improves_renderTexts covers args).bind fun _ _ length =>
          (improves_join covers _ length).bind fun _ _ _ =>
            (improves_dropKeywords callee other keywords).bind fun _ _ _ => .pure trivial
  | .name text => .pure trivial
  | .constant value => .pure trivial
  | .attribute value attr => by
      rw [renderExpr, renderExpr]
      exact (improves_require covers _).bind fun _ _ _ =>
        (improves_renderExpr covers value).settled.bind fun _ _ _ => .pure trivial
  | .binaryOp left op right => by
      rw [renderExpr, renderExpr]
      exact (improves_requireOperator covers _).bind fun _ _ _ =>
        (improves_renderExpr covers left).settled.bind fun _ _ _ =>
          (improves_renderExpr covers right).settled.bind fun _ _ _ => .pure trivial
  | .booleanOp op values => by
      rw [renderExpr, renderExpr]
      exact (improves_requireOperator covers _).bind fun _ _ _ =>
        (improves_renderTexts covers values).bind fun _ _ _ => .pure trivial
  | .compare left [op] [right] => by
      rw [renderExpr, renderExpr]
      exact (improves_requireOperator covers _).bind fun _ _ _ =>
        (improves_renderExpr covers left).settled.bind fun _ _ _ =>
          (improves_renderExpr covers right).settled.bind fun _ _ _ => .pure trivial
  | .compare _ [] _ | .compare _ (_ :: _ :: _) _ | .compare _ [_] [] |
    .compare _ [_] (_ :: _ :: _) => .fail _ _
  | .subscript value index => by
      rw [renderExpr, renderExpr]
      exact (improves_require covers _).bind fun _ _ _ => (improves_require covers _).bind fun _ _ _ =>
        (improves_renderExpr covers value).settled.bind fun _ _ _ =>
          (improves_renderExpr covers index).settled.bind fun _ _ _ => .pure trivial
  | .dict entries => by
      rw [renderExpr, renderExpr]
      exact (improves_require covers _).bind fun _ _ _ => (improves_require covers _).bind fun _ _ _ =>
        (improves_renderEntries covers entries).bind fun _ _ length =>
          (improves_join covers _ length).bind fun _ _ _ => .pure trivial
  | .list items | .tuple items => by
      rw [renderExpr, renderExpr]
      exact (improves_require covers _).bind fun _ _ _ => (improves_require covers _).bind fun _ _ _ =>
        (improves_renderTexts covers items).bind fun _ _ length =>
          (improves_join covers _ length).bind fun _ _ _ => .pure trivial
  | .other kind => .fail _ _

theorem improves_renderTexts (covers : many.Covers few) :
    (exprs : List Expr) → Improves SameLength (renderTexts few exprs) (renderTexts many exprs)
  | [] => .pure rfl
  | expr :: rest => by
      rw [renderTexts, renderTexts]
      exact (improves_renderExpr covers expr).settled.bind fun _ _ _ =>
        (improves_renderTexts covers rest).bind fun _ _ length => .pure (congrArg (· + 1) length)

theorem improves_renderEntries (covers : many.Covers few) :
    (entries : List DictEntry) →
      Improves SameLength (renderEntries few entries) (renderEntries many entries)
  | [] => .pure rfl
  | .spread _ :: rest => by
      rw [renderEntries, renderEntries]
      exact (Improves.record _ _).bind fun _ _ _ => improves_renderEntries covers rest
  | .keyed key value :: rest => by
      rw [renderEntries, renderEntries]
      exact (improves_require covers _).bind fun _ _ _ =>
        (improves_renderExpr covers key).settled.bind fun _ _ _ =>
          (improves_renderExpr covers value).settled.bind fun _ _ _ =>
            (improves_renderEntries covers rest).bind fun _ _ length => .pure (congrArg (· + 1) length)

end

private theorem improves_lines_cons {stmt : Stmt} {rest : List Stmt}
    (first : Improves AnyText (renderStmt few stmt) (renderStmt many stmt))
    (more : Improves AnyText (renderLines few rest) (renderLines many rest)) :
    Improves AnyText (renderLines few (stmt :: rest)) (renderLines many (stmt :: rest)) := by
  rw [renderLines, renderLines]
  exact first.settled.bind fun _ _ _ => more.bind fun _ _ _ => .pure trivial

mutual

theorem improves_renderStmt (covers : many.Covers few) :
    (stmt : Stmt) → Improves AnyText (renderStmt few stmt) (renderStmt many stmt)
  | .assign targets value => by
      rw [renderStmt, renderStmt]
      exact (improves_require covers _).bind fun _ _ _ =>
        (improves_renderTexts covers targets).bind fun _ _ length =>
          (improves_groupTargets covers length).bind fun _ _ _ =>
            (improves_renderExpr covers value).settled.bind fun _ _ _ => .pure trivial
  | .expr value => by
      rw [renderStmt, renderStmt]
      exact improves_renderExpr covers value
  | .returns none => by
      rw [renderStmt, renderStmt]
      exact improves_returnKey covers
  | .returns (some value) => by
      rw [renderStmt, renderStmt]
      exact (improves_returnKey covers).bind fun _ _ _ =>
        (improves_renderExpr covers value).settled.bind fun _ _ _ => .pure trivial
  | .functionDef definition => by
      rw [renderStmt, renderStmt]
      exact improves_renderFunction covers definition
  | .forEach target iter body orelse => by
      rw [renderStmt, renderStmt]
      exact (improves_require covers _).bind fun _ _ _ => (improves_dropElse _ orelse).bind fun _ _ _ =>
        (improves_renderExpr covers target).settled.bind fun _ _ _ =>
          (improves_renderExpr covers iter).settled.bind fun _ _ _ =>
            (improves_blockFrame covers _ _ _).bind fun _ _ _ =>
              (improves_renderBody covers body).bind fun _ _ _ => .pure trivial
  | .ifElse test body orelse | .whileLoop test body orelse => by
      rw [renderStmt, renderStmt]
      exact (improves_dropElse _ orelse).bind fun _ _ _ =>
        (improves_renderExpr covers test).settled.bind fun _ _ _ =>
          (improves_blockFrame covers _ _ _).bind fun _ _ _ =>
            (improves_renderBody covers body).bind fun _ _ _ => .pure trivial
  | .other kind => by
      rw [renderStmt]
      exact .fail _ _

theorem improves_renderFunction (covers : many.Covers few) :
    (definition : FunctionDef) →
      Improves AnyText (renderFunction few definition) (renderFunction many definition)
  | .mk name params body => by
      rw [renderFunction, renderFunction]
      exact (improves_functionFrame covers name params).bind fun _ _ _ =>
        (improves_renderBody covers body).bind fun _ _ _ => .pure trivial

theorem improves_renderBody (covers : many.Covers few) :
    (body : List Stmt) → Improves AnyText (renderBody few body) (renderBody many body)
  | [] => by
      rw [renderBody_nil, renderBody_nil]
      exact .pure trivial
  | stmt :: rest => by
      have more := improves_renderLines covers rest
      rw [renderBody_cons, renderBody_cons]
      split
      · exact more
      · exact improves_lines_cons (improves_renderStmt covers stmt) more

theorem improves_renderLines (covers : many.Covers few) :
    (body : List Stmt) → Improves AnyText (renderLines few body) (renderLines many body)
  | [] => by
      rw [renderLines, renderLines]
      exact .pure trivial
  | stmt :: rest =>
      improves_lines_cons (improves_renderStmt covers stmt) (improves_renderLines covers rest)

end

end Render

theorem Node.improves_render {few many : TokenTable} (covers : many.Covers few) (node : Node) :
    (node.render few).Improves Render.Draft.AnyText (node.render many) := by
  cases node with
  | expr value => exact Render.improves_renderExpr covers value
  | stmt value => exact Render.improves_renderStmt covers value
  | function definition => exact Render.improves_renderFunction covers definition

/-- With a table that has more tokens, whatever their texts, a node that was rendered still is, and a
clean respelling stays clean. -/
theorem respell_monotone {few many : TokenTable} (covers : many.Covers few) (node : Node) :
    ((respell few node).1.isRendered = true → (respell many node).1.isRendered = true) ∧
      ((respell few node).2.isClean = true → (respell many node).2.isClean = true) := by
  have improves := node.improves_render covers
  constructor
  · intro rendered
    rw [respell, Render.Draft.isRendered_settle, Render.Draft.succeeds] at rendered ⊢
    cases result : (node.render few).result with
    | error fault => simp [result] at rendered
    | ok text =>
        obtain ⟨better, found, -⟩ := improves text result
        rw [found]
  · intro clean
    -- Nothing that rendering records is clean, so a clean respelling has no records at all.
    rw [Render.Draft.isClean_iff_eq_nil (respell_telling few node)] at clean
    rw [Render.Draft.isClean_iff_eq_nil (respell_telling many node)]
    obtain ⟨_, _, _, quiet⟩ := improves.settled _ rfl
    exact quiet clean

/-- Two targets of an assignment joined by a comma. -/
def commaTargets : TokenTable :=
  .ofList [(.assignment .assignKey, " = "), (.assignment .multipleAssignJoin, ", ")]

/-- The tokens of `commaTargets` with other texts, and with marks around targets and a spelling of the
empty constant besides. -/
def markedTargets : TokenTable :=
  .ofList [(.assignment .assignKey, " := "), (.assignment .multipleAssignJoin, ""),
    (.assignment .multipleAssignBegin, "<"), (.assignment .multipleAssignEnd, ">"),
    (.literal .nullLiteral, "nil")]

theorem markedTargets_covers : markedTargets.Covers commaTargets := by
  intro token
  simp only [commaTargets, markedTargets, TokenTable.ofList, TokenTable.setAll, List.foldl_cons,
    List.foldl_nil, TokenTable.has, TokenTable.set, TokenTable.empty]
  split_ifs <;> simp

/-- An assignment takes other ways with the larger table: its targets are marked and its value is
spelled anew. It stays rendered and clean. -/
theorem respell_monotone_marked_targets :
    markedTargets.Covers commaTargets ∧
      respell commaTargets (.stmt (.assign [.name "a", .name "b"] (.constant .none))) =
        (.rendered "a, b = None", []) ∧
      respell markedTargets (.stmt (.assign [.name "a", .name "b"] (.constant .none))) =
        (.rendered "<ab> := nil", []) ∧
      (respell markedTargets (.stmt (.assign [.name "a", .name "b"] (.constant .none)))).1.isRendered
        = true ∧
      (respell markedTargets (.stmt (.assign [.name "a", .name "b"] (.constant .none)))).2.isClean
        = true := by
  have few : respell commaTargets (.stmt (.assign [.name "a", .name "b"] (.constant .none))) =
      (.rendered "a, b = None", []) := by cbv
  have many : respell markedTargets (.stmt (.assign [.name "a", .name "b"] (.constant .none))) =
      (.rendered "<ab> := nil", []) := by cbv
  have kept := respell_monotone markedTargets_covers
    (.stmt (.assign [.name "a", .name "b"] (.constant .none)))
  rw [few] at kept
  exact ⟨markedTargets_covers, few, many, kept.1 rfl, kept.2 rfl⟩

end Respell
