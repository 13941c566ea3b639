import Respell.Proofs.Accounting

/-!
Respelling does not look into the texts of tokens. Tables are alike if they have the same tokens and
agree on which marks around grouped targets are empty. A draft that depends on the table is uniform if
all tables alike take it the same way: to a result or to a fault of one kind, over records of the same
levels and kinds, with every text laid out by the same segments.
-/

set_option autoImplicit false

namespace Respell

open Syntax (Constant DictEntry Expr FunctionDef Keyword Stmt)

/-- A piece of a text: written out, or the text of a token. -/
inductive Segment
  | fixed (text : String)
  | token (token : Token)
  deriving DecidableEq

namespace Segment

/-- The text of a segment, unless it is a token without one. -/
def text? (table : TokenTable) : Segment → Option String
  | .fixed text => some text
  | .token name => table.get? name

/-- The texts of segments one after the other, unless one of them has none. -/
def spell? (table : TokenTable) : List Segment → Option String
  | [] => some ""
  | segment :: rest => do
    let first ← segment.text? table
    let more ← spell? table rest
    some (first ++ more)

theorem spell?_append {table : TokenTable} {first second : List Segment} {start finish : String}
    (before : spell? table first = some start) (after : spell? table second = some finish) :
    spell? table (first ++ second) = some (start ++ finish) := by
  induction first generalizing start with
  | nil =>
      obtain rfl : "" = start := by simpa [spell?] using before
      simpa using after
  | cons segment rest ih =>
      simp only [spell?, Option.bind_eq_bind, Option.bind_eq_some_iff, Option.some.injEq] at before
      obtain ⟨text, spelled, more, others, rfl⟩ := before
      simp [spell?, spelled, ih others, String.append_assoc]

end Segment

/-- Tables with the same tokens, which agree on whether the marks around grouped targets are set. -/
structure TokenTable.Alike (first second : TokenTable) : Prop where
  /-- The same tokens have a text. -/
  has : ∀ token, first.has token = second.has token
  /-- The mark before the targets is set in both or in none. -/
  opening : first.isSet (.assignment .multipleAssignBegin) =
    second.isSet (.assignment .multipleAssignBegin)
  /-- The mark after the targets is set in both or in none. -/
  closing : first.isSet (.assignment .multipleAssignEnd) =
    second.isSet (.assignment .multipleAssignEnd)

namespace TokenTable.Alike

variable {table model : TokenTable} {token : Token}

theorem found (alike : table.Alike model) (present : model.has token = true) (text : String) :
    table.get? token = some ((table.get? token).getD text) := by
  obtain ⟨value, found⟩ := Option.isSome_iff_exists.mp ((alike.has token).trans present)
  rw [found, Option.getD_some]

theorem missing (alike : table.Alike model) (absent : model.has token = false) :
    table.get? token = none := by
  simpa [TokenTable.has] using (alike.has token).trans absent

end TokenTable.Alike

/-- Level and kind of a record. -/
def Diagnostic.outline (record : Diagnostic) : Level × DiagnosticKind := (record.level, record.kind)

/-- The kind under which a node is unsupported, if it is. -/
def Rendering.fault? : Rendering → Option DiagnosticKind
  | .rendered _ => none
  | .unsupported kind => some kind

namespace Render

variable {α β : Type} {model : TokenTable}

/-- Texts that the same segments spell in all tables like a model. -/
def Laid (model : TokenTable) (texts : TokenTable → String) : Prop :=
  ∃ segments, ∀ table, table.Alike model → Segment.spell? table segments = some (texts table)

/-- Lists of texts of one length, each text laid. -/
inductive LaidAll (model : TokenTable) : (TokenTable → List String) → Prop
  | nil : LaidAll model fun _ => []
  | cons {first : TokenTable → String} {rest : TokenTable → List String} :
      Laid model first → LaidAll model rest → LaidAll model fun table => first table :: rest table

namespace Laid

theorem fixed (text : String) : Laid model fun _ => text :=
  ⟨[.fixed text], fun table _ => by simp [Segment.spell?, Segment.text?]⟩

theorem append {first second : TokenTable → String} (before : Laid model first)
    (after : Laid model second) : Laid model fun table => first table ++ second table := by
  obtain ⟨start, starts⟩ := before
  obtain ⟨finish, finishes⟩ := after
  exact ⟨start ++ finish, fun table alike =>
    Segment.spell?_append (starts table alike) (finishes table alike)⟩

/-- A token that the model has is a segment of its own. -/
theorem token {token : Token} (present : model.has token = true) (text : String) :
    Laid model fun table => (table.get? token).getD text :=
  ⟨[.token token], fun table alike => by
    rw [Segment.spell?, Segment.text?, alike.found present text]
    simp [Segment.spell?]⟩

/-- A token with a text to fall back on: which of them is used depends on the model alone. -/
theorem fallback (token : Token) (text : String) :
    Laid model fun table => (table.get? token).getD text := by
  cases present : model.has token with
  | true => exact .token present text
  | false =>
      refine ⟨[.fixed text], fun table alike => ?_⟩
      simp [Segment.spell?, Segment.text?, alike.missing present]

theorem intercalate {between : TokenTable → String} {texts : TokenTable → List String}
    (separator : Laid model between) (all : LaidAll model texts) :
    Laid model fun table => (between table).intercalate (texts table) := by
  induction all with
  | nil => simpa using fixed ""
  | cons first rest ih =>
      cases rest with
      | nil => simpa using first
      | cons second more =>
          simp only [String.intercalate_cons_cons]
          exact (first.append separator).append ih

end Laid

/-- Drafts that all tables like a model take the same way. A result satisfies `holds`, as a function
of the table. -/
inductive Uniform (model : TokenTable) (holds : (TokenTable → α) → Prop)
    (drafts : TokenTable → Draft α) : Prop
  | done (outline : List (Level × DiagnosticKind)) (values : TokenTable → α)
      (records : ∀ table, table.Alike model →
        (drafts table).records.map Diagnostic.outline = outline)
      (results : ∀ table, table.Alike model → (drafts table).result = .ok (values table))
      (held : holds values)
  | failed (outline : List (Level × DiagnosticKind)) (kind : DiagnosticKind)
      (records : ∀ table, table.Alike model →
        (drafts table).records.map Diagnostic.outline = outline)
      (results : ∀ table, table.Alike model →
        ∃ message, (drafts table).result = .error ⟨kind, message⟩)

namespace Uniform

variable {holds : (TokenTable → α) → Prop} {more : (TokenTable → β) → Prop}

theorem congr {drafts others : TokenTable → Draft α} (uniform : Uniform model holds others)
    (agree : ∀ table, table.Alike model → drafts table = others table) :
    Uniform model holds drafts := by
  cases uniform with
  | done outline values records results held =>
      exact .done outline values (fun table alike => agree table alike ▸ records table alike)
        (fun table alike => agree table alike ▸ results table alike) held
  | failed outline kind records results =>
      exact .failed outline kind (fun table alike => agree table alike ▸ records table alike)
        fun table alike => agree table alike ▸ results table alike

theorem pure {values : TokenTable → α} (held : holds values) :
    Uniform model holds fun table => Draft.pure (values table) :=
  .done [] values (fun _ _ => rfl) (fun _ _ => rfl) held

theorem fail (kind : DiagnosticKind) (message : TokenTable → String) :
    Uniform model holds fun table => Draft.fail ⟨kind, message table⟩ :=
  .failed [] kind (fun _ _ => rfl) fun table _ => ⟨message table, rfl⟩

theorem record (level : Level) (kind : DiagnosticKind) (message : TokenTable → String) :
    Uniform model (fun _ => True) fun table => Draft.record ⟨level, kind, message table⟩ :=
  .done [(level, kind)] (fun _ => ()) (fun _ _ => rfl) (fun _ _ => rfl) trivial

/-- A chain goes the same way if its first link does and, after it, the rest. -/
theorem bind {drafts : TokenTable → Draft α} {next : TokenTable → α → Draft β}
    (first : Uniform model holds drafts)
    (rest : ∀ values, holds values → Uniform model more fun table => next table (values table)) :
    Uniform model more fun table => (drafts table).bind (next table) := by
  cases first with
  | failed outline kind records results =>
      refine .failed outline kind (fun table alike => ?_) fun table alike => ?_
      · obtain ⟨message, result⟩ := results table alike
        rw [← records table alike, Draft.bind, result]
      · obtain ⟨message, result⟩ := results table alike
        exact ⟨message, by rw [Draft.bind, result]⟩
  | done outline values records results held =>
      have chained (table : TokenTable) (alike : table.Alike model) :
          (drafts table).bind (next table) = ⟨(next table (values table)).result,
            (drafts table).records ++ (next table (values table)).records⟩ := by
        rw [Draft.bind, results table alike]
      cases rest values held with
      | done others finals further finish kept =>
          refine .done (outline ++ others) finals (fun table alike => ?_) (fun table alike => ?_) kept
          · rw [chained table alike, List.map_append, records table alike, further table alike]
          · rw [chained table alike, finish table alike]
      | failed others kind further finish =>
          refine .failed (outline ++ others) kind (fun table alike => ?_) fun table alike => ?_
          · rw [chained table alike, List.map_append, records table alike, further table alike]
          · rw [chained table alike]
            exact finish table alike

/-- Settling reports a fault of the same kind for all tables, and goes on with no text. -/
theorem settled {drafts : TokenTable → Draft String} (uniform : Uniform model (Laid model) drafts) :
    Uniform model (Laid model) fun table => (drafts table).settled := by
  cases uniform with
  | done outline values records results held =>
      refine .done outline values (fun table alike => ?_) (fun table alike => ?_) held
      · rw [← records table alike]
        simp [Draft.settled, Draft.settle, results table alike]
      · simp [Draft.settled, Draft.settle, results table alike, Rendering.text]
  | failed outline kind records results =>
      refine .done (outline ++ [(kind.defaultLevel, kind)]) (fun _ => "") (fun table alike => ?_)
        (fun table alike => ?_) (.fixed "")
      · obtain ⟨message, result⟩ := results table alike
        rw [← records table alike]
        simp [Draft.settled, Draft.settle, result, Diagnostic.outline, Diagnostic.report]
      · obtain ⟨message, result⟩ := results table alike
        simp [Draft.settled, Draft.settle, result, Rendering.text]

end Uniform

/-- A text that is looked for in the table, or a fault. -/
private theorem uniform_lookup {look : TokenTable → Option String} (token : Token)
    (agree : ∀ table, table.Alike model → look table = table.get? token) (fault : Fault) :
    Uniform model (Laid model) fun table =>
      match look table with
      | some text => .pure text
      | none => .fail fault := by
  cases present : model.has token with
  | true =>
      refine (Uniform.pure (.token present "")).congr fun table alike => ?_
      rw [agree table alike, alike.found present ""]
      rfl
  | false =>
      refine (Uniform.fail fault.kind fun _ => fault.message).congr fun table alike => ?_
      rw [agree table alike, alike.missing present]

theorem uniform_require (token : Token) :
    Uniform model (Laid model) fun table => require table token :=
  uniform_lookup token (fun _ _ => rfl) _

theorem uniform_requireOperator (operator : OperatorToken) :
    Uniform model (Laid model) fun table => requireOperator table operator :=
  uniform_lookup (.operator operator) (fun _ _ => rfl) _

theorem uniform_returnKey : Uniform model (Laid model) returnKey := by
  cases present : model.has (.function .returnKey) with
  | true =>
      refine uniform_lookup (.function .returnKey) (fun table alike => ?_) _
      rw [alike.found present ""]
      rfl
  | false =>
      refine uniform_lookup (.flow .returnKey) (fun table alike => ?_) _
      rw [alike.missing present, Option.none_or]

theorem uniform_join (separator : Token) {texts : TokenTable → List String}
    (all : LaidAll model texts) :
    Uniform model (Laid model) fun table => join table separator (texts table) := by
  cases all with
  | nil => exact .pure (.fixed "")
  | cons first rest =>
      cases rest with
      | nil => exact .pure first
      | cons second more =>
          refine (uniform_require separator).bind fun between laid => ?_
          exact .pure (laid.intercalate (.cons first (.cons second more)))

theorem uniform_dropKeywords (callee : TokenTable → String) (keywords : List Keyword) :
    Uniform model (fun _ => True) fun table => dropKeywords (callee table) keywords := by
  cases keywords with
  | nil => exact .pure trivial
  | cons first rest => exact .record .warning .unsupportedConstruct _

theorem uniform_dropElse (construct : String) (orelse : List Stmt) :
    Uniform model (fun _ => True) fun _ => dropElse construct orelse := by
  cases orelse with
  | nil => exact .pure trivial
  | cons first rest => exact .record .warning .unsupportedConstruct _

/-- Whether targets are grouped is the one thing that depends on texts, and tables alike agree. -/
theorem uniform_groupTargets {texts : TokenTable → List String} (all : LaidAll model texts) :
    Uniform model (Laid model) fun table => groupTargets table (texts table) := by
  refine (uniform_join _ all).bind fun group laid => ?_
  cases wrapped : model.isSet (.assignment .multipleAssignBegin) &&
      model.isSet (.assignment .multipleAssignEnd) with
  | true =>
      have grouped : Uniform model (Laid model) fun table =>
          (require table (.assignment .multipleAssignBegin)).bind fun opening =>
            (require table (.assignment .multipleAssignEnd)).bind fun closing =>
              .pure (opening ++ group table ++ closing) :=
        (uniform_require _).bind fun _ before => (uniform_require _).bind fun _ after =>
          .pure ((before.append laid).append after)
      refine grouped.congr fun table alike => ?_
      rw [alike.opening, alike.closing, wrapped, if_pos rfl]
      rfl
  | false =>
      refine Uniform.congr (.pure laid) fun table alike => ?_
      rw [alike.opening, alike.closing, wrapped]
      rfl

/-- What stands before and after a body is laid. -/
def LaidAround (model : TokenTable) (ends : TokenTable → String × String) : Prop :=
  (Laid model fun table => (ends table).1) ∧ Laid model fun table => (ends table).2

theorem uniform_blockFrame (tokens : BlockTokens) {head : TokenTable → String}
    (laid : Laid model head) :
    Uniform model (LaidAround model) fun table => blockFrame table tokens (head table) :=
  (uniform_require _).bind fun _ key => (uniform_require _).bind fun _ opening =>
    (uniform_require _).bind fun _ closing => (uniform_require _).bind fun _ openBody =>
      (uniform_require _).bind fun _ closeBody =>
        .pure ⟨(((key.append opening).append laid).append closing).append openBody, closeBody⟩

theorem laidAll_fixed (texts : List String) : LaidAll model fun _ => texts := by
  induction texts with
  | nil => exact .nil
  | cons first rest ih => exact .cons (.fixed first) ih

theorem uniform_functionFrame (name : String) (params : List String) :
    Uniform model (LaidAround model) fun table => functionFrame table name params :=
  (uniform_require _).bind fun _ define => (uniform_require _).bind fun _ openBody =>
    (uniform_require _).bind fun _ closeBody =>
      (uniform_join _ (laidAll_fixed params)).bind fun _ inner =>
        .pure ⟨((((define.append (.fixed name)).append (.fixed "(")).append inner).append
          (.fixed ")")).append openBody, closeBody⟩

theorem laid_constantText (value : Constant) :
    Laid model fun table => constantText table value := by
  cases value with
  | none => exact .fallback _ _
  | bool value => cases value <;> exact .fallback _ _
  | int value => exact .fixed _
  | float bits => exact .fixed _
  | ellipsis => exact .fixed _
  | str text =>
      cases opening : model.has (.literal .stringBegin) with
      | false =>
          refine ⟨[.fixed text], fun table alike => ?_⟩
          simp [constantText, alike.missing opening, Segment.spell?, Segment.text?]
      | true =>
          cases closing : model.has (.literal .stringEnd) with
          | false =>
              refine ⟨[.fixed text], fun table alike => ?_⟩
              simp [constantText, alike.missing closing, Segment.spell?, Segment.text?]
          | true =>
              obtain ⟨segments, spelled⟩ :=
                ((Laid.token opening "").append (.fixed text)).append (.token closing "")
              refine ⟨segments, fun table alike => ?_⟩
              simp only [constantText]
              rw [spelled table alike, alike.found opening "", alike.found closing ""]

mutual

theorem uniform_renderExpr :
    (expr : Expr) → Uniform model (Laid model) fun table => renderExpr table expr
  | .call func args keywords => by
      simp only [renderExpr]
      exact (uniform_renderExpr func).settled.bind fun callee called =>
        (uniform_renderTexts args).bind fun _ all => (uniform_join _ all).bind fun _ inner =>
          (uniform_dropKeywords callee keywords).bind fun _ _ =>
            .pure (((called.append (.fixed "(")).append inner).append (.fixed ")"))
  | .name text => .pure (.fixed text)
  | .constant value => .pure (laid_constantText value)
  | .attribute value attr => by
      simp only [renderExpr]
      exact (uniform_require _).bind fun _ dot => (uniform_renderExpr value).settled.bind
        fun _ receiver => .pure ((receiver.append dot).append (.fixed attr))
  | .binaryOp left op right => by
      simp only [renderExpr]
      exact (uniform_requireOperator _).bind fun _ symbol =>
        (uniform_renderExpr left).settled.bind fun _ first =>
          (uniform_renderExpr right).settled.bind fun _ second =>
            .pure ((first.append symbol).append second)
  | .booleanOp op values => by
      simp only [renderExpr]
      exact (uniform_requireOperator _).bind fun _ symbol =>
        (uniform_renderTexts values).bind fun _ all => .pure (symbol.intercalate all)
  | .compare left [op] [right] => by
      simp only [renderExpr]
      exact (uniform_requireOperator _).bind fun _ symbol =>
        (uniform_renderExpr left).settled.bind fun _ first =>
          (uniform_renderExpr right).settled.bind fun _ second =>
            .pure ((first.append symbol).append second)
  | .compare _ [] _ | .compare _ (_ :: _ :: _) _ | .compare _ [_] [] |
    .compare _ [_] (_ :: _ :: _) => .fail .unsupportedComparisonShape _
  | .subscript value index => by
      simp only [renderExpr]
      exact (uniform_require _).bind fun _ opening => (uniform_require _).bind fun _ closing =>
        (uniform_renderExpr value).settled.bind fun _ receiver =>
          (uniform_renderExpr index).settled.bind fun _ key =>
            .pure (((receiver.append opening).append key).append closing)
  | .dict entries => by
      simp only [renderExpr]
      exact (uniform_require _).bind fun _ opening => (uniform_require _).bind fun _ closing =>
        (uniform_renderEntries entries).bind fun _ all => (uniform_join _ all).bind fun _ inner =>
          .pure ((opening.append inner).append closing)
  | .list items | .tuple items => by
      simp only [renderExpr]
      exact (uniform_require _).bind fun _ opening => (uniform_require _).bind fun _ closing =>
        (uniform_renderTexts items).bind fun _ all => (uniform_join _ all).bind fun _ inner =>
          .pure ((opening.append inner).append closing)
  | .other kind => .fail .unsupportedConstruct _

theorem uniform_renderTexts :
    (exprs : List Expr) → Uniform model (LaidAll model) fun table => renderTexts table exprs
  | [] => .pure .nil
  | expr :: rest => by
      simp only [renderTexts]
      exact (uniform_renderExpr expr).settled.bind fun _ first =>
        (uniform_renderTexts rest).bind fun _ more => .pure (.cons first more)

theorem uniform_renderEntries :
    (entries : List DictEntry) →
      Uniform model (LaidAll model) fun table => renderEntries table entries
  | [] => .pure .nil
  | .spread _ :: rest => by
      simp only [renderEntries]
      exact (Uniform.record .error .malformedLiteral _).bind fun _ _ => uniform_renderEntries rest
  | .keyed key value :: rest => by
      simp only [renderEntries]
      exact (uniform_require _).bind fun _ between =>
        (uniform_renderExpr key).settled.bind fun _ first =>
          (uniform_renderExpr value).settled.bind fun _ second =>
            (uniform_renderEntries rest).bind fun _ more =>
              .pure (.cons ((first.append between).append second) more)

end

/-- A body in its frame. -/
private theorem uniform_framed {frame : TokenTable → Draft (String × String)}
    {body : TokenTable → Draft String} (around : Uniform model (LaidAround model) frame)
    (inside : Uniform model (Laid model) body) :
    Uniform model (Laid model) fun table => (frame table).bind fun ends =>
      (body table).bind fun inner => .pure (ends.1 ++ inner ++ ends.2) :=
  around.bind fun _ ends => inside.bind fun _ inner => .pure ((ends.1.append inner).append ends.2)

private theorem uniform_lines_cons {stmt : Stmt} {rest : List Stmt}
    (first : Uniform model (Laid model) fun table => renderStmt table stmt)
    (more : Uniform model (Laid model) fun table => renderLines table rest) :
    Uniform model (Laid model) fun table => renderLines table (stmt :: rest) := by
  simp only [renderLines]
  exact first.settled.bind fun _ first => more.bind fun _ more =>
    .pure (((Laid.fixed "\n\t").append first).append more)

mutual

theorem uniform_renderStmt :
    (stmt : Stmt) → Uniform model (Laid model) fun table => renderStmt table stmt
  | .assign targets value => by
      simp only [renderStmt]
      exact (uniform_require _).bind fun _ between => (uniform_renderTexts targets).bind fun _ all =>
        (uniform_groupTargets all).bind fun _ group =>
          (uniform_renderExpr value).settled.bind fun _ assigned =>
            .pure ((group.append between).append assigned)
  | .expr value => by
      simp only [renderStmt]
      exact uniform_renderExpr value
  | .returns none => by
      simp only [renderStmt]
      exact uniform_returnKey
  | .returns (some value) => by
      simp only [renderStmt]
      exact uniform_returnKey.bind fun _ key => (uniform_renderExpr value).settled.bind fun _ text =>
        .pure (key.append text)
  | .functionDef definition => by
      simp only [renderStmt]
      exact uniform_renderFunction definition
  | .forEach target iter body orelse => by
      simp only [renderStmt]
      exact (uniform_require _).bind fun _ between => (uniform_dropElse _ orelse).bind fun _ _ =>
        (uniform_renderExpr target).settled.bind fun _ item =>
          (uniform_renderExpr iter).settled.bind fun _ source =>
            uniform_framed (uniform_blockFrame _ ((item.append between).append source))
              (uniform_renderBody body)
  | .ifElse test body orelse | .whileLoop test body orelse => by
      simp only [renderStmt]
      exact (uniform_dropElse _ orelse).bind fun _ _ =>
        (uniform_renderExpr test).settled.bind fun _ head =>
          uniform_framed (uniform_blockFrame _ head) (uniform_renderBody body)
  | .other kind => by
      simp only [renderStmt]
      exact .fail .unsupportedConstruct _

theorem uniform_renderFunction :
    (definition : FunctionDef) →
      Uniform model (Laid model) fun table => renderFunction table definition
  | .mk name params body => by
      simp only [renderFunction]
      exact uniform_framed (uniform_functionFrame name params) (uniform_renderBody body)

theorem uniform_renderBody :
    (body : List Stmt) → Uniform model (Laid model) fun table => renderBody table body
  | [] => by
      simp only [renderBody_nil]
      exact .pure (.fixed "")
  | stmt :: rest => by
      have more := uniform_renderLines rest
      simp only [renderBody_cons]
      split
      · exact more
      · exact uniform_lines_cons (uniform_renderStmt stmt) more

theorem uniform_renderLines :
    (body : List Stmt) → Uniform model (Laid model) fun table => renderLines table body
  | [] => by
      simp only [renderLines]
      exact .pure (.fixed "")
  | stmt :: rest => uniform_lines_cons (uniform_renderStmt stmt) (uniform_renderLines rest)

end

end Render

theorem Node.uniform_render (model : TokenTable) (node : Node) :
    Render.Uniform model (Render.Laid model) fun table => node.render table := by
  cases node with
  | expr value => exact Render.uniform_renderExpr value
  | stmt value => exact Render.uniform_renderStmt value
  | function definition => exact Render.uniform_renderFunction definition

/-- For all tables like a model there is one outcome, one sequence of levels and kinds, and one layout
of the text. -/
theorem respell_uniform (model : TokenTable) (node : Node) :
    ∃ (fault : Option DiagnosticKind) (outline : List (Level × DiagnosticKind))
      (segments : List Segment), ∀ table, table.Alike model →
        (respell table node).1.fault? = fault ∧
        (respell table node).2.map Diagnostic.outline = outline ∧
        Segment.spell? table segments = some (respell table node).1.text := by
  cases node.uniform_render model with
  | done outline texts records results laid =>
      obtain ⟨segments, spelled⟩ := laid
      refine ⟨none, outline, segments, fun table alike => ?_⟩
      have settled : respell table node = (.rendered (texts table), (node.render table).records) := by
        rw [respell, Render.Draft.settle, results table alike]
      rw [settled]
      exact ⟨rfl, records table alike, spelled table alike⟩
  | failed outline kind records results =>
      refine ⟨some kind, outline ++ [(kind.defaultLevel, kind)], [], fun table alike => ?_⟩
      obtain ⟨message, result⟩ := results table alike
      have settled : respell table node =
          (.unsupported kind, (node.render table).records ++ [.report kind message]) := by
        rw [respell, Render.Draft.settle, result]
      rw [settled, List.map_append, records table alike]
      exact ⟨rfl, rfl, rfl⟩

/-- Two tables that are alike respell a node to the same outcome, with records of the same levels and
kinds at the same places, and their texts differ only in the texts of the tokens. -/
theorem respell_parametric (node : Node) {first second : TokenTable} (alike : first.Alike second) :
    (respell first node).1.fault? = (respell second node).1.fault? ∧
      (respell first node).2.map Diagnostic.outline =
        (respell second node).2.map Diagnostic.outline ∧
      ∃ segments : List Segment,
        Segment.spell? first segments = some (respell first node).1.text ∧
          Segment.spell? second segments = some (respell second node).1.text := by
  obtain ⟨fault, outline, segments, uniform⟩ := respell_uniform second node
  obtain ⟨firstFault, firstOutline, firstText⟩ := uniform first alike
  obtain ⟨secondFault, secondOutline, secondText⟩ := uniform second ⟨fun _ => rfl, rfl, rfl⟩
  exact ⟨firstFault.trans secondFault.symm, firstOutline.trans secondOutline.symm,
    segments, firstText, secondText⟩

/-- Targets in round marks, spelled with a plain sign. -/
def roundTargets : TokenTable :=
  .ofList [(.assignment .assignKey, " = "), (.assignment .multipleAssignBegin, "("),
    (.assignment .multipleAssignEnd, ")"), (.assignment .multipleAssignJoin, ", ")]

/-- Targets in square marks, spelled with texts that look like source text or are empty. -/
def squareTargets : TokenTable :=
  .ofList [(.assignment .assignKey, "a = ["), (.assignment .multipleAssignBegin, "["),
    (.assignment .multipleAssignEnd, "]"), (.assignment .multipleAssignJoin, "")]

theorem roundTargets_alike : roundTargets.Alike squareTargets := by
  refine ⟨fun token => ?_, rfl, rfl⟩
  simp only [roundTargets, squareTargets, TokenTable.ofList, TokenTable.setAll, List.foldl_cons,
    List.foldl_nil, TokenTable.has, TokenTable.set]
  split_ifs <;> rfl

/-- Two targets are grouped by both tables, each with its own marks. -/
theorem respell_parametric_two_targets :
    roundTargets.Alike squareTargets ∧
      respell roundTargets (.stmt (.assign [.name "a", .name "b"] (.other "Lambda"))) =
        (.rendered "(a, b) = ",
          [⟨.error, .unsupportedConstruct, "no translation for Lambda nodes"⟩]) ∧
      (respell squareTargets (.stmt (.assign [.name "a", .name "b"] (.other "Lambda")))).1.text =
        "[ab]a = [" ∧
      ∃ segments : List Segment,
        Segment.spell? roundTargets segments = some "(a, b) = " ∧
          Segment.spell? squareTargets segments = some "[ab]a = [" := by
  have round : respell roundTargets (.stmt (.assign [.name "a", .name "b"] (.other "Lambda"))) =
      (.rendered "(a, b) = ",
        [⟨.error, .unsupportedConstruct, "no translation for Lambda nodes"⟩]) := by cbv
  have square : (respell squareTargets
      (.stmt (.assign [.name "a", .name "b"] (.other "Lambda")))).1.text = "[ab]a = [" := by cbv
  have both := (respell_parametric (.stmt (.assign [.name "a", .name "b"] (.other "Lambda")))
    roundTargets_alike).2.2
  rw [round, square] at both
  exact ⟨roundTargets_alike, round, square, both⟩

end Respell
