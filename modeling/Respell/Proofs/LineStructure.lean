import Respell.Proofs.Accounting
import Respell.Proofs.Pruning
import Respell.Proofs.TableLoading

/-!
Lines of a rendered function. If neither the tokens nor the words that are rendered have a line
break, every line break of the text stands before a tab and begins the line of one statement: a
statement of the body of the function or of a body inside it, at whatever depth, as long as what holds
that body is rendered.
-/

set_option autoImplicit false

namespace Respell

open Syntax (Constant DictEntry Expr FunctionDef Stmt)

/-- A text without a line break. -/
def OneLine (text : String) : Prop := '\n' ∉ text.toList

instance (text : String) : Decidable (OneLine text) :=
  inferInstanceAs (Decidable ('\n' ∉ text.toList))

/-- All texts of a table are without a line break. -/
def TokenTable.EachOneLine (table : TokenTable) : Prop :=
  ∀ token text, table.get? token = some text → OneLine text

theorem TokenTable.eachOneLine_ofList {pairs : List (Token × String)}
    (flat : ∀ pair ∈ pairs, OneLine pair.2) : (ofList pairs).EachOneLine := by
  intro token text found
  rw [get?_ofList, List.lookup_eq_some_iff] at found
  obtain ⟨before, after, same, -⟩ := found
  have member : (token, text) ∈ pairs.reverse := by simp [same]
  exact flat _ (List.mem_reverse.mp member)

/-- A text with so many line breaks, each of them before a tab. -/
structure Lined (count : Nat) (text : String) : Prop where
  /-- The number of line breaks. -/
  breaks : text.toList.count '\n' = count
  /-- What stands after a line break. -/
  tabbed : ∀ before after, text.toList = before ++ '\n' :: after → ∃ rest, after = '\t' :: rest

theorem OneLine.empty : OneLine "" := by decide

theorem OneLine.append {first second : String} (before : OneLine first) (after : OneLine second) :
    OneLine (first ++ second) := by
  intro member
  rw [String.toList_append, List.mem_append] at member
  exact member.elim before after

theorem OneLine.intercalate {between : String} (separator : OneLine between) {texts : List String}
    (all : ∀ text ∈ texts, OneLine text) : OneLine (between.intercalate texts) := by
  induction texts with
  | nil =>
      rw [String.intercalate_nil]
      decide
  | cons first rest ih =>
      obtain ⟨start, more⟩ := List.forall_mem_cons.mp all
      cases rest with
      | nil => rwa [String.intercalate_singleton]
      | cons second others =>
          rw [String.intercalate_cons_cons]
          exact (start.append separator).append (ih more)

theorem OneLine.lined {text : String} (flat : OneLine text) : Lined 0 text := by
  refine ⟨List.count_eq_zero_of_not_mem flat, ?_⟩
  intro before after split
  have member : '\n' ∈ text.toList := by simp [split]
  exact absurd member flat

namespace Lined

theorem append {count more : Nat} {first second : String} (before : Lined count first)
    (after : Lined more second) : Lined (count + more) (first ++ second) := by
  refine ⟨?_, ?_⟩
  · rw [String.toList_append, List.count_append, before.breaks, after.breaks]
  · intro start finish split
    rw [String.toList_append, List.append_eq_append_iff] at split
    rcases split with ⟨middle, -, inSecond⟩ | ⟨middle, inFirst, rest⟩
    · exact after.tabbed middle finish inSecond
    · -- the break is in the first text, unless that ends right before it
      cases middle with
      | nil => exact after.tabbed [] finish rest.symm
      | cons c middle =>
          obtain ⟨rfl, rfl⟩ := List.cons.inj rest
          obtain ⟨tail, rfl⟩ := before.tabbed start middle inFirst
          exact ⟨tail ++ second.toList, rfl⟩

/-- What stands on one line around a text adds no line. -/
theorem framed {count : Nat} {before inner after : String} (opening : OneLine before)
    (lines : Lined count inner) (closing : OneLine after) :
    Lined count (before ++ inner ++ after) := by
  simpa using (opening.lined.append lines).append closing.lined

/-- The start of a line. -/
theorem start : Lined 1 "\n\t" := by
  refine ⟨by decide, ?_⟩
  intro before after split
  have chars : "\n\t".toList = ['\n', '\t'] := rfl
  rw [chars] at split
  cases before with
  | nil => exact ⟨[], (List.cons.inj split).2.symm⟩
  | cons c rest =>
      have member : '\n' ∈ ['\t'] := by simp [(List.cons.inj split).2]
      exact absurd member (by decide)

end Lined

namespace Render

/-! ### Numbers -/

theorem newline_notMem_toDigits (n : Nat) : '\n' ∉ Nat.toDigits 10 n := by
  intro member
  have digit := Nat.isDigit_of_mem_toDigits (by decide) (by decide) member
  exact absurd digit (by decide)

theorem newline_notMem_leadingDigits (n : Nat) : '\n' ∉ leadingDigits n := by
  have kept : '\n' ∉ ((Nat.toDigits 10 n).reverse.dropWhile (· == '0')).reverse := by
    intro member
    have among := (List.dropWhile_sublist _).subset (List.mem_reverse.mp member)
    exact newline_notMem_toDigits n (List.mem_reverse.mp among)
  unfold leadingDigits
  split
  · decide
  · exact kept

theorem newline_notMem_positional {digits : List Char} (flat : '\n' ∉ digits) (exponent : Int) :
    '\n' ∉ positional digits exponent := by
  have taken (count : Nat) : '\n' ∉ digits.take count :=
    fun member => flat (List.mem_of_mem_take member)
  have left (count : Nat) : '\n' ∉ digits.drop count :=
    fun member => flat (List.mem_of_mem_drop member)
  unfold positional
  split
  · simp [flat]
  · dsimp only
    split <;> simp [taken, left]

theorem newline_notMem_exponentText (exponent : Int) : '\n' ∉ exponentText exponent := by
  unfold exponentText
  split <;> simp [newline_notMem_toDigits]

theorem newline_notMem_scientific {digits : List Char} (flat : '\n' ∉ digits) (exponent : Int) :
    '\n' ∉ scientific digits exponent := by
  unfold scientific
  split
  next first second rest =>
    simp only [List.mem_cons, not_or] at flat
    simp [flat, newline_notMem_exponentText]
  next => simp [flat, newline_notMem_exponentText]

theorem newline_notMem_magnitudeText (bits : Nat) : '\n' ∉ magnitudeText bits := by
  unfold magnitudeText
  split
  · decide
  · -- the digits are named here: their search is too deep to be reduced
    split
    next n lowest _ =>
      dsimp only
      split
      · exact newline_notMem_positional (newline_notMem_leadingDigits n) _
      · exact newline_notMem_scientific (newline_notMem_leadingDigits n) _

theorem oneLine_floatText (bits : UInt64) : OneLine (floatText bits) := by
  have sign : '\n' ∉ (if Decimal.isNegative bits.toNat then ['-'] else []) := by split <;> decide
  unfold OneLine floatText
  dsimp only
  split
  · rw [String.toList_ofList, List.mem_append, not_or]
    exact ⟨sign, newline_notMem_magnitudeText _⟩
  · split
    · rw [String.toList_ofList, List.mem_append, not_or]
      exact ⟨sign, by decide⟩
    · decide

theorem oneLine_toString (value : Int) : OneLine (toString value) := by
  unfold OneLine
  cases value with
  | ofNat n => simp [toString, Int.repr, Nat.repr, newline_notMem_toDigits]
  | negSucc n => simp [toString, Int.repr, Nat.repr, newline_notMem_toDigits]

/-! ### Results of drafts -/

namespace Draft

variable {α β : Type}

/-- Whatever a draft results in has a property. -/
def Ensures (holds : α → Prop) (draft : Draft α) : Prop :=
  ∀ value, draft.result = .ok value → holds value

namespace Ensures

variable {holds : α → Prop}

theorem pure {value : α} (held : holds value) : Ensures holds (Draft.pure value) := by
  intro other same
  exact Except.ok.inj same ▸ held

theorem fail (fault : Fault) : Ensures holds (Draft.fail fault) := by
  intro value result
  cases result

theorem anything (draft : Draft α) : Ensures (fun _ => True) draft := fun _ _ => trivial

theorem bind {draft : Draft α} {next : α → Draft β} {after : β → Prop}
    (first : Ensures holds draft) (rest : ∀ value, holds value → Ensures after (next value)) :
    Ensures after (draft.bind next) := by
  obtain ⟨result, records⟩ := draft
  intro value final
  cases result with
  | error fault => cases final
  | ok middle => exact rest middle (first middle rfl) value final

/-- A fault leaves empty text. -/
theorem settled {holds : String → Prop} {draft : Draft String} (ensured : Ensures holds draft)
    (empty : draft.succeeds = false → holds "") : Ensures holds draft.settled := by
  obtain ⟨result, records⟩ := draft
  cases result with
  | error fault => exact .pure (empty rfl)
  | ok text => exact .pure (ensured text rfl)

/-- A text on one line may be left out. -/
theorem settled_oneLine {draft : Draft String} (ensured : Ensures OneLine draft) :
    Ensures OneLine draft.settled :=
  ensured.settled fun _ => by decide

/-- The lines of a text are there only if it is. -/
theorem settled_lined {draft : Draft String} {count : Nat} (ensured : Ensures (Lined count) draft) :
    Ensures (Lined (if draft.succeeds then count else 0)) draft.settled := by
  cases done : draft.succeeds with
  | true => exact ensured.settled fun failed => absurd (done.symm.trans failed) (by decide)
  | false =>
      have unreached : Ensures (Lined 0) draft := by
        intro text result
        simp [succeeds, result] at done
      exact unreached.settled fun _ => OneLine.lined (by decide)

theorem lined {draft : Draft String} (ensured : Ensures OneLine draft) :
    Ensures (Lined 0) draft := fun text result => (ensured text result).lined

theorem rendered {holds : String → Prop} {draft : Draft String} {text : String}
    (ensured : Ensures holds draft) (outcome : draft.settle.1 = .rendered text) : holds text := by
  obtain ⟨result, records⟩ := draft
  cases result with
  | error fault => cases outcome
  | ok value => exact Rendering.rendered.inj outcome ▸ ensured value rfl

end Ensures

end Draft

end Render

/-! ### What is rendered of a tree -/

namespace Words

/-- The text of a string constant. -/
def constant : Constant → List String
  | .str text => [text]
  | _ => []

mutual

/-- The names, attributes and string constants in the parts of an expression that are rendered:
named arguments and entries without a key are not. -/
def expr : Expr → List String
  | .call func args _ => expr func ++ exprs args
  | .name text => [text]
  | .constant value => constant value
  | .attribute value attr => attr :: expr value
  | .binaryOp left _ right => expr left ++ expr right
  | .booleanOp _ values => exprs values
  | .compare left _ comparators => expr left ++ exprs comparators
  | .subscript value index => expr value ++ expr index
  | .dict parts => entries parts
  | .list items | .tuple items => exprs items
  | .other _ => []

/-- The words of expressions. -/
def exprs : List Expr → List String
  | [] => []
  | first :: rest => expr first ++ exprs rest

/-- The words of dictionary entries with a key. -/
def entries : List DictEntry → List String
  | [] => []
  | .spread _ :: rest => entries rest
  | .keyed key value :: rest => expr key ++ expr value ++ entries rest

end

mutual

/-- The words in the parts of a statement that are rendered: alternatives are not. -/
def stmt : Stmt → List String
  | .assign targets value => exprs targets ++ expr value
  | .expr value => expr value
  | .returns none => []
  | .returns (some value) => expr value
  | .functionDef definition => function definition
  | .forEach target iter inner _ => expr target ++ expr iter ++ body inner
  | .ifElse test inner _ | .whileLoop test inner _ => expr test ++ body inner
  | .other _ => []

/-- The name and the parameters of a function, and the words of its body. -/
def function : FunctionDef → List String
  | .mk name params inner => name :: (params ++ body inner)

/-- The words of a body: none of a bare expression in first place. -/
def body : List Stmt → List String
  | .expr _ :: rest => stmts rest
  | inner => stmts inner

/-- The words of statements. -/
def stmts : List Stmt → List String
  | [] => []
  | first :: rest => stmt first ++ stmts rest

end

theorem body_cons (first : Stmt) (rest : List Stmt) :
    body (first :: rest) = if first.isBare then stmts rest else stmts (first :: rest) := by
  cases first <;> simp [body, Stmt.isBare]

end Words

namespace Placed

mutual

/-- The statements that get lines inside a statement once it is rendered: those of its body, and
those inside each of these that is rendered itself. -/
def stmt (table : TokenTable) : Stmt → List Stmt
  | .functionDef definition => function table definition
  | .forEach _ _ inner _ | .ifElse _ inner _ | .whileLoop _ inner _ => body table inner
  | .assign _ _ | .expr _ | .returns _ | .other _ => []

/-- The statements that get lines inside a function. -/
def function (table : TokenTable) : FunctionDef → List Stmt
  | .mk _ _ inner => body table inner

/-- The statements that get lines in a body: not a bare expression in first place. -/
def body (table : TokenTable) : List Stmt → List Stmt
  | .expr _ :: rest => stmts table rest
  | inner => stmts table inner

/-- Statements in order, each followed by those inside it if it is rendered. -/
def stmts (table : TokenTable) : List Stmt → List Stmt
  | [] => []
  | first :: rest =>
    first ::
      ((if (Node.stmt first).renders table then stmt table first else []) ++ stmts table rest)

end

theorem body_nil (table : TokenTable) : body table [] = [] := by
  rw [body, stmts]
  simp

theorem body_cons (table : TokenTable) (first : Stmt) (rest : List Stmt) :
    body table (first :: rest) =
      if first.isBare then stmts table rest else stmts table (first :: rest) := by
  cases first <;> simp [body, Stmt.isBare]

end Placed

namespace Render

/-! ### Rendering with tokens on one line -/

open Draft (Ensures)

section Tokens

variable {table : TokenTable}

theorem oneLine_getD (tokens : table.EachOneLine) (token : Token) {other : String}
    (flat : OneLine other) : OneLine ((table.get? token).getD other) := by
  cases found : table.get? token with
  | none => exact flat
  | some text => exact tokens token text found

theorem ensures_require (tokens : table.EachOneLine) (token : Token) :
    Ensures OneLine (require table token) := by
  unfold require
  split
  next text found => exact .pure (tokens token text found)
  next => exact .fail _

theorem ensures_requireOperator (tokens : table.EachOneLine) (operator : OperatorToken) :
    Ensures OneLine (requireOperator table operator) := by
  unfold requireOperator
  split
  next text found => exact .pure (tokens _ text found)
  next => exact .fail _

theorem ensures_join (tokens : table.EachOneLine) (separator : Token) {texts : List String}
    (all : ∀ text ∈ texts, OneLine text) : Ensures OneLine (join table separator texts) := by
  unfold join
  split
  · exact .pure (by decide)
  next text => exact .pure (all text (List.mem_singleton_self text))
  · exact (ensures_require tokens separator).bind fun _ between => .pure (between.intercalate all)

theorem ensures_returnKey (tokens : table.EachOneLine) : Ensures OneLine (returnKey table) := by
  unfold returnKey
  split
  next text found =>
    rcases Option.or_eq_some_iff.mp found with own | ⟨-, flow⟩
    · exact .pure (tokens _ text own)
    · exact .pure (tokens _ text flow)
  next => exact .fail _

theorem ensures_groupTargets (tokens : table.EachOneLine) {texts : List String}
    (all : ∀ text ∈ texts, OneLine text) : Ensures OneLine (groupTargets table texts) := by
  unfold groupTargets
  refine (ensures_join tokens _ all).bind fun group joined => ?_
  split
  · exact (ensures_require tokens _).bind fun _ opening =>
      (ensures_require tokens _).bind fun _ closing =>
        .pure ((opening.append joined).append closing)
  · exact .pure joined

theorem ensures_blockFrame (tokens : table.EachOneLine) (block : BlockTokens) {head : String}
    (flat : OneLine head) :
    Ensures (fun frame => OneLine frame.1 ∧ OneLine frame.2) (blockFrame table block head) := by
  unfold blockFrame
  exact (ensures_require tokens _).bind fun _ key =>
    (ensures_require tokens _).bind fun _ opening => (ensures_require tokens _).bind fun _ closing =>
      (ensures_require tokens _).bind fun _ openBody =>
        (ensures_require tokens _).bind fun _ closeBody =>
          .pure ⟨(((key.append opening).append flat).append closing).append openBody, closeBody⟩

theorem ensures_functionFrame (tokens : table.EachOneLine) {name : String} {params : List String}
    (flat : OneLine name) (all : ∀ param ∈ params, OneLine param) :
    Ensures (fun frame => OneLine frame.1 ∧ OneLine frame.2) (functionFrame table name params) := by
  have opening : OneLine "(" := by decide
  have closing : OneLine ")" := by decide
  unfold functionFrame
  exact (ensures_require tokens _).bind fun _ define =>
    (ensures_require tokens _).bind fun _ openBody =>
      (ensures_require tokens _).bind fun _ closeBody =>
        (ensures_join tokens _ all).bind fun _ inner =>
          have head := ((define.append flat).append opening).append inner
          .pure ⟨(head.append closing).append openBody, closeBody⟩

theorem oneLine_constantText (tokens : table.EachOneLine) {value : Constant}
    (flat : ∀ word ∈ Words.constant value, OneLine word) : OneLine (constantText table value) := by
  cases value with
  | none => exact oneLine_getD tokens _ (by decide)
  | bool value => cases value <;> exact oneLine_getD tokens _ (by decide)
  | int value => exact oneLine_toString value.toInt
  | float bits => exact oneLine_floatText bits
  | ellipsis =>
      rw [constantText]
      decide
  | str text =>
      have own : OneLine text := flat text (List.mem_singleton_self text)
      rw [constantText]
      split
      next opening closing opened closed =>
        exact ((tokens _ opening opened).append own).append (tokens _ closing closed)
      next => exact own

mutual

theorem ensures_renderExpr (tokens : table.EachOneLine) :
    (expr : Expr) → (∀ word ∈ Words.expr expr, OneLine word) →
      Ensures OneLine (renderExpr table expr)
  | .call func args keywords, flat => by
      obtain ⟨callee, others⟩ := List.forall_mem_append.mp flat
      have opening : OneLine "(" := by decide
      have closing : OneLine ")" := by decide
      rw [renderExpr]
      exact (ensures_renderExpr tokens func callee).settled_oneLine.bind fun _ name =>
        (ensures_renderTexts tokens args others).bind fun _ all => (ensures_join tokens _ all).bind
          fun _ inner => (Ensures.anything _).bind fun _ _ =>
            .pure (((name.append opening).append inner).append closing)
  | .name text, flat => .pure (flat text (List.mem_singleton_self text))
  | .constant value, flat => .pure (oneLine_constantText tokens flat)
  | .attribute value attr, flat => by
      obtain ⟨own, others⟩ := List.forall_mem_cons.mp flat
      rw [renderExpr]
      exact (ensures_require tokens _).bind fun _ dot =>
        (ensures_renderExpr tokens value others).settled_oneLine.bind fun _ receiver =>
          .pure ((receiver.append dot).append own)
  | .binaryOp left op right, flat => by
      obtain ⟨before, after⟩ := List.forall_mem_append.mp flat
      rw [renderExpr]
      exact (ensures_requireOperator tokens _).bind fun _ symbol =>
        (ensures_renderExpr tokens left before).settled_oneLine.bind fun _ first =>
          (ensures_renderExpr tokens right after).settled_oneLine.bind fun _ second =>
            .pure ((first.append symbol).append second)
  | .booleanOp op values, flat => by
      rw [renderExpr]
      exact (ensures_requireOperator tokens _).bind fun _ symbol =>
        (ensures_renderTexts tokens values flat).bind fun _ all => .pure (symbol.intercalate all)
  | .compare left [op] [right], flat => by
      obtain ⟨before, others⟩ := List.forall_mem_append.mp flat
      obtain ⟨after, -⟩ := List.forall_mem_append.mp others
      rw [renderExpr]
      exact (ensures_requireOperator tokens _).bind fun _ symbol =>
        (ensures_renderExpr tokens left before).settled_oneLine.bind fun _ first =>
          (ensures_renderExpr tokens right after).settled_oneLine.bind fun _ second =>
            .pure ((first.append symbol).append second)
  | .compare _ [] _, _ | .compare _ (_ :: _ :: _) _, _ | .compare _ [_] [], _ |
    .compare _ [_] (_ :: _ :: _), _ => .fail _
  | .subscript value index, flat => by
      obtain ⟨before, after⟩ := List.forall_mem_append.mp flat
      rw [renderExpr]
      exact (ensures_require tokens _).bind fun _ opening =>
        (ensures_require tokens _).bind fun _ closing =>
          (ensures_renderExpr tokens value before).settled_oneLine.bind fun _ first =>
            (ensures_renderExpr tokens index after).settled_oneLine.bind fun _ second =>
              .pure (((first.append opening).append second).append closing)
  | .dict entries, flat => by
      rw [renderExpr]
      exact (ensures_require tokens _).bind fun _ opening =>
        (ensures_require tokens _).bind fun _ closing =>
          (ensures_renderEntries tokens entries flat).bind fun _ all =>
            (ensures_join tokens _ all).bind fun _ inner =>
              .pure ((opening.append inner).append closing)
  | .list items, flat | .tuple items, flat => by
      rw [renderExpr]
      exact (ensures_require tokens _).bind fun _ opening =>
        (ensures_require tokens _).bind fun _ closing =>
          (ensures_renderTexts tokens items flat).bind fun _ all =>
            (ensures_join tokens _ all).bind fun _ inner =>
              .pure ((opening.append inner).append closing)
  | .other kind, _ => .fail _

theorem ensures_renderTexts (tokens : table.EachOneLine) :
    (exprs : List Expr) → (∀ word ∈ Words.exprs exprs, OneLine word) →
      Ensures (fun texts => ∀ text ∈ texts, OneLine text) (renderTexts table exprs)
  | [], _ => .pure (by simp)
  | expr :: rest, flat => by
      obtain ⟨first, others⟩ := List.forall_mem_append.mp flat
      rw [renderTexts]
      exact (ensures_renderExpr tokens expr first).settled_oneLine.bind fun _ text =>
        (ensures_renderTexts tokens rest others).bind fun _ all =>
          .pure (List.forall_mem_cons.mpr ⟨text, all⟩)

theorem ensures_renderEntries (tokens : table.EachOneLine) :
    (entries : List DictEntry) → (∀ word ∈ Words.entries entries, OneLine word) →
      Ensures (fun texts => ∀ text ∈ texts, OneLine text) (renderEntries table entries)
  | [], _ => .pure (by simp)
  | .spread _ :: rest, flat => by
      rw [renderEntries]
      exact (Ensures.anything _).bind fun _ _ => ensures_renderEntries tokens rest flat
  | .keyed key value :: rest, flat => by
      obtain ⟨own, others⟩ := List.forall_mem_append.mp flat
      obtain ⟨before, after⟩ := List.forall_mem_append.mp own
      rw [renderEntries]
      exact (ensures_require tokens _).bind fun _ between =>
        (ensures_renderExpr tokens key before).settled_oneLine.bind fun _ first =>
          (ensures_renderExpr tokens value after).settled_oneLine.bind fun _ second =>
            (ensures_renderEntries tokens rest others).bind fun _ all =>
              .pure (List.forall_mem_cons.mpr ⟨(first.append between).append second, all⟩)

end

/-- A statement has its own line and the lines inside it, which are there if it is rendered. -/
theorem length_placed_cons (stmt : Stmt) (rest : List Stmt) :
    (Placed.stmts table (stmt :: rest)).length =
      1 + (if (renderStmt table stmt).succeeds then (Placed.stmt table stmt).length else 0) +
        (Placed.stmts table rest).length := by
  have renders : (Node.stmt stmt).renders table = (renderStmt table stmt).succeeds :=
    Draft.isRendered_settle _
  rw [Placed.stmts, List.length_cons, List.length_append, renders, apply_ite List.length,
    List.length_nil]
  omega

private theorem ensures_lines_cons {stmt : Stmt} {rest : List Stmt}
    (first : Ensures (Lined (Placed.stmt table stmt).length) (renderStmt table stmt))
    (more : Ensures (Lined (Placed.stmts table rest).length) (renderLines table rest)) :
    Ensures (Lined (Placed.stmts table (stmt :: rest)).length)
      (renderLines table (stmt :: rest)) := by
  rw [renderLines, length_placed_cons]
  exact first.settled_lined.bind fun _ first => more.bind fun _ more =>
    .pure ((Lined.start.append first).append more)

mutual

theorem ensures_renderStmt (tokens : table.EachOneLine) :
    (stmt : Stmt) → (∀ word ∈ Words.stmt stmt, OneLine word) →
      Ensures (Lined (Placed.stmt table stmt).length) (renderStmt table stmt)
  | .assign targets value, flat => by
      rw [Words.stmt] at flat
      obtain ⟨before, after⟩ := List.forall_mem_append.mp flat
      rw [Placed.stmt, renderStmt]
      exact (ensures_require tokens _).bind fun _ between =>
        (ensures_renderTexts tokens targets before).bind fun _ all =>
          (ensures_groupTargets tokens all).bind fun _ group =>
            (ensures_renderExpr tokens value after).settled_oneLine.bind fun _ text =>
              .pure ((group.append between).append text).lined
  | .expr value, flat => by
      rw [Words.stmt] at flat
      rw [Placed.stmt, renderStmt]
      exact (ensures_renderExpr tokens value flat).lined
  | .returns none, _ => by
      rw [Placed.stmt, renderStmt]
      exact (ensures_returnKey tokens).lined
  | .returns (some value), flat => by
      rw [Words.stmt] at flat
      rw [Placed.stmt, renderStmt]
      exact (ensures_returnKey tokens).bind fun _ key =>
        (ensures_renderExpr tokens value flat).settled_oneLine.bind fun _ text =>
          .pure (key.append text).lined
  | .functionDef definition, flat => by
      rw [Words.stmt] at flat
      rw [Placed.stmt, renderStmt]
      exact ensures_renderFunction tokens definition flat
  | .forEach target iter body orelse, flat => by
      rw [Words.stmt] at flat
      obtain ⟨heads, inside⟩ := List.forall_mem_append.mp flat
      obtain ⟨before, after⟩ := List.forall_mem_append.mp heads
      rw [Placed.stmt, renderStmt]
      exact (ensures_require tokens _).bind fun _ between => (Ensures.anything _).bind fun _ _ =>
        (ensures_renderExpr tokens target before).settled_oneLine.bind fun _ first =>
          (ensures_renderExpr tokens iter after).settled_oneLine.bind fun _ second =>
            (ensures_blockFrame tokens _ ((first.append between).append second)).bind fun _ frame =>
              (ensures_renderBody tokens body inside).bind fun _ lines =>
                .pure (.framed frame.1 lines frame.2)
  | .ifElse test body orelse, flat | .whileLoop test body orelse, flat => by
      rw [Words.stmt] at flat
      obtain ⟨head, inside⟩ := List.forall_mem_append.mp flat
      rw [Placed.stmt, renderStmt]
      exact (Ensures.anything _).bind fun _ _ =>
        (ensures_renderExpr tokens test head).settled_oneLine.bind fun _ text =>
          (ensures_blockFrame tokens _ text).bind fun _ frame =>
            (ensures_renderBody tokens body inside).bind fun _ lines =>
              .pure (.framed frame.1 lines frame.2)
  | .other kind, _ => by
      rw [Placed.stmt, renderStmt]
      exact .fail _

theorem ensures_renderFunction (tokens : table.EachOneLine) :
    (definition : FunctionDef) → (∀ word ∈ Words.function definition, OneLine word) →
      Ensures (Lined (Placed.function table definition).length) (renderFunction table definition)
  | .mk name params body, flat => by
      rw [Words.function] at flat
      obtain ⟨own, others⟩ := List.forall_mem_cons.mp flat
      obtain ⟨all, inside⟩ := List.forall_mem_append.mp others
      rw [Placed.function, renderFunction]
      exact (ensures_functionFrame tokens own all).bind fun _ frame =>
        (ensures_renderBody tokens body inside).bind fun _ lines =>
          .pure (.framed frame.1 lines frame.2)

theorem ensures_renderBody (tokens : table.EachOneLine) :
    (body : List Stmt) → (∀ word ∈ Words.body body, OneLine word) →
      Ensures (Lined (Placed.body table body).length) (renderBody table body)
  | [], _ => by
      rw [Placed.body_nil, renderBody_nil]
      exact .pure OneLine.empty.lined
  | stmt :: rest, flat => by
      rw [Words.body_cons] at flat
      rw [Placed.body_cons, renderBody_cons]
      split at flat
      next bare =>
          rw [if_pos bare, if_pos bare]
          exact ensures_renderLines tokens rest flat
      next kept =>
          rw [Words.stmts] at flat
          obtain ⟨own, others⟩ := List.forall_mem_append.mp flat
          rw [if_neg kept, if_neg kept]
          exact ensures_lines_cons (ensures_renderStmt tokens stmt own)
            (ensures_renderLines tokens rest others)

theorem ensures_renderLines (tokens : table.EachOneLine) :
    (body : List Stmt) → (∀ word ∈ Words.stmts body, OneLine word) →
      Ensures (Lined (Placed.stmts table body).length) (renderLines table body)
  | [], _ => by
      rw [Placed.stmts, renderLines]
      exact .pure OneLine.empty.lined
  | stmt :: rest, flat => by
      rw [Words.stmts] at flat
      obtain ⟨own, others⟩ := List.forall_mem_append.mp flat
      exact ensures_lines_cons (ensures_renderStmt tokens stmt own)
        (ensures_renderLines tokens rest others)

end

end Tokens

end Render

/-- Every line break of a rendered function stands before a tab. There are as many of them as
statements in its body and in the bodies inside it that are rendered: a bare expression in first
place of a body has no line, and a statement that is not rendered has one, without those inside it. -/
theorem respellFunction_lined {table : TokenTable} {definition : FunctionDef} {text : String}
    (tokens : table.EachOneLine) (words : ∀ word ∈ Words.function definition, OneLine word)
    (rendered : (respellFunction table definition).1 = .rendered text) :
    (∀ before after, text.toList = before ++ '\n' :: after → ∃ rest, after = '\t' :: rest) ∧
      text.toList.count '\n' = (Placed.function table definition).length := by
  have lines : Lined (Placed.function table definition).length text :=
    (Render.ensures_renderFunction tokens definition words).rendered rendered
  exact ⟨lines.tabbed, lines.breaks⟩

/-- A function with a text of two lines at its start, a function inside it, a loop, and a conditional
with an alternative. -/
def nestedReport : FunctionDef :=
  .mk "report" ["rows"] [.expr (.constant (.str "Reports rows.\nAll of them.")),
    .functionDef (.mk "first" [] [.returns (some (.name "rows"))]),
    .whileLoop (.name "rows") [.returns none, .returns none] [],
    .ifElse (.name "rows") [.expr (.name "note"), .expr (.name "rows"), .returns none]
      [.returns none]]

/-- The text of the function where loops have no tokens. -/
def nestedReportText : String :=
  "function report(rows) begin\n\tfunction first() begin\n\treturn rows end" ++
    "\n\t\n\tif rows then\n\trows\n\treturn  fi end"

/-- The loop is not rendered: its line is empty, and the statements inside it have none. -/
theorem respellFunction_lined_nested :
    (respellFunction wordTokens nestedReport).1 = .rendered nestedReportText ∧
      (Placed.function wordTokens nestedReport).length = 6 ∧
      nestedReportText.toList.count '\n' = 6 := by
  have tokens : wordTokens.EachOneLine := TokenTable.eachOneLine_ofList (by decide)
  have words : ∀ word ∈ Words.function nestedReport, OneLine word := by
    have all : Words.function nestedReport =
        ["report", "rows", "first", "rows", "rows", "rows", "rows"] := by cbv
    rw [all]
    decide
  have rendered : (respellFunction wordTokens nestedReport).1 = .rendered nestedReportText := by cbv
  have count : (Placed.function wordTokens nestedReport).length = 6 := by cbv
  exact ⟨rendered, count, (respellFunction_lined tokens words rendered).2.trans count⟩

end Respell
