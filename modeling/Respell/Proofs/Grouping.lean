import Respell.Proofs.StrictRendering

/-!
Expressions built from names by operators. Their texts put operands and operators side by side, so a
text tells which names and operators stand in what order and does not tell how they are grouped: two
expressions have one text exactly if they have one sequence of names and operators.
-/

set_option autoImplicit false

namespace Respell

open Syntax (BinaryOperator BooleanOperator Expr)

/-- The tokens of the operators that join operands. -/
def OperatorToken.joining : List OperatorToken :=
  BinaryOperator.all.map ofBinary ++ BooleanOperator.all.map ofBoolean

namespace OperatorToken

theorem ofBinary_mem_joining (op : BinaryOperator) : ofBinary op ∈ joining := by
  cases op <;> decide

theorem ofBoolean_mem_joining (op : BooleanOperator) : ofBoolean op ∈ joining := by
  cases op <;> decide

end OperatorToken

namespace TokenTable

/-- Each operator has a text of its own, which is not empty. -/
structure SeparatesOperators (table : TokenTable) : Prop where
  /-- There is a text, and it is not empty. -/
  isSet : ∀ operator ∈ OperatorToken.joining, table.isSet (.operator operator) = true
  /-- No two operators share a text. -/
  distinct : ∀ first ∈ OperatorToken.joining, ∀ second ∈ OperatorToken.joining,
    table.get? (.operator first) = table.get? (.operator second) → first = second

/-- Text of an operator. -/
def symbol (table : TokenTable) (operator : OperatorToken) : String :=
  (table.get? (.operator operator)).getD ""

/-- Whether a character occurs in the text of an operator. -/
def usesChar (table : TokenTable) (c : Char) : Bool :=
  OperatorToken.joining.any fun operator => (table.symbol operator).toList.contains c

/-- Names that are not empty and share no character with the text of an operator. -/
def Names (table : TokenTable) (text : String) : Prop :=
  text ≠ "" ∧ ∀ c ∈ text.toList, table.usesChar c = false

end TokenTable

/-- Expressions built from names by binary operators, and by boolean operators with at least two
values. -/
inductive Operated (named : String → Prop) : Expr → Prop
  | name {text : String} : named text → Operated named (.name text)
  | binary {left right : Expr} (op : BinaryOperator) :
      Operated named left → Operated named right → Operated named (.binaryOp left op right)
  | boolean {values : List Expr} (op : BooleanOperator) :
      2 ≤ values.length → (∀ value ∈ values, Operated named value) →
        Operated named (.booleanOp op values)

/-- A name, and further names each after an operator. -/
structure Sequence where
  /-- The first name. -/
  first : String
  /-- Each operator with the name after it. -/
  rest : List (OperatorToken × String)
  deriving DecidableEq

namespace Sequence

/-- Two sequences with an operator between them. -/
def join (operator : OperatorToken) (left right : Sequence) : Sequence :=
  ⟨left.first, left.rest ++ (operator, right.first) :: right.rest⟩

/-- Sequences with an operator between each and the next. -/
def joinAll (operator : OperatorToken) : List Sequence → Sequence
  | [] => ⟨"", []⟩
  | [single] => single
  | first :: rest => join operator first (joinAll operator rest)

/-- Text of operators and the names after them. -/
def restText (table : TokenTable) : List (OperatorToken × String) → String
  | [] => ""
  | (operator, name) :: more => table.symbol operator ++ name ++ restText table more

/-- Text of a sequence. -/
def text (table : TokenTable) (sequence : Sequence) : String :=
  sequence.first ++ restText table sequence.rest

theorem restText_append (table : TokenTable) (first second : List (OperatorToken × String)) :
    restText table (first ++ second) = restText table first ++ restText table second := by
  induction first with
  | nil => simp [restText]
  | cons step more ih => simp [restText, ih, String.append_assoc]

theorem text_join (table : TokenTable) (operator : OperatorToken) (left right : Sequence) :
    (join operator left right).text table =
      left.text table ++ table.symbol operator ++ right.text table := by
  simp [join, text, restText_append, restText, String.append_assoc]

theorem text_joinAll (table : TokenTable) (operator : OperatorToken) (sequences : List Sequence) :
    (joinAll operator sequences).text table =
      (table.symbol operator).intercalate (sequences.map (text table)) := by
  match sequences with
  | [] => simp [joinAll, text, restText]
  | [single] => simp [joinAll]
  | first :: second :: more =>
      rw [joinAll, text_join, text_joinAll table operator (second :: more)]
      · simp only [List.map_cons, String.intercalate_cons_cons]
      · simp

end Sequence

mutual

/-- The names and operators of an expression in order. -/
def Syntax.Expr.sequence : Expr → Sequence
  | .name text => ⟨text, []⟩
  | .binaryOp left op right => .join (.ofBinary op) left.sequence right.sequence
  | .booleanOp op values => .joinAll (.ofBoolean op) (sequences values)
  | _ => ⟨"", []⟩

/-- The sequences of expressions. -/
def Syntax.Expr.sequences : List Expr → List Sequence
  | [] => []
  | first :: rest => first.sequence :: sequences rest

end

theorem Syntax.Expr.sequences_eq_map (values : List Expr) :
    sequences values = values.map sequence := by
  induction values with
  | nil => rfl
  | cons first rest ih => rw [sequences, ih, List.map_cons]

namespace TokenTable.SeparatesOperators

variable {table : TokenTable}

theorem get?_eq (separates : table.SeparatesOperators) {operator : OperatorToken}
    (joins : operator ∈ OperatorToken.joining) :
    table.get? (.operator operator) = some (table.symbol operator) := by
  have set := separates.isSet operator joins
  unfold TokenTable.isSet at set
  unfold TokenTable.symbol
  cases found : table.get? (.operator operator) with
  | none => simp [found] at set
  | some text => rfl

theorem symbol_ne_nil (separates : table.SeparatesOperators) {operator : OperatorToken}
    (joins : operator ∈ OperatorToken.joining) : (table.symbol operator).toList ≠ [] := by
  have set := separates.isSet operator joins
  rw [TokenTable.isSet, separates.get?_eq joins] at set
  simpa using set

theorem symbol_injective (separates : table.SeparatesOperators) {first second : OperatorToken}
    (joinsFirst : first ∈ OperatorToken.joining) (joinsSecond : second ∈ OperatorToken.joining)
    (same : table.symbol first = table.symbol second) : first = second := by
  refine separates.distinct first joinsFirst second joinsSecond ?_
  rw [separates.get?_eq joinsFirst, separates.get?_eq joinsSecond, same]

end TokenTable.SeparatesOperators

theorem TokenTable.usesChar_symbol {table : TokenTable} {operator : OperatorToken}
    (joins : operator ∈ OperatorToken.joining) {c : Char}
    (member : c ∈ (table.symbol operator).toList) : table.usesChar c = true :=
  List.any_eq_true.mpr ⟨operator, joins, by simpa using member⟩

/-- An expression of names and operators is rendered to the text of its sequence. -/
theorem strict_of_operated {table : TokenTable} (separates : table.SeparatesOperators) {expr : Expr}
    (operated : Operated table.Names expr) :
    Strict.expr? table expr = some (expr.sequence.text table) := by
  induction operated with
  | name named => simp [Strict.expr?, Expr.sequence, Sequence.text, Sequence.restText]
  | binary op left right first second =>
      have found := separates.get?_eq (OperatorToken.ofBinary_mem_joining op)
      simp [Strict.expr?, Strict.operate?, first, second, found, Expr.sequence, Sequence.text_join]
  | @boolean values op several operated all =>
      have texts : Strict.exprs? table values =
          some (values.map fun value => value.sequence.text table) := by
        clear several operated
        induction values with
        | nil => rfl
        | cons value rest ih =>
            have first := all value (List.mem_cons_self ..)
            have more := ih fun other member => all other (List.mem_cons_of_mem _ member)
            simp [Strict.exprs?, first, more]
      have found := separates.get?_eq (OperatorToken.ofBoolean_mem_joining op)
      simp [Strict.expr?, texts, found, Expr.sequence, Expr.sequences_eq_map,
        Sequence.text_joinAll, Function.comp_def]

namespace Sequence

variable {table : TokenTable}

/-- Steps over operators that join, to names of the table. -/
def StepsIn (table : TokenTable) (steps : List (OperatorToken × String)) : Prop :=
  ∀ step ∈ steps, step.1 ∈ OperatorToken.joining ∧ table.Names step.2

/-- Sequences of operators that join and of names of the table. -/
def In (table : TokenTable) (sequence : Sequence) : Prop :=
  table.Names sequence.first ∧ StepsIn table sequence.rest

theorem in_join {operator : OperatorToken} (joins : operator ∈ OperatorToken.joining)
    {left right : Sequence} (first : left.In table) (second : right.In table) :
    (join operator left right).In table := by
  refine ⟨first.1, fun step member => ?_⟩
  rcases List.mem_append.mp member with before | after
  · exact first.2 step before
  · rcases List.mem_cons.mp after with rfl | further
    · exact ⟨joins, second.1⟩
    · exact second.2 step further

theorem in_joinAll {operator : OperatorToken} (joins : operator ∈ OperatorToken.joining) :
    {sequences : List Sequence} → sequences ≠ [] → (∀ sequence ∈ sequences, sequence.In table) →
      (joinAll operator sequences).In table
  | [single], _, all => all single (List.mem_singleton_self single)
  | first :: second :: more, _, all =>
      in_join joins (all first (List.mem_cons_self ..))
        (in_joinAll joins (List.cons_ne_nil second more) fun sequence member =>
          all sequence (List.mem_cons_of_mem first member))

theorem in_of_operated {expr : Expr} (operated : Operated table.Names expr) :
    expr.sequence.In table := by
  induction operated with
  | name named => exact ⟨named, by simp [StepsIn, Expr.sequence]⟩
  | binary op _ _ first second =>
      exact in_join (OperatorToken.ofBinary_mem_joining op) first second
  | boolean op several _ all =>
      rw [Expr.sequence, Expr.sequences_eq_map]
      refine in_joinAll (OperatorToken.ofBoolean_mem_joining op) ?_ ?_
      · intro empty
        simp [List.map_eq_nil_iff.mp empty] at several
      · intro sequence member
        obtain ⟨value, among, rfl⟩ := List.mem_map.mp member
        exact all value among

/-- A text is cut in one way where characters of one sort end. -/
private theorem cut_unique {p : Char → Bool} {first second start finish : List Char}
    (allFirst : ∀ c ∈ first, p c = true) (allSecond : ∀ c ∈ second, p c = true)
    (stopFirst : ∀ c ∈ start.head?, p c = false) (stopSecond : ∀ c ∈ finish.head?, p c = false)
    (same : first ++ start = second ++ finish) : first = second ∧ start = finish := by
  have taken {run rest : List Char} (all : ∀ c ∈ run, p c = true)
      (stop : ∀ c ∈ rest.head?, p c = false) : (run ++ rest).takeWhile p = run := by
    rw [List.takeWhile_append_of_pos all]
    cases rest with
    | nil => simp
    | cons c more => simp [stop c rfl]
  have cut : first = second := by
    rw [← taken allFirst stopFirst, same, taken allSecond stopSecond]
  exact ⟨cut, List.append_cancel_left (cut ▸ same)⟩

theorem head?_restText (separates : table.SeparatesOperators)
    {steps : List (OperatorToken × String)} (within : StepsIn table steps) :
    ∀ c ∈ (restText table steps).toList.head?, (!table.usesChar c) = false := by
  cases steps with
  | nil => simp [restText]
  | cons step more =>
      obtain ⟨joins, -⟩ := within step (List.mem_cons_self ..)
      obtain ⟨c, others, spelled⟩ := List.exists_cons_of_ne_nil (separates.symbol_ne_nil joins)
      have used : table.usesChar c = true := TokenTable.usesChar_symbol joins (by simp [spelled])
      simp [restText, spelled, used]

theorem names_cut (separates : table.SeparatesOperators) {first second : String}
    {start finish : List (OperatorToken × String)} (namedFirst : table.Names first)
    (namedSecond : table.Names second) (withinStart : StepsIn table start)
    (withinFinish : StepsIn table finish)
    (same : first ++ restText table start = second ++ restText table finish) :
    first = second ∧ restText table start = restText table finish := by
  have lists := congrArg String.toList same
  simp only [String.toList_append] at lists
  obtain ⟨names, rests⟩ := cut_unique (p := fun c => !table.usesChar c)
    (fun c member => by simp [namedFirst.2 c member])
    (fun c member => by simp [namedSecond.2 c member])
    (head?_restText separates withinStart) (head?_restText separates withinFinish) lists
  exact ⟨String.toList_injective names, String.toList_injective rests⟩

/-- Steps are told from their text: an operator ends where a name starts, and a name where an
operator starts. -/
theorem restText_injective (separates : table.SeparatesOperators) :
    {first second : List (OperatorToken × String)} → StepsIn table first → StepsIn table second →
      restText table first = restText table second → first = second
  | [], [], _, _, _ => rfl
  | [], step :: more, _, within, same | step :: more, [], within, _, same => by
      have nonempty := separates.symbol_ne_nil (within step (List.mem_cons_self ..)).1
      have lists := congrArg String.toList same
      simp [restText, nonempty] at lists
  | (operator, name) :: more, (other, next) :: further, withinFirst, withinSecond, same => by
      obtain ⟨joins, named⟩ : operator ∈ OperatorToken.joining ∧ table.Names name :=
        withinFirst _ (List.mem_cons_self ..)
      obtain ⟨joined, nextNamed⟩ : other ∈ OperatorToken.joining ∧ table.Names next :=
        withinSecond _ (List.mem_cons_self ..)
      have restFirst : StepsIn table more := fun step member =>
        withinFirst step (List.mem_cons_of_mem _ member)
      have restSecond : StepsIn table further := fun step member =>
        withinSecond step (List.mem_cons_of_mem _ member)
      have starts {text : String} (named : table.Names text) (rest : String) :
          ∀ c ∈ (text ++ rest).toList.head?, table.usesChar c = false := by
        obtain ⟨c, others, spelled⟩ : ∃ c others, text.toList = c :: others :=
          List.exists_cons_of_ne_nil (by simpa using named.1)
        have unused := named.2 c (by simp [spelled])
        simp [spelled, unused]
      have lists := congrArg String.toList same
      simp only [restText, String.append_assoc] at lists
      rw [String.toList_append, @String.toList_append (table.symbol other)] at lists
      obtain ⟨symbols, tails⟩ := cut_unique (fun c => TokenTable.usesChar_symbol joins)
        (fun c => TokenTable.usesChar_symbol joined) (starts named _) (starts nextNamed _) lists
      obtain ⟨rfl, rests⟩ := names_cut separates named nextNamed restFirst restSecond
        (String.toList_injective tails)
      rw [separates.symbol_injective joins joined (String.toList_injective symbols),
        restText_injective separates restFirst restSecond rests]

theorem text_injective (separates : table.SeparatesOperators) {first second : Sequence}
    (withinFirst : first.In table) (withinSecond : second.In table)
    (same : first.text table = second.text table) : first = second := by
  obtain ⟨starts, rests⟩ := names_cut separates withinFirst.1 withinSecond.1 withinFirst.2
    withinSecond.2 same
  obtain ⟨start, steps⟩ := first
  obtain ⟨other, others⟩ := second
  obtain rfl : start = other := starts
  obtain rfl : steps = others :=
    restText_injective separates withinFirst.2 withinSecond.2 rests
  rfl

end Sequence

/-- Expressions of names and operators are rendered with nothing recorded, and to one text exactly if
the same names and operators stand in them in the same order. -/
theorem respell_eq_iff_sequence_eq {table : TokenTable} (separates : table.SeparatesOperators)
    {first second : Expr} (operatedFirst : Operated table.Names first)
    (operatedSecond : Operated table.Names second) :
    (respell table (.expr first)).2 = [] ∧ (respell table (.expr second)).2 = [] ∧
      ((∃ text, respell table (.expr first) = (.rendered text, []) ∧
          respell table (.expr second) = (.rendered text, [])) ↔
        first.sequence = second.sequence) := by
  have one : respell table (.expr first) = (.rendered (first.sequence.text table), []) :=
    respell_of_strict (strict_of_operated separates operatedFirst)
  have two : respell table (.expr second) = (.rendered (second.sequence.text table), []) :=
    respell_of_strict (strict_of_operated separates operatedSecond)
  refine ⟨by rw [one], by rw [two], ?_⟩
  rw [one, two]
  constructor
  · rintro ⟨text, left, right⟩
    simp only [Prod.mk.injEq, Rendering.rendered.injEq, and_true] at left right
    exact Sequence.text_injective separates (Sequence.in_of_operated operatedFirst)
      (Sequence.in_of_operated operatedSecond) (left.trans right.symm)
  · intro same
    exact ⟨first.sequence.text table, rfl, by rw [same]⟩

/-- Each operator is spelled as in source text. -/
def sourceOperators : TokenTable :=
  .ofList ((BinaryOperator.all.map fun op => (.operator (.ofBinary op), op.symbol)) ++
    BooleanOperator.all.map fun op => (.operator (.ofBoolean op), op.symbol))

theorem sourceOperators_separates : sourceOperators.SeparatesOperators :=
  ⟨by decide +kernel, by decide +kernel⟩

theorem sourceOperators_names :
    sourceOperators.Names "x" ∧ sourceOperators.Names "y" ∧ sourceOperators.Names "z" := by
  have names {text : String} (nonempty : text ≠ "")
      (apart : (text.toList.all fun c => !sourceOperators.usesChar c) = true) :
      sourceOperators.Names text := ⟨nonempty, by simpa using apart⟩
  exact ⟨names (by decide) (by decide +kernel), names (by decide) (by decide +kernel),
    names (by decide) (by decide +kernel)⟩

/-- A product of a sum, `(x + y) * z`. -/
def sumFirst : Expr := .binaryOp (.binaryOp (.name "x") .add (.name "y")) .mult (.name "z")

/-- A sum with a product, `x + (y * z)`. -/
def productFirst : Expr := .binaryOp (.name "x") .add (.binaryOp (.name "y") .mult (.name "z"))

theorem operated_sumFirst : Operated sourceOperators.Names sumFirst :=
  .binary .mult (.binary .add (.name sourceOperators_names.1) (.name sourceOperators_names.2.1))
    (.name sourceOperators_names.2.2)

theorem operated_productFirst : Operated sourceOperators.Names productFirst :=
  .binary .add (.name sourceOperators_names.1)
    (.binary .mult (.name sourceOperators_names.2.1) (.name sourceOperators_names.2.2))

/-- Grouped in two ways, three names have one sequence and one text. -/
theorem respell_eq_iff_sequence_eq_regrouped :
    sourceOperators.SeparatesOperators ∧ Operated sourceOperators.Names sumFirst ∧
      Operated sourceOperators.Names productFirst ∧
      ((∃ text, respell sourceOperators (.expr sumFirst) = (.rendered text, []) ∧
          respell sourceOperators (.expr productFirst) = (.rendered text, [])) ↔
        sumFirst.sequence = productFirst.sequence) ∧
      sumFirst.sequence = ⟨"x", [(.add, "y"), (.mult, "z")]⟩ :=
  ⟨sourceOperators_separates, operated_sumFirst, operated_productFirst,
    (respell_eq_iff_sequence_eq sourceOperators_separates operated_sumFirst
      operated_productFirst).2.2, by decide⟩

/-- Grouping is lost: different expressions of names and operators can be rendered to one text with
nothing recorded. -/
theorem grouping_lost :
    ¬ ∀ (table : TokenTable) (first second : Expr) (text : String), table.SeparatesOperators →
      Operated table.Names first → Operated table.Names second →
      respell table (.expr first) = (.rendered text, []) →
      respell table (.expr second) = (.rendered text, []) → first = second := by
  intro kept
  have sum : respell sourceOperators (.expr sumFirst) = (.rendered "x+y*z", []) := by cbv
  have product : respell sourceOperators (.expr productFirst) = (.rendered "x+y*z", []) := by cbv
  have same : sumFirst = productFirst :=
    kept sourceOperators sumFirst productFirst "x+y*z" sourceOperators_separates operated_sumFirst
      operated_productFirst sum product
  simp [sumFirst, productFirst] at same

end Respell
