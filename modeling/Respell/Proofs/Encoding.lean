import Respell.Syntax.Encoding
import Respell.Proofs.Digits

/-!
Syntax trees and their JSON form. Reading the form of a tree gives the tree, whatever its shape,
its texts and its numbers, so different trees have different forms. Each reader of nested values
takes a bound on the nesting; any bound beyond that of the form will do.
-/

set_option autoImplicit false

namespace Respell.Syntax

/-! ### Numbers, operators and literals -/

theorem floatOfText?_floatText (bits : UInt64) : floatOfText? (floatText bits) = some bits := by
  have digits : (floatText bits).toList = 'f' :: '6' :: '4' :: ':' ::
      (List.replicate (16 - (Nat.toDigits 16 bits.toNat).length) '0' ++
        Nat.toDigits 16 bits.toNat) := by
    simp [floatText, hexPadded]
  unfold floatOfText?
  rw [digits]
  simp only [Text.number?_hex]
  rw [if_pos bits.toNat_lt, UInt64.ofNat_toNat]

theorem toDigits_ne_minus (n : Nat) (rest : List Char) : Nat.toDigits 10 n ≠ '-' :: rest := by
  intro same
  have first : '-' ∈ Nat.toDigits 10 n := same ▸ List.mem_cons_self ..
  have digit := Nat.isDigit_of_mem_toDigits (by decide) (by decide) first
  exact absurd digit (by decide)

theorem toList_toString_natCast (n : Nat) : (toString (n : Int)).toList = Nat.toDigits 10 n := by
  simp [toString, Int.repr, Nat.repr]

theorem toList_toString_neg {n : Nat} (positive : 0 < n) :
    (toString (-n : Int)).toList = '-' :: Nat.toDigits 10 n := by
  obtain ⟨m, rfl⟩ := Nat.exists_eq_add_of_lt positive
  have negative : (-(0 + m + 1 : Nat) : Int) = Int.negSucc m := by omega
  rw [negative]
  simp [toString, Int.repr, Nat.repr]

theorem int?_int (value : Int64) : int? (.int value.toInt) = some value := by
  have least := value.le_toInt
  have most := value.toInt_lt
  have whole := value.ofInt_toInt
  have half : Int64.size / 2 = 2 ^ 63 := by decide
  generalize value.toInt = number at least most whole
  by_cases negative : number < 0
  · obtain ⟨n, rfl⟩ := Int.exists_eq_neg_ofNat negative.le
    have positive : 0 < n := by omega
    have bounded : n ≤ Int64.size / 2 := by omega
    simp only [int?, Json.int, toList_toString_neg positive, Text.number?_toDigits, positive,
      bounded, whole, decide_true, Bool.and_self, if_true]
  · obtain ⟨n, rfl⟩ := Int.eq_ofNat_of_zero_le (Int.not_lt.mp negative)
    have bounded : n < Int64.size / 2 := by omega
    -- The first digit is no sign, which settles the first of the two matches.
    have unsigned := toDigits_ne_minus n
    simp only [int?, Json.int, toList_toString_natCast, Text.number?_toDigits, bounded, if_true,
      Bool.false_eq_true, if_false]
    exact congrArg some whole

theorem Constant.ofJson?_toJson (value : Constant) : Constant.ofJson? value.toJson = some value := by
  cases value with
  | none => rfl
  | ellipsis => rfl
  | bool value => rfl
  | str text => rfl
  | int value =>
      change (int? (.int value.toInt)).map Constant.int = _
      rw [int?_int]
      rfl
  | float bits =>
      change ((some (floatText bits)).bind floatOfText?).map Constant.float = _
      rw [Option.bind_some, floatOfText?_floatText]
      rfl

theorem BinaryOperator.ofTag?_tag (op : BinaryOperator) : BinaryOperator.ofTag? op.tag = some op := by
  cases op <;> decide

theorem BooleanOperator.ofTag?_tag (op : BooleanOperator) :
    BooleanOperator.ofTag? op.tag = some op := by
  cases op <;> decide

theorem CompareOperator.ofTag?_tag (op : CompareOperator) :
    CompareOperator.ofTag? op.tag = some op := by
  cases op <;> decide

/-! ### Lists and optional values -/

/-- Values that are read back one by one are read back as a list. -/
theorem mapM_eq_some {α β : Type} {read : α → Option β} {write : β → α} {values : List β}
    (back : ∀ value ∈ values, read (write value) = some value) :
    (values.map write).mapM read = some values := by
  induction values with
  | nil => rfl
  | cons first rest ih =>
      have here := back first (List.mem_cons_self ..)
      have later := ih fun value member => back value (List.mem_cons_of_mem first member)
      simp [here, later]

/-- A value that is read back and is not null is read back as an optional one. -/
theorem optional?_eq_some {α : Type} {read : Json → Option α} {json : Json} {value : α}
    (present : json ≠ .null) (back : read json = some value) :
    optional? read json = some (some value) := by
  rw [optional?.eq_2 _ _ present, back]
  rfl

theorem Expr.toJson_ne_null (expr : Expr) : expr.toJson ≠ .null := by
  cases expr <;> simp [Expr.toJson]

/-! ### Expressions -/

mutual

/-- An expression is read back under every bound beyond the nesting of its form. -/
theorem exprWithin?_toJson : (expr : Expr) → (bound : Nat) → expr.toJson.depth < bound →
    exprWithin? bound expr.toJson = some expr
  | _, 0, shallow => absurd shallow (Nat.not_lt_zero _)
  | .call func args keywords, bound + 1, shallow => by
      simp only [Expr.toJson, Json.depth, Json.membersDepth] at shallow
      have callee := exprWithin?_toJson func bound (by omega)
      have inner := exprsWithin?_toJson args bound (by omega)
      have named := keywordsWithin?_toJson keywords bound (by omega)
      change (do
        let func ← exprWithin? bound func.toJson
        let args ← (exprsToJson args).mapM (exprWithin? bound)
        let keywords ← (keywordsToJson keywords).mapM (keyword? (exprWithin? bound))
        return Expr.call func args keywords) = _
      rw [callee, inner, named]
      rfl
  | .name text, bound + 1, _ => rfl
  | .constant value, bound + 1, _ => by
      change (do return Expr.constant (← Constant.ofJson? value.toJson)) = _
      rw [Constant.ofJson?_toJson]
      rfl
  | .attribute value attr, bound + 1, shallow => by
      simp only [Expr.toJson, Json.depth, Json.membersDepth] at shallow
      have receiver := exprWithin?_toJson value bound (by omega)
      change (do return Expr.attribute (← exprWithin? bound value.toJson) attr) = _
      rw [receiver]
      rfl
  | .binaryOp left op right, bound + 1, shallow => by
      simp only [Expr.toJson, Json.depth, Json.membersDepth] at shallow
      have first := exprWithin?_toJson left bound (by omega)
      have second := exprWithin?_toJson right bound (by omega)
      change (do
        let left ← exprWithin? bound left.toJson
        let op ← BinaryOperator.ofTag? op.tag
        let right ← exprWithin? bound right.toJson
        return Expr.binaryOp left op right) = _
      rw [first, BinaryOperator.ofTag?_tag, second]
      rfl
  | .booleanOp op values, bound + 1, shallow => by
      simp only [Expr.toJson, Json.depth, Json.membersDepth] at shallow
      have inner := exprsWithin?_toJson values bound (by omega)
      change (do
        let op ← BooleanOperator.ofTag? op.tag
        let values ← (exprsToJson values).mapM (exprWithin? bound)
        return Expr.booleanOp op values) = _
      rw [BooleanOperator.ofTag?_tag, inner]
      rfl
  | .compare left ops comparators, bound + 1, shallow => by
      simp only [Expr.toJson, Json.depth, Json.membersDepth] at shallow
      have first := exprWithin?_toJson left bound (by omega)
      have others := exprsWithin?_toJson comparators bound (by omega)
      have tags : (ops.map fun op => Json.string op.tag).mapM
          (fun op => (tag? op).bind CompareOperator.ofTag?) = some ops :=
        mapM_eq_some fun op _ => CompareOperator.ofTag?_tag op
      change (do
        let left ← exprWithin? bound left.toJson
        let ops ← (ops.map fun op : CompareOperator => Json.string op.tag).mapM fun op =>
          (tag? op).bind CompareOperator.ofTag?
        let comparators ← (exprsToJson comparators).mapM (exprWithin? bound)
        return Expr.compare left ops comparators) = _
      rw [first, tags, others]
      rfl
  | .subscript value index, bound + 1, shallow => by
      simp only [Expr.toJson, Json.depth, Json.membersDepth] at shallow
      have receiver := exprWithin?_toJson value bound (by omega)
      have key := exprWithin?_toJson index bound (by omega)
      change (do
        let value ← exprWithin? bound value.toJson
        let index ← exprWithin? bound index.toJson
        return Expr.subscript value index) = _
      rw [receiver, key]
      rfl
  | .dict entries, bound + 1, shallow => by
      simp only [Expr.toJson, Json.depth, Json.membersDepth] at shallow
      have inner := entriesWithin?_toJson entries bound (by omega)
      change (do
        return Expr.dict (← (entriesToJson entries).mapM (dictEntryOf? (exprWithin? bound)))) = _
      rw [inner]
      rfl
  | .list items, bound + 1, shallow => by
      simp only [Expr.toJson, Json.depth, Json.membersDepth] at shallow
      have inner := exprsWithin?_toJson items bound (by omega)
      change (do return Expr.list (← (exprsToJson items).mapM (exprWithin? bound))) = _
      rw [inner]
      rfl
  | .tuple items, bound + 1, shallow => by
      simp only [Expr.toJson, Json.depth, Json.membersDepth] at shallow
      have inner := exprsWithin?_toJson items bound (by omega)
      change (do return Expr.tuple (← (exprsToJson items).mapM (exprWithin? bound))) = _
      rw [inner]
      rfl
  | .other kind, bound + 1, _ => rfl

theorem exprsWithin?_toJson : (exprs : List Expr) → (bound : Nat) →
    Json.itemsDepth (exprsToJson exprs) < bound →
    (exprsToJson exprs).mapM (exprWithin? bound) = some exprs
  | [], _, _ => rfl
  | expr :: rest, bound, shallow => by
      simp only [exprsToJson, Json.itemsDepth] at shallow
      have first := exprWithin?_toJson expr bound (by omega)
      have more := exprsWithin?_toJson rest bound (by omega)
      simp [exprsToJson, first, more]

theorem keywordsWithin?_toJson : (keywords : List Keyword) → (bound : Nat) →
    Json.itemsDepth (keywordsToJson keywords) < bound →
    (keywordsToJson keywords).mapM (keyword? (exprWithin? bound)) = some keywords
  | [], _, _ => rfl
  | .named arg value :: rest, bound, shallow => by
      simp only [keywordsToJson, Json.itemsDepth, Json.depth, Json.membersDepth] at shallow
      have first := exprWithin?_toJson value bound (by omega)
      have more := keywordsWithin?_toJson rest bound (by omega)
      simp [keywordsToJson, keyword?, fields?, Json.lookup, optional?, Json.string?, first, more]
  | .spread value :: rest, bound, shallow => by
      simp only [keywordsToJson, Json.itemsDepth, Json.depth, Json.membersDepth] at shallow
      have first := exprWithin?_toJson value bound (by omega)
      have more := keywordsWithin?_toJson rest bound (by omega)
      simp [keywordsToJson, keyword?, fields?, Json.lookup, optional?, first, more]

theorem entriesWithin?_toJson : (entries : List DictEntry) → (bound : Nat) →
    Json.itemsDepth (entriesToJson entries) < bound →
    (entriesToJson entries).mapM (dictEntryOf? (exprWithin? bound)) = some entries
  | [], _, _ => rfl
  | .keyed key value :: rest, bound, shallow => by
      simp only [entriesToJson, Json.itemsDepth, Json.depth, Json.membersDepth] at shallow
      have first := optional?_eq_some key.toJson_ne_null
        (exprWithin?_toJson key bound (by omega))
      have second := exprWithin?_toJson value bound (by omega)
      have more := entriesWithin?_toJson rest bound (by omega)
      simp [entriesToJson, dictEntryOf?, fields?, Json.lookup, first, second, more]
  | .spread value :: rest, bound, shallow => by
      simp only [entriesToJson, Json.itemsDepth, Json.depth, Json.membersDepth] at shallow
      have first := exprWithin?_toJson value bound (by omega)
      have more := entriesWithin?_toJson rest bound (by omega)
      simp [entriesToJson, dictEntryOf?, fields?, Json.lookup, optional?, first, more]

end

theorem Expr.ofJson?_toJson (expr : Expr) : Expr.ofJson? expr.toJson = some expr :=
  exprWithin?_toJson expr _ (Nat.lt_succ_self _)

theorem exprsToJson_mapM (exprs : List Expr) :
    (exprsToJson exprs).mapM Expr.ofJson? = some exprs := by
  have listed : exprsToJson exprs = exprs.map Expr.toJson := by
    induction exprs with
    | nil => rfl
    | cons expr rest ih => rw [exprsToJson, ih, List.map_cons]
  rw [listed]
  exact mapM_eq_some fun expr _ => expr.ofJson?_toJson

/-! ### Statements -/

theorem functionDef?_toJson {read : Json → Option Stmt} {name : String} {params : List String}
    {body : List Stmt} (back : (stmtsToJson body).mapM read = some body) :
    functionDef? read (FunctionDef.mk name params body).toJson = some (.mk name params body) := by
  have names : (params.map Json.string).mapM Json.string? = some params :=
    mapM_eq_some fun _ _ => rfl
  change (do
    let params ← (params.map Json.string).mapM Json.string?
    let body ← (stmtsToJson body).mapM read
    return FunctionDef.mk name params body) = _
  rw [names, back]
  rfl

mutual

/-- A statement is read back under every bound beyond the nesting of its form. -/
theorem stmtWithin?_toJson : (stmt : Stmt) → (bound : Nat) → stmt.toJson.depth < bound →
    stmtWithin? bound stmt.toJson = some stmt
  | _, 0, shallow => absurd shallow (Nat.not_lt_zero _)
  | .assign targets value, bound + 1, _ => by
      change (do
        let targets ← (exprsToJson targets).mapM Expr.ofJson?
        let value ← Expr.ofJson? value.toJson
        return Stmt.assign targets value) = _
      rw [exprsToJson_mapM, Expr.ofJson?_toJson]
      rfl
  | .expr value, bound + 1, _ => by
      change (do return Stmt.expr (← Expr.ofJson? value.toJson)) = _
      rw [Expr.ofJson?_toJson]
      rfl
  | .returns none, bound + 1, _ => rfl
  | .returns (some value), bound + 1, _ => by
      have back := optional?_eq_some value.toJson_ne_null value.ofJson?_toJson
      change (do return Stmt.returns (← optional? Expr.ofJson? value.toJson)) = _
      rw [back]
      rfl
  | .functionDef (.mk name params body), bound + 1, shallow => by
      simp only [Stmt.toJson, FunctionDef.toJson, Json.depth, Json.membersDepth] at shallow
      have inner := stmtsWithin?_toJson body bound (by omega)
      change (do
        return Stmt.functionDef (← functionDef? (stmtWithin? bound)
          (FunctionDef.mk name params body).toJson)) = _
      rw [functionDef?_toJson inner]
      rfl
  | .forEach target iter body orelse, bound + 1, shallow => by
      simp only [Stmt.toJson, Json.depth, Json.membersDepth] at shallow
      have inner := stmtsWithin?_toJson body bound (by omega)
      have other := stmtsWithin?_toJson orelse bound (by omega)
      change (do
        let target ← Expr.ofJson? target.toJson
        let iter ← Expr.ofJson? iter.toJson
        let body ← (stmtsToJson body).mapM (stmtWithin? bound)
        let orelse ← (stmtsToJson orelse).mapM (stmtWithin? bound)
        return Stmt.forEach target iter body orelse) = _
      rw [Expr.ofJson?_toJson, Expr.ofJson?_toJson, inner, other]
      rfl
  | .ifElse test body orelse, bound + 1, shallow => by
      simp only [Stmt.toJson, Json.depth, Json.membersDepth] at shallow
      have inner := stmtsWithin?_toJson body bound (by omega)
      have other := stmtsWithin?_toJson orelse bound (by omega)
      change (do
        let test ← Expr.ofJson? test.toJson
        let body ← (stmtsToJson body).mapM (stmtWithin? bound)
        let orelse ← (stmtsToJson orelse).mapM (stmtWithin? bound)
        return Stmt.ifElse test body orelse) = _
      rw [Expr.ofJson?_toJson, inner, other]
      rfl
  | .whileLoop test body orelse, bound + 1, shallow => by
      simp only [Stmt.toJson, Json.depth, Json.membersDepth] at shallow
      have inner := stmtsWithin?_toJson body bound (by omega)
      have other := stmtsWithin?_toJson orelse bound (by omega)
      change (do
        let test ← Expr.ofJson? test.toJson
        let body ← (stmtsToJson body).mapM (stmtWithin? bound)
        let orelse ← (stmtsToJson orelse).mapM (stmtWithin? bound)
        return Stmt.whileLoop test body orelse) = _
      rw [Expr.ofJson?_toJson, inner, other]
      rfl
  | .other kind, bound + 1, _ => rfl

theorem stmtsWithin?_toJson : (stmts : List Stmt) → (bound : Nat) →
    Json.itemsDepth (stmtsToJson stmts) < bound →
    (stmtsToJson stmts).mapM (stmtWithin? bound) = some stmts
  | [], _, _ => rfl
  | stmt :: rest, bound, shallow => by
      simp only [stmtsToJson, Json.itemsDepth] at shallow
      have first := stmtWithin?_toJson stmt bound (by omega)
      have more := stmtsWithin?_toJson rest bound (by omega)
      simp [stmtsToJson, first, more]

end

theorem Stmt.ofJson?_toJson (stmt : Stmt) : Stmt.ofJson? stmt.toJson = some stmt :=
  stmtWithin?_toJson stmt _ (Nat.lt_succ_self _)

theorem stmtsToJson_mapM (stmts : List Stmt) : (stmtsToJson stmts).mapM Stmt.ofJson? = some stmts := by
  have listed : stmtsToJson stmts = stmts.map Stmt.toJson := by
    induction stmts with
    | nil => rfl
    | cons stmt rest ih => rw [stmtsToJson, ih, List.map_cons]
  rw [listed]
  exact mapM_eq_some fun stmt _ => stmt.ofJson?_toJson

theorem FunctionDef.ofJson?_toJson (definition : FunctionDef) :
    FunctionDef.ofJson? definition.toJson = some definition := by
  obtain ⟨name, params, body⟩ := definition
  exact functionDef?_toJson (stmtsToJson_mapM body)

theorem Module.ofJson?_toJson (module : Module) : Module.ofJson? module.toJson = some module := by
  have back := stmtsToJson_mapM module.body
  simp [Module.toJson, Module.ofJson?, fields?, Json.lookup, all?, back]

/-- What is read back is not confused with anything else. -/
theorem injective_of_back {α : Type} {write : α → Json} {read : Json → Option α}
    (back : ∀ value, read (write value) = some value) : Function.Injective write := by
  intro first second same
  have both : some first = some second := by rw [← back first, ← back second, same]
  exact Option.some.inj both

/-- The JSON form loses nothing. Expressions, statements, functions and modules are read back from
their forms, so two of them with one form are the same. -/
theorem toJson_lossless :
    ((∀ expr : Expr, Expr.ofJson? expr.toJson = some expr) ∧
      (∀ stmt : Stmt, Stmt.ofJson? stmt.toJson = some stmt) ∧
      (∀ definition : FunctionDef, FunctionDef.ofJson? definition.toJson = some definition) ∧
      ∀ module : Module, Module.ofJson? module.toJson = some module) ∧
    Function.Injective Expr.toJson ∧ Function.Injective Stmt.toJson ∧
      Function.Injective FunctionDef.toJson ∧ Function.Injective Module.toJson :=
  ⟨⟨Expr.ofJson?_toJson, Stmt.ofJson?_toJson, FunctionDef.ofJson?_toJson, Module.ofJson?_toJson⟩,
    injective_of_back Expr.ofJson?_toJson, injective_of_back Stmt.ofJson?_toJson,
    injective_of_back FunctionDef.ofJson?_toJson, injective_of_back Module.ofJson?_toJson⟩

end Respell.Syntax
