import Mathlib
import Respell.Proofs.Parts
import Respell.Proofs.Reparsing

/-!
Boolean operators in the source and in the syntax tree. The source nests them two by two, and
parentheses group them; the syntax tree lists the values of a run. Operands are numbered from left to
right, so that one expression that stands in two places may have two values. What a run evaluates to
and which operands it looks at, in which order, is the same on both sides, unless a line continuation
that opens parentheses is read in the place of what they enclose.
-/

set_option autoImplicit false

namespace Respell.Syntax

/-- Whether an operator has its value once an operand is of a truth value. -/
def BooleanOperator.stopsAt : BooleanOperator → Bool → Bool
  | .and, truth => !truth
  | .or, truth => truth

/-- What an evaluation comes to: its value, and the places of the operands that it looked at. -/
structure Course (V : Type) where
  value : V
  visited : List Nat

mutual

/-- The expressions that boolean operators join, from left to right. -/
def Expr.operands : Expr → List Expr
  | .booleanOp _ values => Expr.listOperands values
  | expr => [expr]

def Expr.listOperands : List Expr → List Expr
  | [] => []
  | value :: rest => value.operands ++ Expr.listOperands rest

end

mutual

/-- The boolean operators above the operands, each with its values. -/
def Expr.junctions : Expr → List (BooleanOperator × List Expr)
  | .booleanOp op values => (op, values) :: Expr.listJunctions values
  | _ => []

def Expr.listJunctions : List Expr → List (BooleanOperator × List Expr)
  | [] => []
  | value :: rest => value.junctions ++ Expr.listJunctions rest

end

section

variable {V : Type} (truth : V → Bool) (operand : Nat → V)

mutual

/-- Evaluates an expression whose first operand has a place: the values of an operator from left to
right, up to the first at which it stops. -/
def Expr.evaluate (place : Nat) : Expr → Option (Course V)
  | .booleanOp op values => Expr.evaluateAll op place values
  | _ => some ⟨operand place, [place]⟩

def Expr.evaluateAll (op : BooleanOperator) (place : Nat) : List Expr → Option (Course V)
  | [] => none
  | [value] => value.evaluate place
  | value :: next :: rest => do
    let first ← value.evaluate place
    if op.stopsAt (truth first.value) then return first
    else
      let second ← Expr.evaluateAll op (place + value.operands.length) (next :: rest)
      return ⟨second.value, first.visited ++ second.visited⟩

end

end

end Respell.Syntax

namespace Respell.Source

open Respell.Syntax (BooleanOperator Course Expr)

/-- The trees that boolean operators and parentheses join, from left to right. -/
def Tree.operands : Tree → List Tree
  | .boolean left _ right => left.operands ++ right.operands
  | .parenthesized leading .yield trailing => [.parenthesized leading .yield trailing]
  | .parenthesized _ inner _ => inner.operands
  | tree => [tree]

/-- Evaluates a tree whose first operand has a place: the right side of an operator only if the left
one does not stop it. -/
def Tree.evaluate {V : Type} (truth : V → Bool) (operand : Nat → V) (place : Nat) :
    Tree → Course V
  | .boolean left op right =>
    let first := left.evaluate truth operand place
    if op.stopsAt (truth first.value) then first
    else
      let second := right.evaluate truth operand (place + left.operands.length)
      ⟨second.value, first.visited ++ second.visited⟩
  | .parenthesized _ inner _ => inner.evaluate truth operand place
  | _ => ⟨operand place, [place]⟩

/-- The boolean operators above the operands. -/
def Tree.junctions : Tree → List Tree
  | .boolean left op right => .boolean left op right :: (left.junctions ++ right.junctions)
  | .parenthesized _ inner _ => inner.junctions
  | _ => []

/-- The trees that one operator joins without parentheses between them. -/
def Tree.run (op : BooleanOperator) : Tree → List Tree
  | .boolean left op' right =>
    if op' = op then left.run op ++ [right] else [.boolean left op' right]
  | tree => [tree]

/-- The trivia after opening parentheses above the operands. -/
def Tree.openings : Tree → List Trivia
  | .boolean left _ right => left.openings ++ right.openings
  | .parenthesized leading inner _ => leading ++ inner.openings
  | _ => []

/-! ### Values of a run -/

theorem readExpr_boolean (left : Tree) (op : BooleanOperator) (right : Tree) :
    readExpr (.boolean left op right) = do
      let value ← readExpr left
      let last ← readExpr right
      return .booleanOp op (runOf op left value ++ [last]) := by
  rw [readExpr, readRun_eq]
  simp

theorem readExpr_boolean_eq_ok {left right : Tree} {op : BooleanOperator} {expr : Expr}
    (read : readExpr (.boolean left op right) = .ok expr) :
    ∃ value last, readExpr left = .ok value ∧ readExpr right = .ok last ∧
      expr = .booleanOp op (runOf op left value ++ [last]) := by
  rw [readExpr_boolean] at read
  obtain ⟨value, left_read, read⟩ := bind_eq_ok read
  obtain ⟨last, right_read, read⟩ := bind_eq_ok read
  exact ⟨value, last, left_read, right_read, (Except.ok.inj read).symm⟩

theorem bind_ne_ok {α β : Type} {first : Except ReadError α} {next : α → Except ReadError β}
    {value : β} (never : ∀ middle, next middle ≠ .ok value) : (first >>= next) ≠ .ok value := by
  intro ran
  obtain ⟨middle, -, ran⟩ := bind_eq_ok ran
  exact never middle ran

/-- Only boolean operators and parentheses are read as boolean operators. -/
theorem readExpr_ne_booleanOp {tree : Tree}
    (no_boolean : ∀ left op right, tree ≠ .boolean left op right)
    (no_parentheses : ∀ leading inner trailing, tree ≠ .parenthesized leading inner trailing)
    (op : BooleanOperator) (values : List Expr) : readExpr tree ≠ .ok (.booleanOp op values) := by
  match tree with
  | .boolean left op right => exact absurd rfl (no_boolean _ _ _)
  | .parenthesized leading inner trailing => exact absurd rfl (no_parentheses _ _ _)
  | .integer digits =>
      rw [readExpr]
      split <;> simp
  | .float digits =>
      rw [readExpr]
      split <;> simp
  | .strings first rest =>
      rw [readExpr, readStrings]
      split <;> simp
  | .comparison first links =>
      rw [readExpr]
      refine bind_ne_ok fun _ => bind_ne_ok fun _ => ?_
      dsimp only
      split <;> simp [pure, Except.pure, throw, throwThe, MonadExceptOf.throw]
  | .call _ _ | .binary _ _ _ =>
      rw [readExpr]
      exact bind_ne_ok fun _ => bind_ne_ok fun _ => by simp [pure, Except.pure]
  | .subscript value index more =>
      rw [readExpr]
      exact bind_ne_ok fun _ => bind_ne_ok fun _ => bind_ne_ok fun _ => by simp [pure, Except.pure]
  | .generatorCall _ | .attribute _ _ | .list _ | .tuple _ | .dictionary _ =>
      rw [readExpr]
      exact bind_ne_ok fun _ => by simp [pure, Except.pure]
  | .trivia _ | .name _ | .true | .false | .none | .ellipsis | .parenthesizedSplat | .starred
  | .yield | .aliased | .other _ =>
      rw [readExpr]
      simp

/-- A left side adds at least one value to a run. -/
theorem runOf_ne_nil {left : Tree} {value : Expr} (read : readExpr left = .ok value)
    (op : BooleanOperator) : runOf op left value ≠ [] := by
  unfold runOf
  split
  next first op' last op'' values =>
    obtain ⟨_, _, -, -, same⟩ := readExpr_boolean_eq_ok read
    obtain ⟨-, rfl⟩ := Expr.booleanOp.inj same
    split <;> simp
  next => simp

/-- What parentheses enclose is read as if it stood alone, unless a continuation comes first. -/
theorem readExpr_of_unbroken {leading : List Trivia} (unbroken : Trivia.continuation ∉ leading)
    {inner : Tree} (no_yield : inner ≠ .yield) (trailing : List Trivia) :
    readExpr (.parenthesized leading inner trailing) = readExpr inner := by
  have plain : leading.contains .continuation = false := by simpa using unbroken
  rw [readExpr_parenthesized, firstBut, plain, if_neg Bool.false_ne_true, readValue]
  exact fun same => no_yield same

/-! ### Operands -/

theorem operands_of_not_booleanOp {expr : Expr}
    (single : ∀ op values, expr ≠ .booleanOp op values) : expr.operands = [expr] := by
  cases expr with
  | booleanOp op values => exact absurd rfl (single op values)
  | _ => rfl

theorem listOperands_append (values others : List Expr) :
    Expr.listOperands (values ++ others) = Expr.listOperands values ++ Expr.listOperands others := by
  induction values with
  | nil => rfl
  | cons value rest ih => simp [Expr.listOperands, ih]

theorem listOperands_runOf (op : BooleanOperator) (tree : Tree) (value : Expr) :
    Expr.listOperands (runOf op tree value) = value.operands := by
  unfold runOf
  split
  · split
    · rw [Expr.operands]
    · simp [Expr.listOperands]
  · simp [Expr.listOperands]

/-- A tree is read if its operands are, and the operands stay as they are; otherwise it fails as the
first of them that is not read. -/
theorem map_operands_readExpr {tree : Tree} (unbroken : Trivia.continuation ∉ tree.openings) :
    (readExpr tree).map Expr.operands = tree.operands.mapM readExpr := by
  fun_induction Tree.operands tree with
  | case1 left op right left_ih right_ih =>
      rw [Tree.openings, List.mem_append, not_or] at unbroken
      rw [List.mapM_append, ← left_ih unbroken.1, ← right_ih unbroken.2, readExpr_boolean]
      cases readExpr left with
      | error cause => rfl
      | ok value =>
          cases readExpr right with
          | error cause => rfl
          | ok last =>
              have joined : Expr.operands (.booleanOp op (runOf op left value ++ [last])) =
                  value.operands ++ last.operands := by
                rw [Expr.operands, listOperands_append, listOperands_runOf]
                simp [Expr.listOperands]
              exact congrArg Except.ok joined
  | case2 leading trailing =>
      rw [List.mapM_cons, List.mapM_nil, readExpr_parenthesized, firstBut]
      split <;> rfl
  | case3 leading inner trailing no_yield ih =>
      rw [Tree.openings, List.mem_append, not_or] at unbroken
      rw [readExpr_of_unbroken unbroken.1 no_yield, ih unbroken.2]
  | case4 tree no_boolean _ no_parentheses =>
      rw [List.mapM_cons, List.mapM_nil]
      cases read : readExpr tree with
      | error cause => rfl
      | ok expr =>
          have single : ∀ op values, expr ≠ .booleanOp op values := by
            rintro op values rfl
            exact readExpr_ne_booleanOp no_boolean no_parentheses op values read
          exact congrArg Except.ok (operands_of_not_booleanOp single)

theorem length_of_mapM {α β : Type} {f : α → Except ReadError β} {items : List α} {values : List β}
    (mapped : items.mapM f = .ok values) : values.length = items.length := by
  induction items generalizing values with
  | nil =>
      rw [List.mapM_nil] at mapped
      obtain rfl := Except.ok.inj mapped
      rfl
  | cons item rest ih =>
      rw [List.mapM_cons] at mapped
      obtain ⟨first, -, mapped⟩ := bind_eq_ok mapped
      obtain ⟨others, rest_mapped, mapped⟩ := bind_eq_ok mapped
      obtain rfl := Except.ok.inj mapped
      rw [List.length_cons, ih rest_mapped, List.length_cons]

/-! ### Evaluation -/

section

variable {V : Type} (truth : V → Bool) (operand : Nat → V)

theorem evaluate_of_not_booleanOp {expr : Expr}
    (single : ∀ op values, expr ≠ .booleanOp op values) (place : Nat) :
    expr.evaluate truth operand place = some ⟨operand place, [place]⟩ := by
  cases expr with
  | booleanOp op values => exact absurd rfl (single op values)
  | _ => rfl

theorem evaluateAll_runOf (op : BooleanOperator) (place : Nat) (tree : Tree) (value : Expr) :
    Expr.evaluateAll truth operand op place (runOf op tree value) =
      value.evaluate truth operand place := by
  unfold runOf
  split
  · split
    next same => rw [Expr.evaluate, same]
    · rw [Expr.evaluateAll]
  · rw [Expr.evaluateAll]

/-- A last value is looked at if none of the values before it stops the operator. -/
theorem evaluateAll_concat (op : BooleanOperator) (place : Nat) {values : List Expr}
    (some : values ≠ []) (last : Expr) :
    Expr.evaluateAll truth operand op place (values ++ [last]) = do
      let first ← Expr.evaluateAll truth operand op place values
      if op.stopsAt (truth first.value) then return first
      else
        let second ← last.evaluate truth operand (place + (Expr.listOperands values).length)
        return ⟨second.value, first.visited ++ second.visited⟩ := by
  induction values generalizing place with
  | nil => exact absurd rfl some
  | cons value rest ih =>
      cases rest with
      | nil => simp [Expr.evaluateAll, Expr.listOperands]
      | cons next rest =>
          have later := ih (place + value.operands.length) (List.cons_ne_nil next rest)
          simp only [List.cons_append, Expr.evaluateAll] at later ⊢
          cases value.evaluate truth operand place with
          | none => rfl
          | some first =>
              simp only [Option.bind_eq_bind, Option.bind_some]
              split
              next stops => simp [stops]
              next goes =>
                rw [later]
                cases Expr.evaluateAll truth operand op (place + value.operands.length)
                    (next :: rest) with
                | none => rfl
                | some middle =>
                    have further : place + value.operands.length +
                        (Expr.listOperands (next :: rest)).length =
                        place + (Expr.listOperands (value :: next :: rest)).length := by
                      simp only [Expr.listOperands, List.length_append]
                      omega
                    simp only [Option.bind_eq_bind, Option.bind_some, Option.pure_def, further]
                    split
                    · rfl
                    · cases last.evaluate truth operand _ with
                      | none => rfl
                      | some second => simp

/-- Short-circuit evaluation of what a tree is read into is that of the tree. -/
theorem evaluate_of_read {tree : Tree} (unbroken : Trivia.continuation ∉ tree.openings)
    {expr : Expr} (read : readExpr tree = .ok expr) (place : Nat) :
    expr.evaluate truth operand place = some (tree.evaluate truth operand place) := by
  fun_induction Tree.operands tree generalizing expr place with
  | case1 left op right left_ih right_ih =>
      rw [Tree.openings, List.mem_append, not_or] at unbroken
      obtain ⟨value, last, left_read, right_read, rfl⟩ := readExpr_boolean_eq_ok read
      have count : value.operands.length = left.operands.length := by
        have same := map_operands_readExpr unbroken.1
        rw [left_read] at same
        exact length_of_mapM same.symm
      rw [Expr.evaluate, evaluateAll_concat _ _ _ _ (runOf_ne_nil left_read op), evaluateAll_runOf,
        left_ih unbroken.1 left_read, listOperands_runOf, count, right_ih unbroken.2 right_read,
        Tree.evaluate]
      simp only [Option.bind_eq_bind, Option.bind_some]
      split <;> rfl
  | case2 leading trailing =>
      have single : ∀ op values, expr ≠ .booleanOp op values := by
        rintro op values rfl
        rw [readExpr_parenthesized, firstBut] at read
        split at read <;> cases read
      rw [evaluate_of_not_booleanOp truth operand single]
      rfl
  | case3 leading inner trailing no_yield ih =>
      rw [Tree.openings, List.mem_append, not_or] at unbroken
      rw [readExpr_of_unbroken unbroken.1 no_yield] at read
      rw [ih unbroken.2 read, Tree.evaluate]
  | case4 tree no_boolean _ no_parentheses =>
      have single : ∀ op values, expr ≠ .booleanOp op values := by
        rintro op values rfl
        exact readExpr_ne_booleanOp no_boolean no_parentheses op values read
      rw [evaluate_of_not_booleanOp truth operand single, Tree.evaluate]
      · exact no_boolean
      · exact no_parentheses

end

/-! ### Runs -/

theorem mapM_run (op : BooleanOperator) (tree : Tree) :
    (tree.run op).mapM readExpr = readRun op tree := by
  fun_induction Tree.run op tree with
  | case1 left right ih =>
      rw [List.mapM_append, ih, readRun]
      simp
  | case2 left op' right other =>
      rw [List.mapM_cons, List.mapM_nil, readRun, readExpr]
      simp [other]
  | case3 tree no_boolean =>
      rw [List.mapM_cons, List.mapM_nil, readRun]
      · rfl
      · exact no_boolean

/-- A run starts with something else than its own operator. -/
theorem exists_run (op : BooleanOperator) (tree : Tree) :
    ∃ first rest, tree.run op = first :: rest ∧ ∀ left right, first ≠ .boolean left op right := by
  fun_induction Tree.run op tree with
  | case1 left right ih =>
      obtain ⟨first, rest, run, starts⟩ := ih
      exact ⟨first, rest ++ [right], by rw [run, List.cons_append], starts⟩
  | case2 left op' right other =>
      refine ⟨_, _, rfl, ?_⟩
      rintro _ _ ⟨⟩
      exact other rfl
  | case3 tree no_boolean => exact ⟨_, _, rfl, fun left right => no_boolean left op right⟩

/-- Only parentheses keep a run of an operator apart at the start of a run of the same operator. -/
theorem parenthesized_of_head? {op : BooleanOperator} {tree : Tree} {values inner : List Expr}
    (read : (tree.run op).mapM readExpr = .ok values)
    (head : values.head? = some (.booleanOp op inner)) :
    ∃ leading enclosed trailing,
      (tree.run op).head? = some (.parenthesized leading enclosed trailing) := by
  obtain ⟨first, rest, run, starts⟩ := exists_run op tree
  rw [run, List.mapM_cons] at read
  obtain ⟨value, first_read, read⟩ := bind_eq_ok read
  obtain ⟨others, -, read⟩ := bind_eq_ok read
  obtain rfl := Except.ok.inj read
  obtain rfl : value = .booleanOp op inner := by simpa using head
  rw [run, List.head?_cons]
  by_contra apart
  refine readExpr_ne_booleanOp ?_ ?_ op inner first_read
  · rintro left op' right rfl
    obtain ⟨_, _, -, -, same⟩ := readExpr_boolean_eq_ok first_read
    obtain ⟨rfl, -⟩ := Expr.booleanOp.inj same
    exact starts left right rfl
  · rintro leading enclosed trailing rfl
    exact apart ⟨leading, enclosed, trailing, rfl⟩

theorem listJunctions_append (values others : List Expr) :
    Expr.listJunctions (values ++ others) =
      Expr.listJunctions values ++ Expr.listJunctions others := by
  induction values with
  | nil => rfl
  | cons value rest ih => simp [Expr.listJunctions, ih]

theorem listJunctions_runOf (op : BooleanOperator) (tree : Tree) (value : Expr) :
    Expr.listJunctions (runOf op tree value) ⊆ value.junctions := by
  unfold runOf
  split
  · split
    · rw [Expr.junctions]
      exact List.subset_cons_self _ _
    · simp [Expr.listJunctions]
  · simp [Expr.listJunctions]

/-- Every boolean operator of the syntax tree has the values of a run in the source. -/
theorem exists_junction_of_read {tree : Tree} (unbroken : Trivia.continuation ∉ tree.openings)
    {expr : Expr} (read : readExpr tree = .ok expr) {op : BooleanOperator} {values : List Expr}
    (member : (op, values) ∈ expr.junctions) :
    ∃ left right, Tree.boolean left op right ∈ tree.junctions ∧
      ((Tree.boolean left op right).run op).mapM readExpr = .ok values := by
  fun_induction Tree.operands tree generalizing expr with
  | case1 left op' right left_ih right_ih =>
      rw [Tree.openings, List.mem_append, not_or] at unbroken
      obtain ⟨value, last, left_read, right_read, rfl⟩ := readExpr_boolean_eq_ok read
      rw [Expr.junctions, listJunctions_append] at member
      rw [Tree.junctions]
      rcases List.mem_cons.mp member with same | deeper
      · obtain ⟨rfl, rfl⟩ := Prod.mk.inj same
        refine ⟨left, right, List.mem_cons_self, ?_⟩
        rw [mapM_run, readRun_eq, read]
        simp [runOf]
      rcases List.mem_append.mp deeper with before | after
      · obtain ⟨first, second, inside, run⟩ :=
          left_ih unbroken.1 left_read (listJunctions_runOf op' left value before)
        exact ⟨first, second, List.mem_cons_of_mem _ (List.mem_append_left _ inside), run⟩
      · have in_last : (op, values) ∈ last.junctions := by simpa [Expr.listJunctions] using after
        obtain ⟨first, second, inside, run⟩ := right_ih unbroken.2 right_read in_last
        exact ⟨first, second, List.mem_cons_of_mem _ (List.mem_append_right _ inside), run⟩
  | case2 leading trailing =>
      rw [readExpr_parenthesized, firstBut] at read
      split at read <;> obtain rfl := Except.ok.inj read <;> cases member
  | case3 leading inner trailing no_yield ih =>
      rw [Tree.openings, List.mem_append, not_or] at unbroken
      rw [readExpr_of_unbroken unbroken.1 no_yield] at read
      rw [Tree.junctions]
      exact ih unbroken.2 read member
  | case4 tree no_boolean _ no_parentheses =>
      cases expr with
      | booleanOp op values =>
          exact absurd read (readExpr_ne_booleanOp no_boolean no_parentheses op values)
      | _ => cases member

/-- Boolean operators and parentheses over any operands are read into runs that mean the same: the
operands stay in order, every assignment of values to them gives the same value and visits the same
operands in the same order, and a run starts with a run of the same operator only if the source has it
in parentheses. -/
theorem readExpr_short_circuit {tree : Tree} (unbroken : Trivia.continuation ∉ tree.openings) :
    (readExpr tree).map Expr.operands = tree.operands.mapM readExpr ∧
      ∀ expr, readExpr tree = .ok expr →
        (∀ (V : Type) (truth : V → Bool) (operand : Nat → V),
          expr.evaluate truth operand 0 = some (tree.evaluate truth operand 0)) ∧
        ∀ op values, (op, values) ∈ expr.junctions →
          ∃ left right, Tree.boolean left op right ∈ tree.junctions ∧
            ((Tree.boolean left op right).run op).mapM readExpr = .ok values ∧
            ∀ inner, values.head? = some (.booleanOp op inner) →
              ∃ leading enclosed trailing, ((Tree.boolean left op right).run op).head? =
                some (.parenthesized leading enclosed trailing) := by
  refine ⟨map_operands_readExpr unbroken, fun expr read => ⟨?_, ?_⟩⟩
  · intro V truth operand
    exact evaluate_of_read truth operand unbroken read 0
  · intro op values member
    obtain ⟨left, right, inside, run⟩ := exists_junction_of_read unbroken read member
    exact ⟨left, right, inside, run, fun inner head => parenthesized_of_head? run head⟩

/-- A run in parentheses at the start of a longer run stays apart, and a false first operand is passed
on to the last one. -/
theorem readExpr_short_circuit_enclosed_run :
    let tree : Tree := .boolean (.boolean (.parenthesized [.comment]
      (.boolean (.name "a") .and (.name "b")) []) .and (.name "c")) .or (.name "d")
    let expr : Expr := .booleanOp .or
      [.booleanOp .and [.booleanOp .and [.name "a", .name "b"], .name "c"], .name "d"]
    Trivia.continuation ∉ tree.openings ∧ readExpr tree = .ok expr ∧
      (∀ operand : Nat → Bool, expr.evaluate id operand 0 = some (tree.evaluate id operand 0)) ∧
      tree.evaluate id (· != 0) 0 = ⟨true, [0, 3]⟩ := by
  intro tree expr
  have unbroken : Trivia.continuation ∉ tree.openings := by simp [tree, Tree.openings]
  have read : readExpr tree = .ok expr := by cbv
  refine ⟨unbroken, read, ?_, rfl⟩
  intro operand
  exact ((readExpr_short_circuit unbroken).2 expr read).1 Bool id operand

/-- A continued line right after an opening parenthesis is read in the place of what is enclosed: two
operands become one, and the value is another one. -/
theorem read_parentheses_continued :
    let tree : Tree := .boolean (.name "a") .and
      (.parenthesized [.continuation] (.boolean (.name "b") .or (.name "c")) [])
    let expr : Expr := .booleanOp .and [.name "a", .other "line_continuation"]
    parse? "a and (\\\nb or c)" = some [.expression tree] ∧ readExpr tree = .ok expr ∧
      tree.operands = [.name "a", .name "b", .name "c"] ∧
      expr.evaluate id (· != 1) 0 = some ⟨false, [0, 1]⟩ ∧
      tree.evaluate id (· != 1) 0 = ⟨true, [0, 1, 2]⟩ := by
  refine ⟨by cbv, by cbv, rfl, rfl, rfl⟩

end Respell.Source
