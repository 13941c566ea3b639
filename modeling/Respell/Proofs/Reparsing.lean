import Mathlib
import Respell.Proofs.Isolation
import Respell.Source.Members

/-!
Functions read again from their own texts. The functions that a source text lists as members are
those of its syntax tree, and the text of each one gives, read alone, the function of the tree.
-/

set_option autoImplicit false

namespace Respell.Source

open Respell.Syntax (FunctionDef Member Module Stmt)

/-- The functions among members, each with its name and its text. -/
def callables (entries : List Member) : List (String × String) :=
  entries.filterMap fun entry => match entry.kind with
    | .callable text => some (entry.name, text)
    | _ => none

/-- The kind of an asynchronous function in a syntax tree. -/
def coroutineKind : String := "AsyncFunctionDef"

/-- Whether a statement defines a function. -/
def definesFunction : Stmt → Bool
  | .functionDef _ => true
  | .other kind => kind == coroutineKind
  | _ => false

/-- The name of the function that a tree defines. -/
def Statement.functionName? : Statement → Option String
  | .definition _ (.function _ name _ _) => some name
  | _ => none

/-- A function's own text gives the function at its place, or is refused if that is asynchronous. -/
def Reparses (entry : String × String) : Stmt → Prop
  | .functionDef definition =>
    reader.readFunction entry.2 = .ok definition ∧ definition.name = entry.1
  | stmt => reader.readFunction entry.2 = .error (.unexpected "FunctionDef" stmt.kindName)

theorem read_eq_readStmts {source : String} {statements : List Statement}
    (parsed : parse? source = some statements) :
    read source = do return ⟨← readStmts statements⟩ := by
  unfold read parse
  rw [parsed]
  rfl

/-- A text that is one statement is read as that statement. -/
theorem read_of_parse? {text : String} {one : Statement} (parsed : parse? text = some [one]) :
    read text = (readStmt one).map fun stmt => ⟨stmt.toList⟩ := by
  rw [read_eq_readStmts parsed, readStmts]
  cases readStmt one with
  | error cause => rfl
  | ok stmt => cases stmt <;> rfl

/-- The text of a function, read alone: its body decides, unless the function is asynchronous. -/
theorem readFunction_definition {text text' name : String} {isAsync : Bool}
    {parameters : List Parameter} {body : List Statement}
    (parsed : parse? text = some [.definition text' (.function isAsync name parameters body)]) :
    reader.readFunction text =
      if isAsync then .error (.unexpected "FunctionDef" coroutineKind)
      else (readStmts body).map fun body => .mk name (readParameters parameters) body := by
  unfold Reader.readFunction
  change (read text >>= _) = _
  rw [read_of_parse? parsed, readStmt, readDefinition]
  cases isAsync with
  | true => rfl
  | false => cases readStmts body <;> rfl

/-! ### Statements that define nothing -/

theorem callables_eq_nil {entries : List Member}
    (none : ∀ entry ∈ entries, ∀ text, entry.kind ≠ .callable text) : callables entries = [] := by
  refine List.filterMap_eq_nil_iff.mpr ?_
  intro entry member
  split
  next text kind => exact absurd kind (none entry member text)
  · rfl

theorem callables_of_undefining {one : Statement} (undefining : one.Undefining) :
    callables (statementMembers one) = [] := by
  cases one with
  | definition text defined => exact undefining.elim
  | imports names =>
      refine callables_eq_nil ?_
      intro entry member text
      obtain ⟨imported, -, rfl⟩ := List.mem_map.mp member
      cases imported <;> simp [importMember]
  | importsFrom package names =>
      refine callables_eq_nil ?_
      intro entry member text
      obtain ⟨imported, -, rfl⟩ := List.mem_map.mp member
      unfold importFromMember
      cases imported <;> dsimp only <;> split <;> simp
  | assignment first annotated more value => cases first <;> rfl
  | _ => rfl

theorem bind_eq_ok {α β : Type} {first : Except ReadError α} {next : α → Except ReadError β}
    {value : β} (ran : (first >>= next) = .ok value) :
    ∃ middle, first = .ok middle ∧ next middle = .ok value := by
  cases first with
  | error cause => cases ran
  | ok middle => exact ⟨middle, rfl, ran⟩

theorem undefined_some {stmt : Stmt} (undefined : definesFunction stmt = false) :
    ∀ one ∈ some stmt, definesFunction one = false := by
  rintro one ⟨⟩
  exact undefined

theorem undefined_other {kind : String} (named : kind ≠ coroutineKind) :
    ∀ one ∈ some (Stmt.other kind), definesFunction one = false :=
  undefined_some (by simpa [definesFunction] using named)

theorem definesFunction_of_undefining {one : Statement} (undefining : one.Undefining) :
    SatisfiesM (∀ stmt ∈ ·, definesFunction stmt = false) (readStmt one) := by
  cases one with
  | definition text defined => exact undefining.elim
  | other kind => exact .pure (undefined_other undefining)
  | trivia kind =>
      cases kind with
      | comment => exact .pure nofun
      | continuation => exact .pure (undefined_other (by decide))
  | imports names => exact .pure (undefined_other (by decide))
  | importsFrom package names => exact .pure (undefined_other (by decide))
  | expression tree =>
      by_cases aliased : tree = .aliased
      · subst aliased
        exact .pure (undefined_other (by decide))
      · rw [readStmt.eq_4 _ aliased]
        exact .bind .trivial fun _ _ => .pure (undefined_some rfl)
  | assignment first annotated more value =>
      rw [readStmt]
      split
      · exact .pure (undefined_other (by decide))
      · refine .bind .trivial fun _ _ => .bind .trivial fun _ _ => ?_
        split
        · exact .bind .trivial fun _ _ => .pure (undefined_some rfl)
        · exact SatisfiesM_Except_eq.mpr nofun
  | returns leading value =>
      cases value with
      | none => exact .pure (undefined_some rfl)
      | some tree =>
          rw [readStmt]
          exact .bind .trivial fun _ _ => .pure (undefined_some rfl)
  | forEach isAsync target iter body orelse =>
      rw [readStmt]
      split
      · exact .pure (undefined_other (by decide))
      · exact .bind .trivial fun _ _ => .bind .trivial fun _ _ => .bind .trivial fun _ _ =>
          .bind .trivial fun _ _ => .pure (undefined_some rfl)
  | ifElse test body alternative =>
      rw [readStmt]
      exact .bind .trivial fun _ _ => .bind .trivial fun _ _ => .bind .trivial fun _ _ =>
        .pure (undefined_some rfl)
  | whileLoop test body orelse =>
      rw [readStmt]
      exact .bind .trivial fun _ _ => .bind .trivial fun _ _ => .bind .trivial fun _ _ =>
        .pure (undefined_some rfl)

/-! ### Functions at their places -/

/-- A statement of a module lists the function that it is read as, if it is one. -/
theorem reparses_statement {one : Statement} {read : Option Stmt} (isolated : Grammar.Isolated one)
    (ran : readStmt one = .ok read) :
    List.Forall₂ Reparses (callables (statementMembers one))
      (read.toList.filter definesFunction) := by
  rcases isolated with undefining | ⟨text, defined, rfl, parsed⟩
  · rw [callables_of_undefining undefining]
    have none : read.toList.filter definesFunction = [] := by
      refine List.filter_eq_nil_iff.mpr ?_
      intro stmt member
      have undefined := SatisfiesM_Except_eq.mp (definesFunction_of_undefining undefining) _ ran
      simp [undefined stmt (Option.mem_toList.mp member)]
    rw [none]
    exact .nil
  · cases defined with
    | klass name => cases ran; exact .nil
    | function isAsync name parameters body =>
        have again := readFunction_definition parsed
        rw [readStmt, readDefinition] at ran
        cases isAsync with
        | true =>
            cases ran
            exact .cons again .nil
        | false =>
            obtain ⟨stmt, inner, ran⟩ := bind_eq_ok ran
            obtain ⟨stmts, whole, inner⟩ := bind_eq_ok inner
            cases inner
            cases ran
            rw [whole] at again
            exact .cons ⟨again, rfl⟩ .nil

theorem callables_append (first second : List Member) :
    callables (first ++ second) = callables first ++ callables second := List.filterMap_append

theorem reparses_statements {statements : List Statement} {body : List Stmt}
    (isolated : ∀ one ∈ statements, Grammar.Isolated one) (ran : readStmts statements = .ok body) :
    List.Forall₂ Reparses (callables (statements.flatMap statementMembers))
      (body.filter definesFunction) := by
  induction statements generalizing body with
  | nil =>
      cases ran
      exact .nil
  | cons one rest ih =>
      rw [readStmts] at ran
      obtain ⟨first, here, ran⟩ := bind_eq_ok ran
      obtain ⟨more, later, ran⟩ := bind_eq_ok ran
      cases ran
      rw [List.flatMap_cons, callables_append, List.filter_append]
      refine List.rel_append ?_ ?_
      · exact reparses_statement (isolated one (List.mem_cons_self ..)) here
      · exact ih (fun other member => isolated other (List.mem_cons_of_mem _ member)) later

theorem names_callables (statements : List Statement) :
    (callables (statements.flatMap statementMembers)).map Prod.fst =
      statements.filterMap Statement.functionName? := by
  induction statements with
  | nil => rfl
  | cons one rest ih =>
      have here : (callables (statementMembers one)).map Prod.fst = one.functionName?.toList := by
        cases one with
        | definition text defined => cases defined <;> rfl
        | other kind => rfl
        | _ =>
            refine congrArg (List.map Prod.fst) (callables_of_undefining ?_)
            trivial
      rw [List.flatMap_cons, callables_append, List.map_append, here, ih, List.filterMap_cons]
      cases one.functionName? <;> rfl

theorem parse_eq_ok {source : String} {statements : List Statement}
    (parsed : parse source = .ok statements) : parse? source = some statements := by
  unfold parse at parsed
  split at parsed
  next found same => rw [same, Except.ok.inj parsed]
  · cases parsed

/-- The functions that an accepted source text lists are, in order, those that it defines; the text
of each one gives, read alone, the function at its place in the syntax tree and under its name, or
is refused as an asynchronous one. -/
theorem callables_reparse {source : String} {module : Module}
    (accepted : reader.read source = .ok module) :
    ∃ statements entries, parse? source = some statements ∧
      reader.members source = .ok entries ∧
      (callables entries).map Prod.fst = statements.filterMap Statement.functionName? ∧
      List.Forall₂ Reparses (callables entries) (module.body.filter definesFunction) := by
  change (parse source >>= _) = _ at accepted
  obtain ⟨statements, parsed, accepted⟩ := bind_eq_ok accepted
  obtain ⟨body, ran, accepted⟩ := bind_eq_ok accepted
  cases accepted
  have whole := parse_eq_ok parsed
  refine ⟨statements, statements.flatMap statementMembers, whole, ?_, names_callables statements,
    reparses_statements (Grammar.isolated_of_parse? whole) ran⟩
  change (parse source >>= _) = _
  rw [parsed]
  rfl

/-- A decorated function with a comment in its last line, and an asynchronous one. -/
theorem callables_reparse_decorated :
    ∃ statements entries, parse? "@d\ndef f(a):\n  return a #\nasync def g(): pass" =
        some statements ∧
      reader.members "@d\ndef f(a):\n  return a #\nasync def g(): pass" = .ok entries ∧
      (callables entries).map Prod.fst = statements.filterMap Statement.functionName? ∧
      List.Forall₂ Reparses (callables entries) [
        .functionDef (.mk "f" ["a"] [.returns (some (.name "a"))]), .other coroutineKind] := by
  have accepted : reader.read "@d\ndef f(a):\n  return a #\nasync def g(): pass" =
      .ok ⟨[.functionDef (.mk "f" ["a"] [.returns (some (.name "a"))]),
        .other "AsyncFunctionDef"]⟩ := by
    cbv
  exact callables_reparse accepted

end Respell.Source
