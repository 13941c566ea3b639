import Respell.Source.Grammar.Module

/-!
What the statements of a text can be. A parser gives values with a property if every run of it that
reads something does; only the statements that start with `def`, `class`, `async` or a decorator are
definitions.
-/

set_option autoImplicit false

namespace Respell.Source

/-- What holds of a turn of a loop: one thing of the next state, another one of the value. -/
def Turn.Holds {σ α : Type} (again : σ → Prop) (done : α → Prop) : Turn σ α → Prop
  | .again state => again state
  | .done value => done value

/-- Whatever a parser reads has a property, where the runs of the rules can be trusted. -/
def Parser.GivesIf {α : Type} (trusted : ((rule : Rule) → Lexeme → Outcome rule.Result) → Prop)
    (property : α → Prop) (parser : Parser α) : Prop :=
  ∀ calls, trusted calls →
    ∀ lexeme value stop, parser.run calls lexeme = ⟨some value, stop⟩ → property value

/-- Whatever a parser reads has a property. -/
abbrev Parser.Gives {α : Type} (property : α → Prop) (parser : Parser α) : Prop :=
  parser.GivesIf (fun _ => True) property

namespace Parser

variable {α β : Type} {calls : (rule : Rule) → Lexeme → Outcome rule.Result} {lexeme stop : Lexeme}

theorem run_pure_iff {value other : α} :
    (Pure.pure value : Parser α).run calls lexeme = ⟨some other, stop⟩ ↔
      value = other ∧ lexeme = stop := by
  change Outcome.mk (some value) lexeme = _ ↔ _
  simp

theorem run_bind_iff {first : Parser β} {next : β → Parser α} {value : α} :
    (first >>= next).run calls lexeme = ⟨some value, stop⟩ ↔
      ∃ one place, first.run calls lexeme = ⟨some one, place⟩ ∧
        (next one).run calls place = ⟨some value, stop⟩ := by
  change (Parser.bind first next).run calls lexeme = _ ↔ _
  rw [run]
  constructor
  · intro read
    split at read
    next one place ran => exact ⟨one, place, ran, read⟩
    · cases read
  · rintro ⟨one, place, ran, read⟩
    rw [ran]
    exact read

theorem run_written_iff {inner : Parser α} {text : String} {value : α} :
    inner.written.run calls lexeme = ⟨some (text, value), stop⟩ ↔
      inner.run calls lexeme.bare = ⟨some value, stop⟩ ∧ lexeme.textTo stop.before = text := by
  rw [run]
  split
  next one place ran =>
    simp only [ran, Outcome.mk.injEq, Option.some.injEq, Prod.mk.injEq]
    constructor
    · rintro ⟨⟨rfl, rfl⟩, rfl⟩
      exact ⟨⟨rfl, rfl⟩, rfl⟩
    · rintro ⟨⟨rfl, rfl⟩, rfl⟩
      exact ⟨⟨rfl, rfl⟩, rfl⟩
  next stuck ran => simp [ran]

/-- A choice reads what the first reading does, or what the second one does. -/
theorem orElse_cases {first second : Parser α} {value : α}
    (read : (first <|> second).run calls lexeme = ⟨some value, stop⟩) :
    first.run calls lexeme = ⟨some value, stop⟩ ∨
      ∃ other, second.run calls lexeme = ⟨some value, other⟩ := by
  change (Parser.orElse first second).run calls lexeme = _ at read
  rw [Parser.run] at read
  split at read
  next found rest ran => exact .inl (ran.trans read)
  next stuck ran =>
    have taken := congrArg Outcome.value read
    change (if _ then _ else none) = some value at taken
    split at taken
    · exact .inr ⟨_, by rw [← taken]⟩
    · cases taken

/-- What holds at the start of a loop and is kept by its steps holds at its end. -/
theorem iterate_induct {σ : Type} {step : σ → Lexeme → Outcome (Turn σ α)}
    (invariant : σ → Lexeme → Prop) {property : α → Prop}
    (again : ∀ state place next rest, invariant state place →
      step state place = ⟨some (.again next), rest⟩ → invariant next rest)
    (done : ∀ state place value rest, invariant state place →
      step state place = ⟨some (.done value), rest⟩ → property value)
    {state : σ} {value : α} (start : invariant state lexeme)
    (read : iterate step state lexeme = ⟨some value, stop⟩) : property value := by
  generalize size : lexeme.start.length = n
  induction n using Nat.strongRecOn generalizing state lexeme with
  | ind n ih =>
      rw [iterate] at read
      split at read
      next found rest ran =>
        have same := congrArg Outcome.value read
        obtain rfl : found = value := by simpa using same
        exact done state lexeme found rest start ran
      next next rest ran =>
        split at read
        next less => exact ih _ (size ▸ less) (again state lexeme next rest start ran) read rfl
        · cases read
      · cases read

end Parser

namespace Parser.GivesIf

variable {α β σ : Type} {trusted : ((rule : Rule) → Lexeme → Outcome rule.Result) → Prop}
  {property : α → Prop}

theorem pure {value : α} (holds : property value) : GivesIf trusted property (Pure.pure value) := by
  intro calls _ lexeme other stop read
  exact (run_pure_iff.mp read).1 ▸ holds

theorem fail : GivesIf trusted property Parser.fail := by
  intro calls _ lexeme value stop read
  cases read

theorem bind {first : Parser β} {next : β → Parser α} {before : β → Prop}
    (front : GivesIf trusted before first)
    (back : ∀ value, before value → GivesIf trusted property (next value)) :
    GivesIf trusted property (first >>= next) := by
  intro calls trust lexeme value stop read
  obtain ⟨one, place, ran, rest⟩ := run_bind_iff.mp read
  exact back one (front calls trust lexeme one place ran) calls trust place value stop rest

theorem after {first : Parser β} {next : β → Parser α}
    (back : ∀ value, GivesIf trusted property (next value)) :
    GivesIf trusted property (first >>= next) := by
  have anything : GivesIf trusted (fun _ => True) first := fun _ _ _ _ _ _ => trivial
  exact bind anything fun value _ => back value

theorem orElse {first second : Parser α} (one : GivesIf trusted property first)
    (other : GivesIf trusted property second) : GivesIf trusted property (first <|> second) := by
  intro calls trust lexeme value stop read
  rcases orElse_cases read with ran | ⟨rest, ran⟩
  · exact one calls trust lexeme value stop ran
  · exact other calls trust lexeme value rest ran

theorem ite {condition : Prop} [Decidable condition] {first second : Parser α}
    (one : GivesIf trusted property first) (other : GivesIf trusted property second) :
    GivesIf trusted property (if condition then first else second) := by
  split
  · exact one
  · exact other

theorem loop (invariant : σ → Prop) {step : σ → Parser (Turn σ α)} {state : σ}
    (steps : ∀ state, invariant state →
      GivesIf trusted (Turn.Holds invariant property) (step state))
    (start : invariant state) : GivesIf trusted property (Parser.loop step state) := by
  intro calls trust lexeme value stop read
  rw [Parser.run] at read
  refine iterate_induct (fun state _ => invariant state) ?_ ?_ start read
  · intro state place next rest holds ran
    exact steps state holds calls trust place _ rest ran
  · intro state place value rest holds ran
    exact steps state holds calls trust place _ rest ran

end Parser.GivesIf

/-! ### Statements that are no definitions -/

/-- A statement that is no definition and is not read as one. -/
def Statement.Undefining : Statement → Prop
  | .definition _ _ => False
  | .other kind => kind ≠ "AsyncFunctionDef"
  | _ => True

/-- Statements that are no definitions. -/
abbrev Undefining (statements : List Statement) : Prop :=
  ∀ statement ∈ statements, statement.Undefining

namespace Grammar

open Respell.Source.Parser (Gives)

theorem undefining_statement (read : Assigned) : (Assigned.statement read).Undefining := by
  cases read with
  | value tree bare =>
      cases bare with
      | true => simp [Assigned.statement, Statement.Undefining]
      | false => trivial
  | chain links => trivial
  | augmented => simp [Assigned.statement, Statement.Undefining]

theorem undefining_trivia (gap : List Trivia) : Undefining (triviaStatements gap) := by
  intro statement member
  obtain ⟨kind, -, rfl⟩ := List.mem_map.mp member
  trivial

theorem undefining_append {first second : List Statement} (one : Undefining first)
    (other : Undefining second) : Undefining (first ++ second) := by
  intro statement member
  rcases List.mem_append.mp member with before | after
  · exact one statement before
  · exact other statement after

theorem undefining_singleton {statement : Statement} (one : statement.Undefining) :
    Undefining [statement] := by
  intro other member
  rwa [List.mem_singleton.mp member]

theorem gives_nameStatement (name : String) :
    Gives Statement.Undefining (nameStatement name) :=
  .after fun read => .pure (undefining_statement read)

theorem gives_complete {statement : Parser Statement}
    (gives : Gives Statement.Undefining statement) :
    Gives Statement.Undefining (complete statement) :=
  .bind gives fun _ one => .after fun _ => .ite (.pure one) .fail

theorem gives_importFrom : Gives Statement.Undefining importFrom := by
  refine .after fun _ => .after fun _ => .ite ?_ ?_
  · exact .after fun _ => .after fun _ => .after fun _ => .pure (by simp [Statement.Undefining])
  · refine .after fun read => .after fun _ => .after fun _ => .ite ?_ ?_
    · exact .after fun _ => .pure trivial
    · exact .after fun _ => .pure trivial

theorem gives_other {kind : String} (notAsync : kind ≠ "AsyncFunctionDef") :
    Gives Statement.Undefining (Pure.pure (.other kind)) := .pure notAsync

theorem gives_returnStatement : Gives Statement.Undefining returnStatement :=
  .after fun _ => .orElse (.after fun _ => .pure trivial) (.pure trivial)

theorem gives_raiseStatement : Gives Statement.Undefining raiseStatement := by
  refine .after fun _ => .after fun _ => .ite ?_ ?_
  · exact .after fun _ => .after fun _ => gives_other (by decide)
  · exact gives_other (by decide)

theorem gives_execStatement : Gives Statement.Undefining execStatement := by
  have last : Gives Statement.Undefining (do
      if ← atWord "in" then
        Parser.advance .operand
        expressionsExactly .lineEnd
      return .other "exec_statement") := by
    refine .after fun _ => .ite ?_ ?_
    · exact .after fun _ => .after fun _ => gives_other (by decide)
    · exact gives_other (by decide)
  refine .after fun token => ?_
  split
  · exact .after fun _ => last
  · exact .after fun _ => last

theorem gives_simpleStatement : Gives Statement.Undefining simpleStatement := by
  have plain {kind : String} (notAsync : kind ≠ "AsyncFunctionDef") (before : Parser Unit) :
      Gives Statement.Undefining (before >>= fun _ => Pure.pure (.other kind)) :=
    .after fun _ => gives_other notAsync
  refine .after fun token => ?_
  split
  · exact .after fun _ => .after fun _ => .pure trivial
  · exact gives_importFrom
  · exact .after fun _ => plain (by decide) _
  · exact .after fun _ => gives_returnStatement
  · exact .after fun _ => .after fun _ => gives_other (by decide)
  · exact .after fun _ => gives_raiseStatement
  · exact plain (by decide) _
  · exact plain (by decide) _
  · exact plain (by decide) _
  · exact .after fun _ => plain (by decide) _
  · exact .after fun _ => plain (by decide) _
  · refine .after fun _ => .after fun _ => .ite ?_ ?_
    · exact .after fun _ => .after fun _ => .after fun _ => gives_other (by decide)
    · exact .orElse (gives_complete (gives_nameStatement "print"))
        (.after fun _ => gives_other (by decide))
  · exact .after fun _ => .orElse (gives_complete (gives_nameStatement "exec")) gives_execStatement
  · refine .after fun _ => .orElse (gives_complete ?_) (gives_nameStatement "type")
    exact .after fun _ => .after fun _ => .after fun _ => gives_other (by decide)
  · exact .after fun read => .pure (undefining_statement read)

theorem gives_simpleLine {head : Parser Statement} (first : Gives Statement.Undefining head) :
    Gives Undefining (simpleLine head) := by
  refine .bind first fun statement one => ?_
  refine .loop Undefining ?_ (undefining_singleton one)
  intro read before
  refine .after fun gap => .after fun token => .ite ?_ ?_
  · exact .pure (undefining_append before (undefining_trivia gap))
  · refine .after fun _ => .after fun gap' => .after fun token' => ?_
    have line := undefining_append (undefining_append before (undefining_trivia gap))
      (undefining_trivia gap')
    refine .ite (.pure line) (.bind gives_simpleStatement fun next other => .pure ?_)
    exact undefining_append line (undefining_singleton other)

theorem gives_lineStatement {head : Parser Statement} (first : Gives Statement.Undefining head) :
    Gives Undefining (lineStatement head) :=
  .bind (gives_simpleLine first) fun _ all => .after fun _ => .pure all

theorem gives_single {statement : Parser Statement}
    (one : Gives Statement.Undefining statement) : Gives Undefining (single statement) :=
  .bind one fun _ holds => .pure (undefining_singleton holds)

/-! ### Compound statements -/

theorem gives_ifStatement : Gives Statement.Undefining ifStatement :=
  .after fun _ => .after fun _ => .after fun _ => .after fun _ => .pure trivial

theorem gives_whileStatement : Gives Statement.Undefining whileStatement :=
  .after fun _ => .after fun _ => .after fun _ => .after fun _ => .pure trivial

theorem gives_forStatement (isAsync : Bool) : Gives Statement.Undefining (forStatement isAsync) :=
  .after fun _ => .after fun _ => .after fun _ => .after fun _ => .after fun _ => .after fun _ =>
    .pure trivial

theorem gives_withStatement : Gives Statement.Undefining withStatement :=
  .after fun _ => .after fun _ => .after fun _ => gives_other (by decide)

theorem gives_tryStatement : Gives Statement.Undefining tryStatement := by
  refine .after fun _ => .after fun _ => .after fun _ => .after fun _ => .after fun _ => .ite ?_ ?_
  · exact .after fun _ => .after fun _ => gives_other (by decide)
  · exact gives_other (by decide)

theorem gives_matchLine : Gives Undefining matchLine := by
  refine .after fun _ => .orElse (gives_single ?_) (gives_lineStatement (gives_nameStatement _))
  exact .after fun _ => .after fun _ => gives_other (by decide)

/-! ### Definitions -/

/-- The token that a definition starts with, and how it is read up to its body. -/
inductive Leads : Token → Parser (List Statement → Definition) → Prop
  | function : Leads (.word "def") (functionHeader false)
  | klass : Leads (.word "class") classHeader
  | coroutine : Leads (.word "async") asyncHeader
  | decorated : Leads (.symbol "@") decoratedHeader

variable {calls : (rule : Rule) → Lexeme → Outcome rule.Result} {lexeme stop : Lexeme}

theorem run_statement (calls : (rule : Rule) → Lexeme → Outcome rule.Result) (lexeme : Lexeme) :
    statement.run calls lexeme =
      (match lexeme.token with
      | .word "if" => single ifStatement
      | .word "while" => single whileStatement
      | .word "for" => single (forStatement false)
      | .word "try" => single tryStatement
      | .word "with" => single withStatement
      | .word "def" => definitionStatement (functionHeader false)
      | .word "class" => definitionStatement classHeader
      | .word "async" => asyncStatement
      | .symbol "@" => definitionStatement decoratedHeader
      | .word "match" => matchLine
      | _ => lineStatement simpleStatement).run calls lexeme := rfl

/-- A definition is read as a statement wherever its first token stands. -/
theorem run_statement_of_leads {header : Parser (List Statement → Definition)}
    {read : List Statement} (leads : Leads lexeme.token header)
    (ran : (definitionStatement header).run calls lexeme = ⟨some read, stop⟩) :
    statement.run calls lexeme = ⟨some read, stop⟩ := by
  rw [run_statement]
  generalize lexeme.token = token at leads
  cases leads with
  | function => exact ran
  | klass => exact ran
  | decorated => exact ran
  | coroutine =>
      change (Parser.orElse (definitionStatement asyncHeader) _).run calls lexeme = _
      rw [Parser.run, ran]

theorem run_definitionStatement {header : Parser (List Statement → Definition)}
    {read : List Statement}
    (ran : (definitionStatement header).run calls lexeme = ⟨some read, stop⟩) :
    ∃ text defined, read = [.definition text defined] := by
  have gives : Gives (fun read => ∃ text defined, read = [.definition text defined])
      (definitionStatement header) := .after fun _ => .pure ⟨_, _, rfl⟩
  exact gives calls trivial lexeme read stop ran

/-- A statement is a definition that its first token leads, or it is none. -/
theorem statement_cases {read : List Statement}
    (ran : statement.run calls lexeme = ⟨some read, stop⟩) :
    Undefining read ∨ ∃ header, Leads lexeme.token header ∧
      (definitionStatement header).run calls lexeme = ⟨some read, stop⟩ := by
  have gives {parser : Parser (List Statement)} (all : Gives Undefining parser)
      (ran : parser.run calls lexeme = ⟨some read, stop⟩) : Undefining read :=
    all calls trivial lexeme read stop ran
  rw [run_statement] at ran
  generalize token : lexeme.token = first at ran
  split at ran
  · exact .inl (gives (gives_single gives_ifStatement) ran)
  · exact .inl (gives (gives_single gives_whileStatement) ran)
  · exact .inl (gives (gives_single (gives_forStatement false)) ran)
  · exact .inl (gives (gives_single gives_tryStatement) ran)
  · exact .inl (gives (gives_single gives_withStatement) ran)
  · exact .inr ⟨_, .function, ran⟩
  · exact .inr ⟨_, .klass, ran⟩
  · rcases Parser.orElse_cases ran with ran | ⟨other, ran⟩
    · exact .inr ⟨_, .coroutine, ran⟩
    · have ordinary : Gives Undefining (do
          word "async" .lineEnd
          if ← atWord "for" then single (forStatement true)
          else if ← atWord "with" then single withStatement
          else lineStatement (nameStatement "async")) := by
        refine .after fun _ => .after fun _ => .ite ?_ ?_
        · exact gives_single (gives_forStatement true)
        · refine .after fun _ => .ite ?_ ?_
          · exact gives_single gives_withStatement
          · exact gives_lineStatement (gives_nameStatement "async")
      exact .inl (ordinary calls trivial lexeme read other ran)
  · exact .inr ⟨_, .decorated, ran⟩
  · exact .inl (gives gives_matchLine ran)
  · exact .inl (gives (gives_lineStatement gives_simpleStatement) ran)

end Grammar

end Respell.Source
