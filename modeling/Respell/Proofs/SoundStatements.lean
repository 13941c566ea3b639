import Respell.Proofs.SoundTrees

/-!
Statements that a parser can build. Functions and parameters have names, chains of assignments without
a value have a type or a second target, and the trees inside are sound. The promises of the rules are
kept by induction on their use, so every statement of a text that is parsed is sound.
-/

set_option autoImplicit false

namespace Respell.Source

/-- Each part of a definition is sound, and a function and its parameters have names. -/
def Definition.Sound (defined : Definition) : Prop :=
  (∀ part ∈ defined.parts .whole, part.Sound) ∧
    ∀ text, (Part.statement (.definition text defined)).Sound

/-- Each part of what follows the first branch of a conditional is sound. -/
def Alternative.Sound (alternative : Alternative) : Prop :=
  ∀ part ∈ alternative.parts .whole, part.Sound

theorem Definition.sound_function {isAsync : Bool} {name : String} {parameters : List Parameter}
    {body : List Statement} :
    (Definition.function isAsync name parameters body).Sound ↔
      name ≠ "" ∧ .named "" ∉ parameters ∧ ∀ statement ∈ body, statement.Sound := by
  simp only [Sound, parts, Extent.under, Statement.listParts_eq, List.forall_mem_flatMap]
  constructor
  · rintro ⟨inside, named⟩
    exact ⟨(named "").1, (named "").2, inside⟩
  · rintro ⟨named, each, inside⟩
    exact ⟨inside, fun _ => ⟨named, each⟩⟩

theorem Alternative.sound_elseIf {test : Tree} {body : List Statement} {alternative : Alternative} :
    (Alternative.elseIf test body alternative).Sound ↔
      test.Sound ∧ (∀ statement ∈ body, statement.Sound) ∧ alternative.Sound := by
  simp only [Sound, parts, Statement.listParts_eq, List.forall_mem_append,
    List.forall_mem_flatMap, and_assoc]
  rfl

theorem Alternative.sound_otherwise {body : List Statement} :
    (Alternative.otherwise body).Sound ↔ ∀ statement ∈ body, statement.Sound := by
  simp only [Sound, parts, Statement.listParts_eq, List.forall_mem_flatMap]
  rfl

namespace Statement

variable {test target iter : Tree} {body orelse : List Statement}

theorem Sound.leaf {statement : Statement}
    (alone : statement.parts .whole = [.statement statement])
    (sound : (Part.statement statement).Sound) : statement.Sound := by
  intro part member
  rw [alone] at member
  rwa [List.mem_singleton.mp member]

/-- A statement is sound if it is so itself and what stands in it is. -/
theorem sound_iff (statement : Statement) :
    statement.Sound ↔ (Part.statement statement).Sound ∧ match statement with
      | .expression value => value.Sound
      | .assignment first _ more value =>
        (first.Sound ∧ ∀ tree ∈ more, tree.Sound) ∧ ∀ tree ∈ value, tree.Sound
      | .returns _ value => ∀ tree ∈ value, tree.Sound
      | .definition _ defined => ∀ part ∈ defined.parts .whole, part.Sound
      | .forEach _ target iter body orelse =>
        ((target.Sound ∧ iter.Sound) ∧ ∀ statement ∈ body, statement.Sound) ∧
          ∀ statement ∈ orelse, statement.Sound
      | .ifElse test body alternative =>
        (test.Sound ∧ ∀ statement ∈ body, statement.Sound) ∧ alternative.Sound
      | .whileLoop test body orelse =>
        (test.Sound ∧ ∀ statement ∈ body, statement.Sound) ∧
          ∀ statement ∈ orelse, statement.Sound
      | _ => True := by
  cases statement <;>
    simp only [Sound, Tree.Sound, Alternative.Sound, parts, listParts_eq, Tree.listParts_eq,
      Extent.under, List.forall_mem_append, List.forall_mem_flatMap, List.forall_mem_singleton,
      Option.mem_toList, Option.mem_def, and_comm, true_and]

theorem sound_expression {value : Tree} : (Statement.expression value).Sound ↔ value.Sound :=
  (sound_iff _).trans (and_iff_right trivial)

theorem sound_assignment {first : Tree} {annotated : Bool} {more : List Tree} {value : Option Tree} :
    (Statement.assignment first annotated more value).Sound ↔
      (Chain.mk first annotated more value).Sound := by
  rw [sound_iff]
  constructor
  · rintro ⟨here, ⟨one, each⟩, right⟩
    refine ⟨one, each, right, ?_⟩
    rintro rfl
    exact here
  · intro chain
    refine ⟨?_, ⟨chain.first, chain.more⟩, chain.value⟩
    cases value with
    | none => exact chain.last rfl
    | some tree => trivial

theorem sound_returns {leading : List Trivia} {value : Option Tree} :
    (Statement.returns leading value).Sound ↔ ∀ tree ∈ value, tree.Sound :=
  (sound_iff _).trans (and_iff_right trivial)

theorem sound_definition {text : String} {defined : Definition} :
    (Statement.definition text defined).Sound ↔ defined.Sound := by
  rw [sound_iff, and_comm]
  refine and_congr_right fun _ => ⟨fun here other => ?_, fun each => each text⟩
  cases defined <;> exact here

theorem sound_forEach {isAsync : Bool} :
    (Statement.forEach isAsync target iter body orelse).Sound ↔
      ((target.Sound ∧ iter.Sound) ∧ ∀ statement ∈ body, statement.Sound) ∧
        ∀ statement ∈ orelse, statement.Sound :=
  (sound_iff _).trans (and_iff_right trivial)

theorem sound_ifElse {alternative : Alternative} :
    (Statement.ifElse test body alternative).Sound ↔
      (test.Sound ∧ ∀ statement ∈ body, statement.Sound) ∧ alternative.Sound :=
  (sound_iff _).trans (and_iff_right trivial)

theorem sound_whileLoop :
    (Statement.whileLoop test body orelse).Sound ↔
      (test.Sound ∧ ∀ statement ∈ body, statement.Sound) ∧
        ∀ statement ∈ orelse, statement.Sound :=
  (sound_iff _).trans (and_iff_right trivial)

end Statement

/-- A target in front of what is assigned makes a chain that is sound. -/
theorem Assigned.Sound.under {right : Assigned} (sound : right.Sound) {target : Tree}
    (one : target.Sound) (annotated : Bool) : (right.under target annotated).Sound := by
  cases right with
  | value tree bare =>
      refine ⟨one, List.forall_mem_nil _, ?_, fun none => by cases none⟩
      rintro tree ⟨⟩
      exact sound
  | augmented =>
      refine ⟨one, List.forall_mem_nil _, ?_, fun none => by cases none⟩
      rintro tree ⟨⟩
      exact .leaf rfl trivial
  | chain links =>
      refine ⟨one, List.forall_mem_cons.mpr ⟨sound.first, sound.more⟩, sound.value, ?_⟩
      intro _
      exact .inr (List.cons_ne_nil _ _)

theorem Assigned.Sound.statement {read : Assigned} (sound : read.Sound) :
    (Grammar.Assigned.statement read).Sound := by
  cases read with
  | value tree bare =>
      cases bare with
      | true => exact .leaf rfl trivial
      | false => exact Statement.sound_expression.mpr sound
  | chain links => exact Statement.sound_assignment.mpr sound
  | augmented => exact .leaf rfl trivial

namespace Grammar

open Respell.Source.Parser (Keeps KeepsAt)

variable {expect : Expect}

theorem sound_triviaStatements (gap : List Trivia) :
    ∀ statement ∈ triviaStatements gap, statement.Sound := by
  intro statement member
  obtain ⟨kind, -, rfl⟩ := List.mem_map.mp member
  exact .leaf rfl trivial

/-! ### Parameters -/

/-- The text of a target in parentheses is not empty. -/
theorem keepsAt_writtenTarget :
    KeepsAt (.symbol "(") (fun read => read.1 ≠ "") (Parser.written (target expect)) := by
  rintro calls trust lexeme ⟨text, tree⟩ stop opens read
  obtain ⟨inner, spelled⟩ := Parser.run_written_iff.mp read
  obtain ⟨first, place, front, back⟩ := Parser.run_bind_iff.mp inner
  have passed := passed_run trust (trust.passes (.expression _ _) _ _ _ front opens) back
  change text ≠ ""
  rintro rfl
  have nothing := congrArg String.toList spelled
  rw [Lexeme.textTo, String.toList_ofList] at nothing
  have length := congrArg List.length nothing
  change stop.before.length < lexeme.start.length at passed
  simp only [List.length_take, String.toList_empty, List.length_nil] at length
  omega

theorem keeps_parameter (typed : Bool) : Keeps (· ≠ .named "") (parameter typed expect) := by
  have variadic : Parameter.variadic ≠ .named "" := by simp
  have unnamed : Parameter.unnamed ≠ .named "" := by simp
  refine .token fun token spelled => ?_
  split
  · exact Keeps.at (.after fun _ => .pure unnamed)
  · refine Keeps.at (.after fun _ => .after fun _ => .after fun _ => .after fun _ => ?_)
    exact .ite (.pure variadic) (.after fun _ => .after fun _ => .pure variadic)
  · exact Keeps.at (.after fun _ => .after fun _ => .after fun _ => .pure variadic)
  · refine .bind keepsAt_writtenTarget fun ⟨text, tree⟩ named => ?_
    dsimp only
    split
    · refine .after fun _ => .ite (.after fun _ => .pure ?_) (.pure unnamed)
      simpa using named
    · exact .fail
  · refine Keeps.at (.bind keeps_identifier fun text named => ?_)
    refine .after fun _ => .after fun _ => .pure ?_
    simpa using named

theorem keeps_parametersFrom (typed : Bool) (close : String) {read : List Parameter}
    (before : .named "" ∉ read) :
    Keeps (fun parameters => .named "" ∉ parameters) (parametersFrom typed close expect read) := by
  refine .loop (fun parameters => .named "" ∉ parameters) ?_ before
  intro read before
  refine .bind (keeps_parameter typed) fun next named => ?_
  have all : .named "" ∉ read ++ [next] := by
    simp only [List.mem_append, List.mem_singleton, not_or]
    exact ⟨before, named.symm⟩
  refine .after fun _ => .ite (.pure all) (.after fun _ => .after fun _ => ?_)
  exact .ite (.pure all) (.pure all)

theorem keeps_parameters :
    Keeps (fun parameters => .named "" ∉ parameters) (parameters expect) := by
  have last (read : List Parameter) (all : .named "" ∉ read) :
      Keeps (fun parameters => .named "" ∉ parameters) (do
        Parser.advance expect
        return read) := .after fun _ => .pure all
  refine .after fun _ => .after fun _ => .ite (last [] List.not_mem_nil) ?_
  exact .bind (keeps_parametersFrom true ")" List.not_mem_nil) last

/-! ### Simple statements -/

theorem keeps_assignedFrom {head : Parser Tree} (starts : Keeps Tree.Sound head) :
    Keeps Assigned.Sound (assignedFrom head) := by
  have right : Keeps Assigned.Sound assigned := .call .assigned
  refine .bind starts fun first one => .after fun bare => ?_
  refine .bind (keeps_itemsFrom (keeps_expression _) (List.forall_mem_singleton.mpr one))
    fun children all => .after fun token => ?_
  have whole : (if bare then Tree.tuple children else first).Sound := by
    split
    · exact Tree.sound_tuple.mpr all
    · exact one
  have used : Keeps Tree.Sound (require (asTarget? (if bare then Tree.tuple children else first))) :=
    keeps_require fun _ => sound_asTarget? _ whole
  refine .ite ?_ (.ite ?_ (.ite ?_ (.pure whole)))
  · exact .bind used fun target one => .after fun _ => .bind right fun rest sound =>
      .pure (sound.under one false)
  · exact .after fun _ => .after fun _ => .after fun _ => .pure trivial
  · refine .bind used fun target one => .after fun _ => .after fun _ => .after fun _ => .ite ?_ ?_
    · exact .after fun _ => .bind right fun rest sound => .pure (sound.under one true)
    · refine .pure ⟨one, List.forall_mem_nil _, ?_, fun _ => .inl rfl⟩
      rintro tree ⟨⟩

theorem keeps_assignedBody : Keeps Assigned.Sound assignedBody := by
  refine .after fun _ => .ite ?_ (keeps_assignedFrom (keeps_expression _))
  exact .bind keeps_yieldExpression fun _ sound => .pure sound

theorem keeps_nameStatement {name : String} (named : name ≠ "") :
    Keeps Statement.Sound (nameStatement name) := by
  refine .bind (keeps_assignedFrom ?_) fun read sound => .pure sound.statement
  intro calls trust lexeme value stop read
  exact trust.sound (.afterName _ _ name) lexeme value stop read named

theorem keeps_kind (kind : String) : Keeps Statement.Sound (Pure.pure (.other kind)) :=
  .pure (.leaf rfl trivial)

theorem keeps_importFrom : Keeps Statement.Sound importFrom := by
  refine .after fun _ => .after fun _ => .ite ?_ ?_
  · exact .after fun _ => .after fun _ => .after fun _ => keeps_kind "ImportFrom"
  · refine .after fun _ => .after fun _ => .after fun _ => .ite ?_ ?_
    · exact .after fun _ => .pure (.leaf rfl trivial)
    · exact .after fun _ => .pure (.leaf rfl trivial)

theorem keeps_returnStatement : Keeps Statement.Sound returnStatement := by
  refine .after fun leading => .orElse ?_ (.pure (.leaf rfl trivial))
  exact .bind keeps_expressions fun tree sound => .pure (Statement.sound_returns.mpr (by rintro _ ⟨⟩; exact sound))

theorem keeps_complete {statement : Parser Statement} (one : Keeps Statement.Sound statement) :
    Keeps Statement.Sound (complete statement) :=
  .bind one fun _ sound => .after fun _ => .ite (.pure sound) .fail

theorem keeps_raiseStatement : Keeps Statement.Sound raiseStatement := by
  refine .after fun _ => .after fun _ => .ite ?_ (keeps_kind "Raise")
  exact .after fun _ => .after fun _ => keeps_kind "Raise"

theorem keeps_execStatement : Keeps Statement.Sound execStatement := by
  have last : Keeps Statement.Sound (do
      if ← atWord "in" then
        Parser.advance .operand
        expressionsExactly .lineEnd
      return .other "exec_statement") := by
    refine .after fun _ => .ite ?_ (keeps_kind "exec_statement")
    exact .after fun _ => .after fun _ => keeps_kind "exec_statement"
  refine .after fun token => ?_
  split
  · exact .after fun _ => last
  · exact .after fun _ => last

theorem keeps_simpleStatement : Keeps Statement.Sound simpleStatement := by
  refine .after fun token => ?_
  split
  · exact .after fun _ => .after fun _ => .pure (.leaf rfl trivial)
  · exact keeps_importFrom
  · exact .after fun _ => .after fun _ => keeps_kind "Assert"
  · exact .after fun _ => keeps_returnStatement
  · exact .after fun _ => .after fun _ => keeps_kind "Delete"
  · exact .after fun _ => keeps_raiseStatement
  · exact .after fun _ => keeps_kind "Pass"
  · exact .after fun _ => keeps_kind "Break"
  · exact .after fun _ => keeps_kind "Continue"
  · exact .after fun _ => .after fun _ => keeps_kind "Global"
  · exact .after fun _ => .after fun _ => keeps_kind "Nonlocal"
  · refine .after fun _ => .after fun _ => .ite ?_ ?_
    · exact .after fun _ => .after fun _ => .after fun _ => keeps_kind "print_statement"
    · exact .orElse (keeps_complete (keeps_nameStatement (by decide)))
        (.after fun _ => keeps_kind "print_statement")
  · refine .after fun _ => .orElse ?_ keeps_execStatement
    exact keeps_complete (keeps_nameStatement (by decide))
  · refine .after fun _ => .orElse (keeps_complete ?_) (keeps_nameStatement (by decide))
    exact .after fun _ => .after fun _ => .after fun _ => keeps_kind "type_alias_statement"
  · have right : Keeps Assigned.Sound assigned := .call .assigned
    exact .bind right fun read sound => .pure sound.statement

/-- Statements that are all sound. -/
abbrev Sounds (statements : List Statement) : Prop := ∀ statement ∈ statements, statement.Sound

theorem keeps_simpleLine {head : Parser Statement} (starts : Keeps Statement.Sound head) :
    Keeps Sounds (simpleLine head) := by
  refine .bind starts fun statement one => .loop Sounds ?_ (List.forall_mem_singleton.mpr one)
  intro read before
  refine .after fun gap => .after fun token => ?_
  have spaced := List.forall_mem_append.mpr ⟨before, sound_triviaStatements gap⟩
  refine .ite (.pure spaced) (.after fun _ => .after fun gap' => .after fun _ => ?_)
  have apart := List.forall_mem_append.mpr ⟨spaced, sound_triviaStatements gap'⟩
  refine .ite (.pure apart) (.bind keeps_simpleStatement fun next other => .pure ?_)
  exact List.forall_mem_append.mpr ⟨apart, List.forall_mem_singleton.mpr other⟩

theorem keeps_lineStatement {head : Parser Statement} (starts : Keeps Statement.Sound head) :
    Keeps Sounds (lineStatement head) :=
  .bind (keeps_simpleLine starts) fun _ all => .after fun _ => .pure all

theorem keeps_single {statement : Parser Statement} (one : Keeps Statement.Sound statement) :
    Keeps Sounds (single statement) :=
  .bind one fun _ sound => .pure (List.forall_mem_singleton.mpr sound)

/-! ### Compound statements -/

theorem keeps_suite : Keeps Sounds suite := .call .suite

theorem keeps_elseClause : Keeps Sounds elseClause :=
  .after fun _ => .ite (.after fun _ => keeps_suite) (.pure (List.forall_mem_nil _))

theorem sound_alternativesOf {branches : List (Tree × List Statement)} {last : Alternative}
    (each : ∀ branch ∈ branches, branch.1.Sound ∧ Sounds branch.2) (ends : last.Sound) :
    (alternativesOf branches last).Sound := by
  induction branches with
  | nil => exact ends
  | cons branch rest ih =>
      obtain ⟨⟨test, body⟩, others⟩ := List.forall_mem_cons.mp each
      exact Alternative.sound_elseIf.mpr ⟨test, body, ih others⟩

theorem keeps_alternativesFrom {branches : List (Tree × List Statement)}
    (before : ∀ branch ∈ branches, branch.1.Sound ∧ Sounds branch.2) :
    Keeps Alternative.Sound (alternativesFrom branches) := by
  refine .loop (fun branches => ∀ branch ∈ branches, branch.1.Sound ∧ Sounds branch.2) ?_ before
  intro branches before
  refine .after fun _ => .ite ?_ (.after fun _ => .ite ?_ ?_)
  · refine .after fun _ => .bind (keeps_expression _) fun test condition => ?_
    refine .bind keeps_suite fun statements inside => .pure (List.forall_mem_append.mpr ⟨before, ?_⟩)
    exact List.forall_mem_singleton.mpr ⟨condition, inside⟩
  · exact .after fun _ => .bind keeps_suite fun statements inside =>
      .pure (sound_alternativesOf before (Alternative.sound_otherwise.mpr inside))
  · exact .pure (sound_alternativesOf before (List.forall_mem_nil _))

theorem keeps_ifStatement : Keeps Statement.Sound ifStatement := by
  refine .after fun _ => .bind (keeps_expression _) fun test condition => ?_
  refine .bind keeps_suite fun body inside => ?_
  exact .bind (keeps_alternativesFrom (List.forall_mem_nil _)) fun _ otherwise =>
    .pure (Statement.sound_ifElse.mpr ⟨⟨condition, inside⟩, otherwise⟩)

theorem keeps_whileStatement : Keeps Statement.Sound whileStatement := by
  refine .after fun _ => .bind (keeps_expression _) fun test condition => ?_
  refine .bind keeps_suite fun body inside => .bind keeps_elseClause fun orelse otherwise => ?_
  exact .pure (Statement.sound_whileLoop.mpr ⟨⟨condition, inside⟩, otherwise⟩)

theorem keeps_forStatement (isAsync : Bool) : Keeps Statement.Sound (forStatement isAsync) := by
  refine .after fun _ => .bind keeps_targets fun target one => .after fun _ => ?_
  refine .bind keeps_expressions fun iter other => .bind keeps_suite fun body inside => ?_
  exact .bind keeps_elseClause fun orelse otherwise =>
    .pure (Statement.sound_forEach.mpr ⟨⟨⟨one, other⟩, inside⟩, otherwise⟩)

theorem keeps_withStatement : Keeps Statement.Sound withStatement :=
  .after fun _ => .after fun _ => .after fun _ => keeps_kind "With"

theorem keeps_tryStatement : Keeps Statement.Sound tryStatement := by
  refine .after fun _ => .after fun _ => .after fun _ => .after fun _ => .after fun _ => ?_
  exact .ite (.after fun _ => .after fun _ => keeps_kind "Try") (keeps_kind "Try")

/-- What a header makes of a sound body is sound. -/
abbrev Heads (define : List Statement → Definition) : Prop :=
  ∀ body, Sounds body → (define body).Sound

theorem keeps_functionHeader (isAsync : Bool) : Keeps Heads (functionHeader isAsync) := by
  refine .after fun _ => .bind keeps_identifier fun name named => .after fun _ => ?_
  have last : Keeps Heads (do
      let read ← parameters .operand
      if ← atSymbol "->" then
        Parser.advance .operand
        typeHint false .operand
      return Definition.function isAsync name read) := by
    refine .bind keeps_parameters fun read all => .after fun _ => ?_
    have heads : Heads (Definition.function isAsync name read) := fun _ inside =>
      Definition.sound_function.mpr ⟨named, all, inside⟩
    exact .ite (.after fun _ => .after fun _ => .pure heads) (.pure heads)
  exact .ite (.after fun _ => last) last

theorem keeps_classHeader : Keeps Heads classHeader := by
  have heads (name : String) : Heads fun _ => Definition.klass name := by
    intro body _
    exact ⟨List.forall_mem_nil _, fun _ => trivial⟩
  refine .after fun _ => .after fun name => .after fun _ => ?_
  have last : Keeps Heads (do
      if ← atSymbol "(" then
        Parser.advance .closing
        let _ ← argumentList
        Parser.advance .operand
      return fun _ => Definition.klass name) := by
    refine .after fun _ => .ite ?_ (.pure (heads name))
    exact .after fun _ => .after fun _ => .after fun _ => .pure (heads name)
  exact .ite (.after fun _ => last) last

theorem keeps_asyncHeader : Keeps Heads asyncHeader := .after fun _ => keeps_functionHeader true

theorem keeps_decoratedHeader : Keeps Heads decoratedHeader := by
  refine .after fun _ => .after fun _ => .ite (keeps_functionHeader false) ?_
  refine .after fun _ => .ite keeps_classHeader ?_
  exact .after fun _ => keeps_functionHeader true

theorem keeps_definitionStatement {header : Parser (List Statement → Definition)}
    (heads : Keeps Heads header) : Keeps Sounds (definitionStatement header) := by
  intro calls trust lexeme read stop ran
  obtain ⟨text, defined, rfl⟩ := run_definitionStatement ran
  obtain ⟨define, colon, body, front, inside, -, rfl⟩ := run_definition_iff.mp ran
  have header := heads calls trust _ define colon front
  have sound := trust.sound .suite colon body stop inside
  exact List.forall_mem_singleton.mpr (Statement.sound_definition.mpr (header body sound))

theorem keeps_matchLine : Keeps Sounds matchLine := by
  refine .after fun _ => .orElse (keeps_single ?_) ?_
  · exact .after fun _ => .after fun _ => keeps_kind "Match"
  · exact keeps_lineStatement (keeps_nameStatement (by decide))

theorem keeps_asyncStatement : Keeps Sounds asyncStatement := by
  refine .orElse (keeps_definitionStatement keeps_asyncHeader) ?_
  refine .after fun _ => .after fun _ => .ite (keeps_single (keeps_forStatement true)) ?_
  refine .after fun _ => .ite (keeps_single keeps_withStatement) ?_
  exact keeps_lineStatement (keeps_nameStatement (by decide))

theorem keeps_statement : Keeps Sounds statement := by
  refine .after fun token => ?_
  split
  · exact keeps_single keeps_ifStatement
  · exact keeps_single keeps_whileStatement
  · exact keeps_single (keeps_forStatement false)
  · exact keeps_single keeps_tryStatement
  · exact keeps_single keeps_withStatement
  · exact keeps_definitionStatement (keeps_functionHeader false)
  · exact keeps_definitionStatement keeps_classHeader
  · exact keeps_asyncStatement
  · exact keeps_definitionStatement keeps_decoratedHeader
  · exact keeps_matchLine
  · exact keeps_lineStatement keeps_simpleStatement

theorem keeps_statements (leading : Bool) : Keeps Sounds (statements leading) := by
  refine .loop (fun state => Sounds state.1) ?_ (List.forall_mem_nil _)
  rintro ⟨read, counts⟩ before
  refine .after fun gap => .after fun token => ?_
  have spaced : Sounds (if counts then read ++ triviaStatements gap else read) := by
    split
    · exact List.forall_mem_append.mpr ⟨before, sound_triviaStatements gap⟩
    · exact before
  refine .ite (.pure spaced) (.bind keeps_statement fun more others => .pure ?_)
  exact List.forall_mem_append.mpr ⟨spaced, others⟩

theorem keeps_suiteBody : Keeps Sounds suiteBody :=
  .body (keeps_simpleLine keeps_simpleStatement) (List.forall_mem_nil _) (keeps_statements false)

end Grammar

/-! ### Rules and texts -/

namespace Rule

variable {calls : (rule : Rule) → Lexeme → Outcome rule.Result}

theorem sound_use (trust : Trusted calls) (rule : Rule) {lexeme stop : Lexeme}
    {value : rule.Result} (ran : rule.use calls lexeme = ⟨some value, stop⟩) :
    rule.Sound value := by
  cases rule with
  | expression rank expect => exact Grammar.keeps_expressionBody rank calls trust _ _ _ ran
  | afterName rank expect name =>
      intro named
      exact Grammar.keeps_afterNameBody rank named calls trust _ _ _ ran
  | atom expect => exact Grammar.keeps_atomBody calls trust _ _ _ ran
  | iterable => exact Grammar.keeps_iterableBody calls trust _ _ _ ran
  | assigned => exact Grammar.keeps_assignedBody calls trust _ _ _ ran
  | suite => exact Grammar.keeps_suiteBody calls trust _ _ _ ran
  | _ => trivial

theorem passes_use (trust : Trusted calls) (rule : Rule) {lexeme stop : Lexeme}
    {value : rule.Result} (ran : rule.use calls lexeme = ⟨some value, stop⟩) :
    rule.Passes lexeme stop := by
  cases rule with
  | expression rank expect =>
      intro opens
      exact Grammar.passes_expressionBody trust opens ran
  | atom expect =>
      intro opens
      exact Grammar.passes_atomBody trust opens ran
  | _ => trivial

/-- The rules keep what they promise. -/
theorem keeps_read (rule : Rule) (lexeme : Lexeme) :
    ∀ value stop, rule.read lexeme = ⟨some value, stop⟩ →
      rule.Sound value ∧ rule.Passes lexeme stop := by
  induction rule, lexeme using Rule.read.induct with
  | case1 rule lexeme ih =>
      intro value stop ran
      have inside (other : Rule) (place : Lexeme) (value : other.Result) (stop : Lexeme)
          (ran : rule.inner lexeme other place = ⟨some value, stop⟩) :
          other.Sound value ∧ other.Passes place stop := by
        unfold inner at ran
        split at ran
        next inside => exact ih other place inside value stop ran
        · cases ran
      have trust : Trusted (rule.inner lexeme) :=
        ⟨reads_inner rule lexeme, fun other place value stop ran => (inside other place value stop ran).1,
          fun other place value stop ran => (inside other place value stop ran).2⟩
      rw [read_eq] at ran
      exact ⟨sound_use trust rule ran, passes_use trust rule ran⟩

theorem trusted_read : Trusted Rule.read :=
  ⟨reads_read, fun rule lexeme value stop ran => (keeps_read rule lexeme value stop ran).1,
    fun rule lexeme value stop ran => (keeps_read rule lexeme value stop ran).2⟩

end Rule

/-- Every statement of a text that is parsed is sound. -/
theorem sound_of_parse? {source : String} {statements : List Statement}
    (parsed : parse? source = some statements) : ∀ statement ∈ statements, statement.Sound := by
  unfold parse? at parsed
  dsimp only at parsed
  split at parsed
  · exact Grammar.keeps_statements true Rule.read Rule.trusted_read _ _ _
      (congrArg (Outcome.mk · _) parsed)
  · cases parsed

end Respell.Source
