import Respell.Proofs.Cut.Strings
import Respell.Proofs.Statements

/-!
Definitions on their own. The text of a definition of a module is a text in its own right, and it is
read as that definition and nothing else: a run over the module matches a run over the text up to the
end of the body, and there the text of the definition ends.
-/

set_option autoImplicit false

namespace Respell.Source

/-! ### Rules -/

namespace Rule

variable {tail : List Char} {calls calls' : (rule : Rule) → Lexeme → Outcome rule.Result}

theorem reads_use (reads : ∀ rule (lexeme : Lexeme), (calls rule lexeme).Reads lexeme) (rule : Rule)
    (lexeme : Lexeme) : (rule.use calls lexeme).Reads lexeme := by
  cases rule
  case literal expect => exact reads_literalBody (reads .interpolated) expect lexeme
  all_goals exact Parser.reads_run reads _ lexeme

/-- How rules are used inside the use of a rule at a lexeme. -/
def inner (outer : Rule) (start : Lexeme) (rule : Rule) (place : Lexeme) : Outcome rule.Result :=
  if rule.Inside place outer start then rule.read place else ⟨none, place⟩

theorem read_eq (rule : Rule) (lexeme : Lexeme) :
    rule.read lexeme = rule.use (rule.inner lexeme) lexeme := by
  rw [Rule.read]
  rfl

theorem reads_read (rule : Rule) (lexeme : Lexeme) : (rule.read lexeme).Reads lexeme := by
  induction rule, lexeme using Rule.read.induct with
  | case1 rule lexeme ih =>
      rw [read_eq]
      refine reads_use ?_ rule lexeme
      intro other place
      unfold inner
      split
      next inside => exact ih other place inside
      · exact .refl none place

theorem reads_inner (outer : Rule) (start : Lexeme) (rule : Rule) (place : Lexeme) :
    (outer.inner start rule place).Reads place := by
  unfold inner
  split
  · exact reads_read rule place
  · exact .refl none place

theorem matches_use (atCut : atBreak tail = true) (more : tail ≠ [])
    (reads : ∀ rule (lexeme : Lexeme), (calls rule lexeme).Reads lexeme)
    (same : ∀ rule (full cut : Lexeme), full.Extends tail cut →
      (calls rule full).Matches tail (calls' rule cut))
    (rule : Rule) {full cut : Lexeme} (start : full.Extends tail cut) :
    (rule.use calls full).Matches tail (rule.use calls' cut) := by
  cases rule
  case literal expect =>
    exact matches_literalBody atCut more (reads .interpolated) (same .interpolated) expect start
  all_goals exact Parser.matches_run atCut more reads same _ start

theorem matches_inner_of {outer : Rule} {start start' : Lexeme} (starts : start.Extends tail start')
    {rule : Rule} {place place' : Lexeme} (places : place.Extends tail place')
    (same : rule.Inside place outer start → (rule.read place).Matches tail (rule.read place')) :
    (outer.inner start rule place).Matches tail (outer.inner start' rule place') := by
  have both : rule.Inside place outer start ↔ rule.Inside place' outer start' := by
    rw [Inside, Inside, places.length_start, starts.length_start]
    omega
  unfold inner
  by_cases inside : rule.Inside place outer start
  · rw [if_pos inside, if_pos (both.mp inside)]
    exact same inside
  · rw [if_neg inside, if_neg (inside ∘ both.mpr)]
    exact .inr ⟨rfl, places⟩

/-- A rule is used in a longer text as in the cut text, or the use ends lost. -/
theorem matches_read (atCut : atBreak tail = true) (more : tail ≠ []) (rule : Rule)
    {full cut : Lexeme} (start : full.Extends tail cut) :
    (rule.read full).Matches tail (rule.read cut) := by
  induction rule, full using Rule.read.induct generalizing cut with
  | case1 rule full ih =>
      rw [read_eq rule full, read_eq rule cut]
      refine matches_use atCut more (reads_inner rule full) ?_ rule start
      intro other place place' places
      exact matches_inner_of start places fun inside => ih other place inside places

end Rule

/-! ### Where a definition starts -/

namespace Grammar

/-- Characters that definitions start with. -/
def leadChars : List Char := ['d', 'c', 'a', '@']

theorem head?_of_word {text : List Char} {word : String} (found : (token text).1 = .word word) :
    text.head? = word.toList.head? := by
  unfold token at found
  split at found
  · cases found
  next c rest =>
    split at found
    · rw [← Token.word.inj found]
      simp
    · repeat' split at found
      all_goals cases found

theorem head?_of_symbol {text : List Char} {symbol : String}
    (found : (token text).1 = .symbol symbol) : text.head? = symbol.toList.head? := by
  unfold token at found
  split at found
  · cases found
  next c rest =>
    split at found
    · cases found
    split at found
    · cases found
    split at found
    next s starts =>
      obtain rfl := Token.symbol.inj found
      have positive := symbols_ne_empty s (List.mem_of_find?_eq_some starts)
      have holds := List.find?_some starts
      obtain ⟨more, same⟩ := List.isPrefixOf_iff_prefix.mp holds
      cases chars : s.toList with
      | nil => simp [chars] at positive
      | cons d ds =>
          rw [chars] at same
          rw [← same]
          rfl
    · split at found <;> cases found

theorem Leads.head? {text : List Char} {header : Parser (List Statement → Definition)}
    (leads : Leads (token text).1 header) : ∃ c ∈ leadChars, text.head? = some c := by
  generalize found : (token text).1 = first at leads
  cases leads with
  | function => exact ⟨'d', by decide, head?_of_word found⟩
  | klass => exact ⟨'c', by decide, head?_of_word found⟩
  | coroutine => exact ⟨'a', by decide, head?_of_word found⟩
  | decorated => exact ⟨'@', by decide, head?_of_symbol found⟩

/-- A text that starts as definitions do starts with an ordinary token. -/
theorem next_of_ordinary {c : Char} {rest : List Char}
    (marked : (Input.mk (c :: rest) [] false).mark Expect.operand.valid = .nothing)
    (written : isBlank c = false) (plain : trivia? (c :: rest) = none) :
    (Input.mk (c :: rest) [] false).next .operand =
      .ordinary (c :: rest) [] ⟨c :: rest, [], false⟩ (c :: rest) List.suffix_rfl := by
  have blanks : (c :: rest).dropWhile isBlank = c :: rest := by
    rw [List.dropWhile_cons, written]
    rfl
  have noTrivia : trivia? ((c :: rest).dropWhile isBlank) = none := by
    rw [blanks, plain]
  rw [Input.next, Input.nextOf, nextLexeme_ordinary marked noTrivia]
  congr 1

theorem next_of_lead {text : List Char} {c : Char} (lead : c ∈ leadChars)
    (starts : text.head? = some c) :
    (Input.mk text [] false).next .operand =
      .ordinary text [] ⟨text, [], false⟩ text List.suffix_rfl := by
  obtain ⟨rest, rfl⟩ : ∃ rest, text = c :: rest := by
    cases text with
    | nil => cases starts
    | cons d rest => exact ⟨rest, by rw [Option.some.inj starts]⟩
  have chars : c = 'd' ∨ c = 'c' ∨ c = 'a' ∨ c = '@' := by simpa [leadChars] using lead
  rcases chars with rfl | rfl | rfl | rfl <;> exact next_of_ordinary rfl rfl rfl

theorem next_of_nothing (inFormat : Bool) :
    (Input.mk [] [] inFormat).next .boundary =
      .ordinary [] [] ⟨[], [], inFormat⟩ [] List.suffix_rfl := by
  have marked : (Input.mk [] [] inFormat).mark Expect.boundary.valid = .nothing := rfl
  have noTrivia : trivia? (([] : List Char).dropWhile isBlank) = none := rfl
  rw [Input.next, Input.nextOf, nextLexeme_ordinary marked noTrivia]
  rfl

/-- The first lexeme of a definition, in its module and in its own text. -/
theorem Leads.extends {tail text : List Char} {lexeme : Lexeme}
    {header : Parser (List Statement → Definition)} (leads : Leads lexeme.token header)
    (atCut : atBreak tail = true) (nonempty : text ≠ []) (starts : lexeme.start = text ++ tail)
    (level : lexeme.after.indents = []) (plain : lexeme.Plain) :
    lexeme.bare.Extends tail ((Input.mk text [] false).next .operand) ∧
      Leads (token text).1 header ∧
      ((Input.mk text [] false).next .operand).bare = (Input.mk text [] false).next .operand := by
  have ordinary : lexeme.token.isOrdinary = true ∧ lexeme.token ≠ .symbol "*" := by
    generalize lexeme.token = first at leads
    cases leads <;> exact ⟨rfl, by decide⟩
  obtain ⟨spelled, rest⟩ := lexeme.spelled ordinary.1 ordinary.2
  rw [starts, token_append atCut nonempty] at spelled rest
  have leads' : Leads (token text).1 header := spelled ▸ leads
  obtain ⟨c, lead, first⟩ := leads'.head?
  rw [next_of_lead lead first]
  refine ⟨⟨starts, rfl, starts, spelled.symm, ?_, ?_⟩, leads', rfl⟩
  · have closed : lexeme.after.inFormat = false := by
      refine plain ?_
      intro quote isQuote
      simp [isQuote, Token.isOrdinary] at ordinary
    change lexeme.after = ⟨text.drop (token text).2 ++ tail, [], false⟩
    rw [← List.drop_append_of_le_length (token_le text), ← rest, ← level, ← closed]
  · intro stops
    change lexeme.token = .stop at stops
    simp [stops, Token.isOrdinary] at ordinary

theorem run_definition_iff {calls : (rule : Rule) → Lexeme → Outcome rule.Result}
    {lexeme stop : Lexeme} {header : Parser (List Statement → Definition)} {text : String}
    {defined : Definition} :
    (definitionStatement header).run calls lexeme = ⟨some [.definition text defined], stop⟩ ↔
      ∃ define colon statements, header.run calls lexeme.bare = ⟨some define, colon⟩ ∧
        calls .suite colon = ⟨some statements, stop⟩ ∧ lexeme.textTo stop.before = text ∧
        define statements = defined := by
  unfold definitionStatement
  constructor
  · intro ran
    obtain ⟨⟨text', defined'⟩, place, written, last⟩ := Parser.run_bind_iff.mp ran
    obtain ⟨same, rfl⟩ := Parser.run_pure_iff.mp last
    obtain ⟨rfl, rfl⟩ : text' = text ∧ defined' = defined := by simpa using same
    obtain ⟨inner, spelled⟩ := Parser.run_written_iff.mp written
    obtain ⟨define, colon, front, back⟩ := Parser.run_bind_iff.mp inner
    obtain ⟨statements, stop, body, ends⟩ := Parser.run_bind_iff.mp back
    obtain ⟨value, rfl⟩ := Parser.run_pure_iff.mp ends
    exact ⟨define, colon, statements, front, body, spelled, value⟩
  · rintro ⟨define, colon, statements, front, body, rfl, rfl⟩
    refine Parser.run_bind_iff.mpr ⟨(lexeme.textTo stop.before, define statements), stop,
      Parser.run_written_iff.mpr ⟨?_, rfl⟩, rfl⟩
    exact Parser.run_bind_iff.mpr ⟨define, colon, front,
      Parser.run_bind_iff.mpr ⟨statements, stop, body, rfl⟩⟩

/-- The reading of a body after its colon, before its end is passed. -/
def suiteInside (colon : Lexeme) : Outcome (List Statement) :=
  Parser.runBody (Rule.inner .suite colon) (simpleLine simpleStatement) [] (statements false)
    colon.enter.1 colon.enter.2

theorem read_suite_iff {colon stop : Lexeme} {body : List Statement} :
    Rule.read .suite colon = ⟨some body, stop⟩ ↔
      colon.isSymbol ":" = true ∧ ∃ last, suiteInside colon = ⟨some body, last⟩ ∧
        last.token = colon.enter.1.ending ∧ last.leave colon = stop := by
  rw [Rule.read_eq]
  change (Parser.body _ _ _).run _ colon = _ ↔ _
  by_cases isColon : colon.isSymbol ":" = true
  · rw [Parser.run_body isColon, and_iff_right isColon]
    change (suiteInside colon).close _ _ = _ ↔ _
    generalize suiteInside colon = read
    obtain ⟨value, last⟩ := read
    cases value with
    | none => simp [Outcome.close]
    | some value =>
        by_cases ends : last.token = colon.enter.1.ending
        · simp only [Outcome.close, if_pos ends, Outcome.mk.injEq]
          constructor
          · rintro ⟨same, rfl⟩
            exact ⟨last, ⟨same, rfl⟩, ends, rfl⟩
          · rintro ⟨other, ⟨same, rfl⟩, -, rfl⟩
            exact ⟨same, rfl⟩
        · simp only [Outcome.close, if_neg ends, Outcome.mk.injEq]
          constructor
          · rintro ⟨none, -⟩
            cases none
          · rintro ⟨other, ⟨-, rfl⟩, same, -⟩
            exact absurd same ends
  · rw [Parser.run, if_neg isColon]
    simp [isColon]

theorem reads_suiteInside (colon : Lexeme) : (suiteInside colon).Reads colon.enter.2 :=
  Parser.reads_runBody [] (Parser.reads_run (Rule.reads_inner .suite colon) _)
    (Parser.reads_run (Rule.reads_inner .suite colon) _) _ _

theorem matches_suiteInside {tail : List Char} (atCut : atBreak tail = true) (more : tail ≠ [])
    {full cut : Lexeme} (start : full.Extends tail cut) (opening : full.enter.1 = cut.enter.1)
    (first : full.enter.2.Extends tail cut.enter.2) :
    (suiteInside full).Matches tail (suiteInside cut) := by
  have inner (rule : Rule) (place place' : Lexeme) (places : place.Extends tail place') :
      (Rule.inner .suite full rule place).Matches tail (Rule.inner .suite cut rule place') :=
    Rule.matches_inner_of start places fun _ => Rule.matches_read atCut more rule places
  unfold suiteInside
  rw [← opening]
  exact Parser.matches_runBody
    (Parser.matches_run atCut more (Rule.reads_inner .suite full) inner _)
    (Parser.matches_run atCut more (Rule.reads_inner .suite full) inner _) _ first

theorem textTo_eq {lexeme : Lexeme} {text tail : List Char} (starts : lexeme.start = text ++ tail) :
    lexeme.textTo tail = String.ofList text := by
  have length : lexeme.start.length - tail.length = text.length := by
    rw [starts, List.length_append, Nat.add_sub_cancel]
  rw [Lexeme.textTo, length, starts, List.take_left]

theorem ending_border (opening : Opening) :
    opening.ending = .newline ∨ opening.ending = .dedent := by
  cases opening <;> simp [Opening.ending]

/-- A definition read up to its body and its body, in the text of the definition alone. -/
theorem isolated_parts {tail : List Char} (atCut : atBreak tail = true)
    {header : Parser (List Statement → Definition)} {lexeme alone colon last : Lexeme}
    (start : lexeme.Extends tail alone) {define : List Statement → Definition}
    {body : List Statement} (front : header.run Rule.read lexeme = ⟨some define, colon⟩)
    (isColon : colon.isSymbol ":" = true)
    (inside : suiteInside colon = ⟨some body, last⟩) (ends : last.token = colon.enter.1.ending)
    (cut : last.start = tail) :
    ∃ colon' last', header.run Rule.read alone = ⟨some define, colon'⟩ ∧
      colon.Extends tail colon' ∧ suiteInside colon' = ⟨some body, last'⟩ ∧
      last'.token = colon'.enter.1.ending ∧ last.Extends tail last' := by
  have known : colon.token ≠ .unknown ∧ colon.token ≠ .stop := by
    have token : colon.token = .symbol ":" := by simpa [Lexeme.isSymbol] using isColon
    simp [token]
  have border : last.token = .newline ∨ last.token = .dedent := ends ▸ ending_border _
  by_cases more : tail = []
  · subst more
    obtain rfl := start.eq_of_nil
    refine ⟨colon, last, front, .nil known.2, inside, ends, .nil ?_⟩
    rcases border with token | token <;> simp [token]
  have found : ¬last.Lost tail := by
    rintro (short | unknown)
    · rw [cut] at short
      exact Nat.lt_irrefl _ short
    · rcases border with token | token <;> simp [token] at unknown
  have body : colon.enter.2.Onward last := by
    have reads := reads_suiteInside colon
    rw [inside] at reads
    exact reads.onward
  have read := Parser.matches_run atCut more Rule.reads_read
    (fun rule full cut => Rule.matches_read atCut more rule) header start
  rw [front] at read
  rcases read with lost | ⟨value, colons⟩
  · exact absurd (Lexeme.Lost.onward lost ((Lexeme.onward_enter known.1).trans body)) found
  generalize header.run Rule.read alone = outcome at value colons
  obtain ⟨read, colon'⟩ := outcome
  obtain rfl : some define = read := value
  rcases colons.enter atCut more with lost | ⟨opening, first⟩
  · exact absurd (lost.onward body) found
  have bodies := matches_suiteInside atCut more colons opening first
  rw [inside] at bodies
  rcases bodies with lost | ⟨value, lasts⟩
  · exact absurd lost found
  generalize read : suiteInside colon' = outcome at value lasts
  obtain ⟨body', last'⟩ := outcome
  obtain rfl := value
  exact ⟨colon', last', rfl, colons, read, opening ▸ lasts.token.symm.trans ends, lasts⟩

/-- A definition of a module is read from its own text too, up to the end of that text. -/
theorem isolate {lexeme stop : Lexeme} {header : Parser (List Statement → Definition)}
    {text : String} {defined : Definition} (leads : Leads lexeme.token header)
    (level : lexeme.after.indents = []) (plain : lexeme.Plain)
    (ran : (definitionStatement header).run Rule.read lexeme =
      ⟨some [.definition text defined], stop⟩) :
    Leads (token text.toList).1 header ∧ ∃ inFormat, (definitionStatement header).run Rule.read
        ((Input.mk text.toList [] false).next .operand) =
      ⟨some [.definition text defined], (Input.mk [] [] inFormat).next .boundary⟩ := by
  obtain ⟨define, colon, body, front, suite, spelled, made⟩ := run_definition_iff.mp ran
  obtain ⟨isColon, last, inside, ends, left⟩ := read_suite_iff.mp suite
  have symbol : colon.token = .symbol ":" := by simpa [Lexeme.isSymbol] using isColon
  -- The body ends at a break, which is where the text of the definition ends.
  have border : last.token = .newline ∨ last.token = .dedent := ends ▸ ending_border _
  obtain ⟨atCut, rest⟩ := last.breaks border
  have before : stop.before = last.start := by
    rw [← left, ← rest]
    exact before_nextLexeme
  -- What follows that end is a proper part of what follows the start.
  have reads := Parser.reads_run Rule.reads_read header lexeme.bare
  rw [front] at reads
  have within : last.start <:+ colon.after.rest := by
    have body := reads_suiteInside colon
    rw [inside] at body
    exact body.onward.start.trans colon.start_enter
  have passes := colon.passes (by rw [symbol]; rfl)
  obtain ⟨text', starts⟩ : last.start <:+ lexeme.start :=
    within.trans (colon.after_suffix.trans reads.onward.start)
  have nonempty : text' ≠ [] := by
    rintro rfl
    have short := within.length_le
    have long := reads.onward.start.length_le
    change colon.start.length ≤ lexeme.start.length at long
    have same := congrArg List.length starts
    rw [List.nil_append] at same
    omega
  rw [before, textTo_eq starts.symm] at spelled
  have chars : text.toList = text' := by rw [← spelled, String.toList_ofList]
  rw [chars]
  obtain ⟨start, leads', bare⟩ := leads.extends atCut nonempty starts.symm level plain
  refine ⟨leads', ?_⟩
  obtain ⟨colon', last', front', colons, inside', ends', lasts⟩ :=
    isolated_parts atCut start front isColon inside ends rfl
  have indents : colon'.after.indents = [] := by
    have around : colon.after.indents = lexeme.bare.after.indents := (reads.level define rfl).indents
    rw [colons.after] at around
    exact around.trans level
  have nothing : last'.after.rest = [] := by
    have after := congrArg Input.rest lasts.after
    rw [rest] at after
    exact List.append_left_eq_self.mp after.symm
  have left' : last'.leave colon' = (Input.mk [] [] last'.after.inFormat).next .boundary := by
    rw [← nothing, ← indents]
    rfl
  refine ⟨last'.after.inFormat, run_definition_iff.mpr ⟨define, colon', body, ?_, ?_, ?_, made⟩⟩
  · rw [bare]
    exact front'
  · exact read_suite_iff.mpr ⟨colons.isSymbol ":" ▸ isColon, last', inside', ends', left'⟩
  · rw [next_of_nothing, ← spelled]
    refine textTo_eq ?_
    have begins : lexeme.start = _ := start.start
    rw [← starts] at begins
    exact (List.append_cancel_right begins).symm.trans (List.append_nil text').symm

/-! ### Modules -/

/-- One step of reading the statements of a module. -/
def statementsStep (state : List Statement × Bool) (lexeme : Lexeme) :
    Outcome (Turn (List Statement × Bool) (List Statement)) :=
  let read := if state.2 then state.1 ++ triviaStatements lexeme.gap else state.1
  if lexeme.token == .dedent || lexeme.token == .stop then ⟨some (.done read), lexeme⟩
  else
    match statement.run Rule.read lexeme with
    | ⟨some more, rest⟩ => ⟨some (.again (read ++ more, true)), rest⟩
    | ⟨none, stuck⟩ => ⟨none, stuck⟩

theorem run_statements (leading : Bool) (lexeme : Lexeme) :
    (statements leading).run Rule.read lexeme =
      Parser.iterate statementsStep ([], leading) lexeme := by
  unfold statements
  rw [Parser.run]
  congr 1
  funext state place
  obtain ⟨read, counts⟩ := state
  unfold statementsStep
  change Parser.run Rule.read (if place.token == .dedent || place.token == .stop then _ else _)
    place = _
  split
  · rfl
  · change Parser.run Rule.read (.bind statement _) place = _
    rw [Parser.run]
    generalize statement.run Rule.read place = outcome
    obtain ⟨value, rest⟩ := outcome
    cases value <;> rfl

theorem parse?_iff {source : String} {read : List Statement} :
    parse? source = some read ↔ ∃ last, last.token = .stop ∧
      Parser.iterate statementsStep ([], true)
        ((Input.mk (withoutOrderMark source.toList) [] false).next .operand) = ⟨some read, last⟩ := by
  unfold parse?
  dsimp only
  rw [run_statements]
  generalize Parser.iterate statementsStep ([], true) _ = outcome
  obtain ⟨value, last⟩ := outcome
  constructor
  · intro parsed
    split at parsed
    next ends => exact ⟨last, by simpa using ends, congrArg (Outcome.mk · last) parsed⟩
    · cases parsed
  · rintro ⟨other, ends, same⟩
    obtain ⟨rfl, rfl⟩ := Outcome.mk.inj same
    simp [ends]

/-- A statement that is no definition, or one that is read from its own text alone. -/
def Isolated (one : Statement) : Prop :=
  one.Undefining ∨ ∃ text defined, one = .definition text defined ∧ parse? text = some [one]

/-- A text that is a definition and nothing else is parsed as that definition. -/
theorem parse?_of_definition {text : String} {one : Statement} {inFormat : Bool}
    {header : Parser (List Statement → Definition)} (leads : Leads (token text.toList).1 header)
    (ran : (definitionStatement header).run Rule.read
        ((Input.mk text.toList [] false).next .operand) =
      ⟨some [one], (Input.mk [] [] inFormat).next .boundary⟩) : parse? text = some [one] := by
  obtain ⟨c, lead, starts⟩ := leads.head?
  have nonempty : text.toList ≠ [] := by
    intro empty
    rw [empty] at starts
    cases starts
  have unmarked : withoutOrderMark text.toList = text.toList := by
    unfold withoutOrderMark
    split
    next rest same =>
      rw [same] at starts
      rw [← Option.some.inj starts] at lead
      exact absurd lead (by decide)
    · rfl
  have alone := next_of_lead lead starts
  have statement := run_statement_of_leads (by rw [alone]; exact leads) ran
  have known : ¬(((Input.mk text.toList [] false).next .operand).token == .dedent ||
      ((Input.mk text.toList [] false).next .operand).token == .stop) = true := by
    have border := token_not_break text.toList
    have going := token_ne_stop nonempty
    rw [alone, Lexeme.ordinary]
    simp_all
  have gap : ((Input.mk text.toList [] false).next .operand).gap = [] := by rw [alone]; rfl
  have first : statementsStep ([], true) ((Input.mk text.toList [] false).next .operand) =
      ⟨some (.again ([one], true)), (Input.mk [] [] inFormat).next .boundary⟩ := by
    rw [statementsStep, if_neg known, statement, gap]
    rfl
  have second : statementsStep ([one], true) ((Input.mk [] [] inFormat).next .boundary) =
      ⟨some (.done [one]), (Input.mk [] [] inFormat).next .boundary⟩ := by
    rw [next_of_nothing]
    rfl
  have shorter : ((Input.mk [] [] inFormat).next .boundary).start.length <
      ((Input.mk text.toList [] false).next .operand).start.length := by
    rw [next_of_nothing, alone]
    exact List.length_pos_iff.mpr nonempty
  refine parse?_iff.mpr ⟨_, congrArg Lexeme.token (next_of_nothing inFormat), ?_⟩
  rw [unmarked, Parser.iterate, first]
  dsimp only
  rw [if_pos shorter, Parser.iterate, second]

/-- A definition of a module is parsed from its own text alone. -/
theorem isolated_statement {lexeme stop : Lexeme} {read : List Statement}
    (level : lexeme.after.indents = []) (plain : lexeme.Plain)
    (ran : statement.run Rule.read lexeme = ⟨some read, stop⟩) : ∀ one ∈ read, Isolated one := by
  rcases statement_cases ran with undefining | ⟨header, leads, ran⟩
  · intro one member
    exact .inl (undefining one member)
  · obtain ⟨text, defined, rfl⟩ := run_definitionStatement ran
    obtain ⟨leads', inFormat, alone⟩ := isolate leads level plain ran
    intro one member
    obtain rfl := List.mem_singleton.mp member
    exact .inr ⟨text, defined, rfl, parse?_of_definition leads' alone⟩

theorem isolated_trivia {state : List Statement × Bool} (gap : List Trivia)
    (isolated : ∀ one ∈ state.1, Isolated one) :
    ∀ one ∈ (if state.2 then state.1 ++ triviaStatements gap else state.1), Isolated one := by
  split
  · intro one member
    rcases List.mem_append.mp member with earlier | marked
    · exact isolated one earlier
    · exact .inl (undefining_trivia gap one marked)
  · exact isolated

/-- Each statement of a module is no definition, or is parsed from its own text alone. -/
theorem isolated_of_parse? {source : String} {read : List Statement}
    (parsed : parse? source = some read) : ∀ one ∈ read, Isolated one := by
  obtain ⟨last, -, ran⟩ := parse?_iff.mp parsed
  refine @Parser.iterate_induct _ _ _ _ _
    (fun state lexeme => lexeme.after.indents = [] ∧ lexeme.Plain ∧ ∀ one ∈ state.1, Isolated one)
    (fun read => ∀ one ∈ read, Isolated one)
    ?_ ?_ _ _ ⟨indents_nextLexeme rfl, plain_nextLexeme rfl, by simp⟩ ran
  · intro state place next rest ⟨level, plain, isolated⟩ step
    have trivia := isolated_trivia place.gap isolated
    unfold statementsStep at step
    generalize (if state.2 = true then _ else _) = before at trivia step
    dsimp only at step
    split at step
    · cases step
    · split at step
      next more rest' ran =>
        have reads := Parser.reads_run Rule.reads_read statement place
        rw [ran] at reads
        have next := reads.level more rfl
        cases step
        refine ⟨next.indents.trans level, next.plain plain, ?_⟩
        intro one member
        rcases List.mem_append.mp member with earlier | read
        · exact trivia one earlier
        · exact isolated_statement level plain ran one read
      · cases step
  · intro state place value rest ⟨level, plain, isolated⟩ step
    have trivia := isolated_trivia place.gap isolated
    unfold statementsStep at step
    generalize (if state.2 = true then _ else _) = before at trivia step
    dsimp only at step
    split at step
    · cases step
      exact trivia
    · split at step <;> cases step

end Grammar

end Respell.Source
