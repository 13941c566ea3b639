import Respell.Proofs.Cut.Lexeme
import Respell.Source.Parser

/-!
Runs over a text that is cut at a break. A run only goes on in its text, and where nothing can be
read it stays; so a run over the longer text that loses the cut text ends lost, and any other one
goes the same way in both.
-/

set_option autoImplicit false

namespace Respell.Source

/-! ### Runs go on -/

/-- One lexeme comes after another one, or is the same: nothing unreadable is passed. -/
structure Lexeme.Onward (lexeme stop : Lexeme) : Prop where
  /-- The token before it ends no earlier. -/
  before : stop.before <:+ lexeme.before
  /-- It starts no earlier. -/
  start : stop.start <:+ lexeme.start
  /-- What cannot be read is not passed. -/
  unknown : lexeme.token = .unknown → stop.token = .unknown

/-- Two lexemes in the same blocks. -/
structure Lexeme.Level (lexeme stop : Lexeme) : Prop where
  /-- The open blocks are the same. -/
  indents : stop.after.indents = lexeme.after.indents
  /-- No format string is left open. -/
  plain : lexeme.Plain → stop.Plain

/-- What a run from a lexeme can be: it goes on, and if it reads something it ends in the blocks that
it started in. -/
structure Outcome.Reads {α : Type} (lexeme : Lexeme) (outcome : Outcome α) : Prop where
  /-- The run goes on. -/
  onward : lexeme.Onward outcome.lexeme
  /-- A run that reads something ends in the same blocks. -/
  level : ∀ value, outcome.value = some value → lexeme.Level outcome.lexeme

namespace Lexeme

theorem Onward.refl (lexeme : Lexeme) : lexeme.Onward lexeme :=
  ⟨List.suffix_rfl, List.suffix_rfl, id⟩

theorem Onward.trans {first second third : Lexeme} (front : first.Onward second)
    (back : second.Onward third) : first.Onward third :=
  ⟨back.before.trans front.before, back.start.trans front.start, back.unknown ∘ front.unknown⟩

theorem Onward.of_bare {lexeme stop : Lexeme} (onward : lexeme.bare.Onward stop) :
    lexeme.Onward stop :=
  ⟨onward.before.trans lexeme.start_suffix, onward.start, onward.unknown⟩

theorem Level.refl (lexeme : Lexeme) : lexeme.Level lexeme := ⟨rfl, id⟩

theorem Level.trans {first second third : Lexeme} (front : first.Level second)
    (back : second.Level third) : first.Level third :=
  ⟨back.indents.trans front.indents, back.plain ∘ front.plain⟩

theorem length_after_le (lexeme : Lexeme) : lexeme.after.rest.length ≤ lexeme.start.length :=
  lexeme.after_suffix.length_le

/-- What is read from a part of the text after a lexeme starts no earlier than that lexeme. -/
theorem onward_nextOf {lexeme : Lexeme} (known : lexeme.token ≠ .unknown) {valid : Valid}
    {input : Input} (within : input.rest <:+ lexeme.after.rest) :
    lexeme.Onward (input.nextOf valid) := by
  have inside : input.rest <:+ lexeme.start := within.trans lexeme.after_suffix
  refine ⟨?_, start_nextLexeme.trans inside, fun lost => absurd lost known⟩
  rw [Input.nextOf, before_nextLexeme]
  exact inside.trans lexeme.start_suffix

theorem onward_next {lexeme : Lexeme} (known : lexeme.token ≠ .unknown) (expect : Expect) :
    lexeme.Onward (lexeme.next expect) := onward_nextOf known List.suffix_rfl

theorem level_next {lexeme : Lexeme} (noQuote : ∀ quote, lexeme.token ≠ .quote quote)
    (expect : Expect) : lexeme.Level (lexeme.next expect) :=
  ⟨indents_nextLexeme expect.indent_eq_false, fun plain => plain_nextLexeme (plain noQuote)⟩

theorem onward_splitStar (lexeme : Lexeme) : lexeme.Onward lexeme.splitStar := by
  unfold splitStar
  split
  next double =>
    exact ⟨List.suffix_rfl, List.suffix_rfl, fun unknown => by simp [double] at unknown⟩
  · exact .refl lexeme

theorem level_splitStar (lexeme : Lexeme) : lexeme.Level lexeme.splitStar := by
  unfold splitStar
  split
  next double => exact ⟨rfl, fun plain _ => plain (by simp [double])⟩
  · exact .refl lexeme

theorem start_enter (colon : Lexeme) : colon.enter.2.start <:+ colon.after.rest := by
  have first : (colon.after.nextOf .suite).start <:+ colon.after.rest := start_nextLexeme
  unfold enter
  dsimp only
  split
  · exact start_nextLexeme.trans ((Lexeme.after_suffix _).trans first)
  · exact first
  · exact first

theorem onward_enter {colon : Lexeme} (known : colon.token ≠ .unknown) :
    colon.Onward colon.enter.2 := by
  have first : colon.Onward (colon.after.nextOf .suite) := onward_nextOf known List.suffix_rfl
  unfold enter
  dsimp only
  split
  next indent => exact first.trans (onward_next (by simp [indent]) .boundary)
  · exact first
  · exact first

theorem plain_enter {colon : Lexeme} (closed : colon.after.inFormat = false) :
    colon.enter.2.Plain := by
  have first : (colon.after.nextOf .suite).Plain := plain_nextLexeme closed
  unfold enter
  dsimp only
  split
  next indent => exact plain_nextLexeme (first (by simp [indent]))
  · exact first
  · exact first

theorem onward_leave {last : Lexeme} (known : last.token ≠ .unknown) (colon : Lexeme) :
    last.Onward (last.leave colon) := onward_nextOf known List.suffix_rfl

theorem onward_furthest {lexeme first second : Lexeme} (one : lexeme.Onward first)
    (other : lexeme.Onward second) : lexeme.Onward (first.furthest second) := by
  unfold furthest
  split
  · exact one
  · exact other

end Lexeme

namespace Outcome

variable {α : Type}

theorem Reads.refl (value : Option α) (lexeme : Lexeme) : Reads lexeme ⟨value, lexeme⟩ :=
  ⟨.refl lexeme, fun _ _ => .refl lexeme⟩

theorem onward_close (opening : Opening) (colon : Lexeme) (read : Outcome α) :
    read.lexeme.Onward (read.close opening colon).lexeme := by
  unfold Outcome.close
  split
  next value last =>
    split
    next ends =>
      refine Lexeme.onward_leave ?_ colon
      intro (unknown : last.token = .unknown)
      cases opening <;> simp [unknown, Opening.ending] at ends
    · exact .refl last
  next stuck => exact .refl stuck

/-- After the end of a body the blocks around its colon are open. -/
theorem level_close {opening : Opening} {colon first : Lexeme} {read : Outcome α} {value : α}
    (plain : colon.Plain → first.Plain) (inside : read.Reads first)
    (closed : (read.close opening colon).value = some value) :
    colon.Level (read.close opening colon).lexeme := by
  unfold Outcome.close at closed ⊢
  split
  next value last =>
    split
    next ends =>
      refine ⟨indents_nextLexeme rfl, fun start => plain_nextLexeme ?_⟩
      refine (inside.level _ rfl).plain (plain start) ?_
      intro quote isQuote
      cases opening <;> simp_all [Opening.ending]
    next other => simp [other] at closed
  next stuck => cases closed

theorem reads_insteadOf {lexeme stuck : Lexeme} {second : Outcome α}
    (onward : lexeme.Onward stuck) (reads : second.Reads lexeme) :
    (second.insteadOf stuck).Reads lexeme := by
  refine ⟨Lexeme.onward_furthest reads.onward onward, ?_⟩
  intro value taken
  change (if second.lexeme.reaches stuck then second.value else none) = some value at taken
  split at taken
  next reaches =>
    change lexeme.Level (second.lexeme.furthest stuck)
    rw [Lexeme.furthest, reaches, Bool.true_or, if_pos rfl]
    exact reads.level value taken
  · cases taken

end Outcome

namespace Parser

variable {α σ : Type}

theorem reads_iterate {step : σ → Lexeme → Outcome (Turn σ α)}
    (steps : ∀ state (lexeme : Lexeme), (step state lexeme).Reads lexeme) (state : σ)
    (lexeme : Lexeme) : (iterate step state lexeme).Reads lexeme := by
  fun_induction iterate step state lexeme with
  | case1 state lexeme value rest ends =>
      have reads := steps state lexeme
      rw [ends] at reads
      exact ⟨reads.onward, fun _ _ => reads.level _ rfl⟩
  | case2 state lexeme next rest goes less ih =>
      have reads := steps state lexeme
      rw [goes] at reads
      exact ⟨reads.onward.trans ih.onward, fun value read =>
        (reads.level _ rfl).trans (ih.level value read)⟩
  | case3 state lexeme next rest goes stays =>
      have reads := steps state lexeme
      rw [goes] at reads
      exact ⟨reads.onward, fun value read => by cases read⟩
  | case4 state lexeme stuck fails =>
      have reads := steps state lexeme
      rw [fails] at reads
      exact ⟨reads.onward, fun value read => by cases read⟩

/-- The reading of a body that starts in some way at a lexeme. -/
def runBody (calls : (rule : Rule) → Lexeme → Outcome rule.Result) (line : Parser α) (nothing : α)
    (block : Parser α) : Opening → Lexeme → Outcome α
  | .line, first => line.run calls first
  | .empty, first => ⟨some nothing, first⟩
  | .block, first => block.run calls first

variable {calls : (rule : Rule) → Lexeme → Outcome rule.Result} {line block : Parser α} {nothing : α}

theorem run_body {colon : Lexeme} (isColon : colon.isSymbol ":" = true) :
    (body line nothing block).run calls colon =
      (runBody calls line nothing block colon.enter.1 colon.enter.2).close colon.enter.1 colon := by
  rw [run, if_pos isColon]
  generalize colon.enter = entered
  obtain ⟨opening, first⟩ := entered
  cases opening <;> rfl

theorem reads_runBody (nothing : α)
    (lines : ∀ lexeme : Lexeme, (line.run calls lexeme).Reads lexeme)
    (blocks : ∀ lexeme : Lexeme, (block.run calls lexeme).Reads lexeme) (opening : Opening)
    (first : Lexeme) : (runBody calls line nothing block opening first).Reads first := by
  cases opening with
  | line => exact lines first
  | empty => exact .refl _ first
  | block => exact blocks first

theorem level_body {colon : Lexeme} (isColon : colon.isSymbol ":" = true) {value : α}
    (lines : ∀ lexeme : Lexeme, (line.run calls lexeme).Reads lexeme)
    (blocks : ∀ lexeme : Lexeme, (block.run calls lexeme).Reads lexeme)
    (read : ((body line nothing block).run calls colon).value = some value) :
    colon.Level ((body line nothing block).run calls colon).lexeme := by
  have plain (start : colon.Plain) : colon.enter.2.Plain := by
    refine Lexeme.plain_enter (start ?_)
    intro quote isQuote
    simp [Lexeme.isSymbol, isQuote] at isColon
  rw [run_body isColon] at read ⊢
  exact Outcome.level_close plain (reads_runBody nothing lines blocks _ _) read

/-- A run goes on in its text, and ends in the blocks that it started in if it reads something, if the
runs of the rules do. -/
theorem reads_run {calls : (rule : Rule) → Lexeme → Outcome rule.Result}
    (reads : ∀ rule (lexeme : Lexeme), (calls rule lexeme).Reads lexeme) (parser : Parser α)
    (lexeme : Lexeme) : (parser.run calls lexeme).Reads lexeme := by
  induction parser generalizing lexeme with
  | pure value => exact .refl _ lexeme
  | fail => exact .refl _ lexeme
  | token => exact .refl _ lexeme
  | gap => exact .refl _ lexeme
  | bind first next ihFirst ihNext =>
      have front := ihFirst lexeme
      rw [run]
      split
      next value rest read =>
        rw [read] at front
        have back := ihNext value rest
        exact ⟨front.onward.trans back.onward, fun last found =>
          (front.level value rfl).trans (back.level last found)⟩
      next stuck read =>
        rw [read] at front
        exact ⟨front.onward, fun value found => by cases found⟩
  | orElse first second ihFirst ihSecond =>
      have front := ihFirst lexeme
      rw [run]
      split
      next value rest read => rwa [read] at front
      next stuck read =>
        rw [read] at front
        exact Outcome.reads_insteadOf front.onward (ihSecond lexeme)
  | advance expect =>
      rw [run]
      split
      next passable =>
        refine ⟨Lexeme.onward_next ?_ expect, fun _ _ => Lexeme.level_next ?_ expect⟩
        · intro unknown
          simp [unknown, Token.isPassable, Token.isOrdinary] at passable
        · intro quote isQuote
          simp [isQuote, Token.isPassable, Token.isOrdinary] at passable
      · exact .refl _ lexeme
  | splitStar => exact ⟨lexeme.onward_splitStar, fun _ _ => lexeme.level_splitStar⟩
  | body line nothing block ihLine ihBlock =>
      by_cases isColon : lexeme.isSymbol ":" = true
      · have known : lexeme.token ≠ .unknown := by
          intro unknown
          simp [Lexeme.isSymbol, unknown] at isColon
        refine ⟨?_, fun value read => level_body isColon ihLine ihBlock read⟩
        rw [run_body isColon]
        exact ((Lexeme.onward_enter known).trans (reads_runBody nothing ihLine ihBlock _ _).onward).trans
          (Outcome.onward_close ..)
      · rw [run, if_neg isColon]
        exact .refl _ lexeme
  | call rule => exact reads rule lexeme
  | loop step state ih => exact reads_iterate (fun state lexeme => ih state lexeme) state lexeme
  | written inner ih =>
      have front := ih lexeme.bare
      rw [run]
      split
      next value rest read =>
        rw [read] at front
        have level := front.level value rfl
        exact ⟨front.onward.of_bare, fun _ _ => ⟨level.indents, level.plain⟩⟩
      next stuck read =>
        rw [read] at front
        exact ⟨front.onward.of_bare, fun value found => by cases found⟩

end Parser

/-! ### Lost lexemes -/

variable {tail : List Char}

/-- Whatever comes after a lost lexeme is lost. -/
theorem Lexeme.Lost.onward {lexeme stop : Lexeme} (lost : lexeme.Lost tail)
    (onward : lexeme.Onward stop) : stop.Lost tail :=
  lost.imp onward.start.length_le.trans_lt onward.unknown

namespace Lexeme.Extends

variable {full cut : Lexeme}

theorem length_start (same : full.Extends tail cut) :
    full.start.length = cut.start.length + tail.length := by
  rw [same.start, List.length_append]

theorem length_after (same : full.Extends tail cut) :
    full.after.rest.length = cut.after.rest.length + tail.length := by
  rw [same.after, Input.extend, List.length_append]

theorem isSymbol (same : full.Extends tail cut) (text : String) :
    full.isSymbol text = cut.isSymbol text := by
  rw [Lexeme.isSymbol, Lexeme.isSymbol, same.token]

/-- A lexeme that goes on after a cut is lost only if it cannot be read. -/
theorem unknown_of_not_isAlive (same : full.Extends tail cut) (dead : full.token.isAlive = false) :
    full.token = .unknown := by
  have going := same.going
  cases token : full.token <;> simp_all [Token.isAlive]

theorem eq_of_nil (same : full.Extends [] cut) : full = cut := by
  obtain ⟨before, gap, start, token, after, -⟩ := same
  simp only [Input.extend, List.append_nil] at before start after
  cases full
  cases cut
  simp_all

theorem nil (going : full.token ≠ .stop) : full.Extends [] full := by
  refine ⟨?_, rfl, ?_, rfl, ?_, going⟩ <;> simp [Input.extend]

theorem bare (same : full.Extends tail cut) : full.bare.Extends tail cut.bare :=
  ⟨same.start, rfl, same.start, same.token, same.after, same.going⟩

theorem next (atCut : atBreak tail = true) (more : tail ≠ []) (same : full.Extends tail cut)
    (expect : Expect) :
    (full.next expect).Lost tail ∨ (full.next expect).Extends tail (cut.next expect) := by
  rw [Lexeme.next, same.after]
  exact next_extend atCut more expect cut.after

theorem splitStar (same : full.Extends tail cut) :
    full.splitStar.Extends tail cut.splitStar := by
  unfold Lexeme.splitStar
  split
  next double =>
    have double' : cut.token = .symbol "**" := same.token.symm.trans double
    have nonempty := cut.passes (by rw [double']; rfl)
    rw [dif_pos double']
    refine ⟨same.before, same.gap, same.start, rfl, ?_, by simp⟩
    dsimp only
    rw [same.after, same.start, List.drop_append_of_le_length (by omega)]
    rfl
  next single =>
    rw [dif_neg (same.token ▸ single)]
    exact same

theorem enter (atCut : atBreak tail = true) (more : tail ≠ []) (same : full.Extends tail cut) :
    full.enter.2.Lost tail ∨
      full.enter.1 = cut.enter.1 ∧ full.enter.2.Extends tail cut.enter.2 := by
  have follows := nextOf_extend atCut more proper_suite cut.after
  rw [← same.after] at follows
  unfold Lexeme.enter
  dsimp only
  rcases follows with lost | first | ⟨indent, lost⟩
  · left
    split
    next indent => exact lost.onward (onward_next (by simp [indent]) .boundary)
    · exact lost
    · exact lost
  · rw [← first.token]
    split
    · exact (first.next atCut more .boundary).imp_right fun inside => ⟨rfl, inside⟩
    · exact .inr ⟨rfl, first⟩
    · exact .inr ⟨rfl, first⟩
  · left
    rw [indent]
    exact lost

theorem leave (atCut : atBreak tail = true) (more : tail ≠ []) {last last' : Lexeme}
    (same : full.Extends tail cut) (ends : last.Extends tail last') :
    (last.leave full).Lost tail ∨ (last.leave full).Extends tail (last'.leave cut) := by
  rw [Lexeme.leave, ends.after, same.after]
  exact next_extend atCut more .boundary { last'.after with indents := cut.after.indents }

theorem reaches {other other' : Lexeme} (same : full.Extends tail cut)
    (same' : other.Extends tail other') : full.reaches other = cut.reaches other' := by
  rw [Lexeme.reaches, Lexeme.reaches, same.length_after, same'.length_after, same'.token]
  simp

theorem textTo (same : full.Extends tail cut) {stop stop' : Lexeme}
    (ends : stop.Extends tail stop') : full.textTo stop.before = cut.textTo stop'.before := by
  have lengths : full.start.length - stop.before.length =
      cut.start.length - stop'.before.length := by
    rw [same.start, ends.before, List.length_append, List.length_append]
    omega
  rw [Lexeme.textTo, Lexeme.textTo, lengths, same.start,
    List.take_append_of_le_length (Nat.sub_le ..)]

end Lexeme.Extends

/-! ### Runs on both sides of a cut -/

/-- A run over a longer text ends lost, or as the one over the cut text. -/
def Outcome.Matches {α : Type} (tail : List Char) (full cut : Outcome α) : Prop :=
  full.lexeme.Lost tail ∨ full.value = cut.value ∧ full.lexeme.Extends tail cut.lexeme

namespace Outcome.Matches

variable {α : Type}

/-- Where a first reading is lost, a second one that goes as far is lost too. -/
theorem lost_insteadOf {full cut : Outcome α} (second : full.Matches tail cut) {stuck : Lexeme}
    (lost : stuck.Lost tail) : (full.insteadOf stuck).lexeme.Lost tail := by
  change (full.lexeme.furthest stuck).Lost tail
  unfold Lexeme.furthest
  split
  next further =>
    rcases second with lost' | ⟨-, ends⟩
    · exact lost'
    rw [Bool.or_eq_true, Bool.not_eq_true'] at further
    rcases further with reaches | dead
    · rw [Lexeme.reaches, Bool.and_eq_true, decide_eq_true_eq] at reaches
      have far := ends.length_after
      have near := stuck.length_after_le
      rcases lost with past | unknown
      · omega
      · rw [unknown] at reaches
        simp [Token.isAlive] at reaches
    · exact .inr (ends.unknown_of_not_isAlive dead)
  · exact lost

theorem insteadOf {full cut : Outcome α} (second : full.Matches tail cut) {stuck stuck' : Lexeme}
    (stays : stuck.Extends tail stuck') :
    (full.insteadOf stuck).Matches tail (cut.insteadOf stuck') := by
  rcases second with lost | ⟨value, ends⟩
  · -- The second reading is lost, so it is further on unless the first got stuck for good.
    left
    change (full.lexeme.furthest stuck).Lost tail
    unfold Lexeme.furthest
    split
    · exact lost
    next nearer =>
      rw [Bool.or_eq_true, Bool.not_eq_true', not_or, Bool.not_eq_false] at nearer
      rcases lost with past | unknown
      · cases alive : stuck.token.isAlive with
        | false => exact .inr (stays.unknown_of_not_isAlive alive)
        | true =>
            have far := stays.length_after
            have near := full.lexeme.length_after_le
            refine absurd ?_ nearer.1
            rw [Lexeme.reaches, alive, Bool.true_and, decide_eq_true_eq]
            omega
      · rw [unknown] at nearer
        simp [Token.isAlive] at nearer
  · have reaches := ends.reaches stays
    refine .inr ⟨?_, ?_⟩
    · rw [Outcome.insteadOf, Outcome.insteadOf, reaches, value]
    · rw [Outcome.insteadOf, Outcome.insteadOf]
      dsimp only
      rw [Lexeme.furthest, Lexeme.furthest, reaches, ends.token]
      split
      · exact ends
      · exact stays

theorem close (atCut : atBreak tail = true) (more : tail ≠ []) {full cut : Outcome α}
    (same : full.Matches tail cut) {colon colon' : Lexeme} (colons : colon.Extends tail colon')
    (opening : Opening) :
    (full.close opening colon).Matches tail (cut.close opening colon') := by
  rcases same with lost | ⟨value, ends⟩
  · exact .inl (lost.onward (full.onward_close opening colon))
  obtain ⟨read, last⟩ := full
  obtain ⟨read', last'⟩ := cut
  obtain rfl : read = read' := value
  cases read with
  | none => exact .inr ⟨rfl, ends⟩
  | some value =>
      have token : last.token = last'.token := ends.token
      rw [Outcome.close, Outcome.close, ← token]
      split
      · exact (colons.leave atCut more ends).imp_right fun after => ⟨rfl, after⟩
      · exact .inr ⟨rfl, ends⟩

end Outcome.Matches

namespace Parser

variable {α σ : Type}

theorem matches_iterate {step step' : σ → Lexeme → Outcome (Turn σ α)}
    (steps : ∀ state (lexeme : Lexeme), (step state lexeme).Reads lexeme)
    (same : ∀ state (full cut : Lexeme), full.Extends tail cut →
      (step state full).Matches tail (step' state cut))
    (state : σ) {full cut : Lexeme} (start : full.Extends tail cut) :
    (iterate step state full).Matches tail (iterate step' state cut) := by
  generalize size : cut.start.length = n
  induction n using Nat.strongRecOn generalizing state full cut with
  | ind n ih =>
      have ends := same state full cut start
      unfold iterate
      generalize step state full = read at ends
      generalize step' state cut = read' at ends
      obtain ⟨turn, place⟩ := read
      obtain ⟨turn', place'⟩ := read'
      rcases ends with lost | ⟨rfl, ends⟩
      · match turn with
        | none => exact .inl lost
        | some (.done value) => exact .inl lost
        | some (.again next) =>
            dsimp only
            split
            · exact .inl (Lexeme.Lost.onward lost (reads_iterate steps next place).onward)
            · exact .inl lost
      · match turn with
        | none => exact .inr ⟨rfl, ends⟩
        | some (.done value) => exact .inr ⟨rfl, ends⟩
        | some (.again next) =>
            have length : place.start.length = place'.start.length + tail.length :=
              ends.length_start
            have further : place.start.length < full.start.length ↔
                place'.start.length < cut.start.length := by
              rw [length, start.length_start]
              omega
            dsimp only
            simp only [further]
            split
            next less => exact ih place'.start.length (by omega) next ends rfl
            · exact .inr ⟨rfl, ends⟩

theorem matches_runBody {calls calls' : (rule : Rule) → Lexeme → Outcome rule.Result}
    {line block : Parser α} {nothing : α}
    (lines : ∀ {full cut : Lexeme}, full.Extends tail cut →
      (line.run calls full).Matches tail (line.run calls' cut))
    (blocks : ∀ {full cut : Lexeme}, full.Extends tail cut →
      (block.run calls full).Matches tail (block.run calls' cut))
    (opening : Opening) {full cut : Lexeme} (first : full.Extends tail cut) :
    (runBody calls line nothing block opening full).Matches tail
      (runBody calls' line nothing block opening cut) := by
  cases opening with
  | line => exact lines first
  | empty => exact .inr ⟨rfl, first⟩
  | block => exact blocks first

/-- A parser runs over a longer text as over the cut text, or ends lost, if the rules do. -/
theorem matches_run (atCut : atBreak tail = true) (more : tail ≠ [])
    {calls calls' : (rule : Rule) → Lexeme → Outcome rule.Result}
    (reads : ∀ rule (lexeme : Lexeme), (calls rule lexeme).Reads lexeme)
    (same : ∀ rule (full cut : Lexeme), full.Extends tail cut →
      (calls rule full).Matches tail (calls' rule cut))
    (parser : Parser α) {full cut : Lexeme} (start : full.Extends tail cut) :
    (parser.run calls full).Matches tail (parser.run calls' cut) := by
  induction parser generalizing full cut with
  | pure value => exact .inr ⟨rfl, start⟩
  | fail => exact .inr ⟨rfl, start⟩
  | token => exact .inr ⟨congrArg some start.token, start⟩
  | gap => exact .inr ⟨congrArg some start.gap, start⟩
  | bind first next ihFirst ihNext =>
      have front := ihFirst start
      rw [run, run]
      generalize first.run calls full = read at front
      generalize first.run calls' cut = read' at front
      obtain ⟨value, place⟩ := read
      obtain ⟨value', place'⟩ := read'
      rcases front with lost | ⟨rfl, ends⟩
      · cases value with
        | none => exact .inl lost
        | some value => exact .inl (lost.onward (reads_run reads (next value) place).onward)
      · cases value with
        | none => exact .inr ⟨rfl, ends⟩
        | some value => exact ihNext value ends
  | orElse first second ihFirst ihSecond =>
      have front := ihFirst start
      have back := ihSecond start
      rw [run, run]
      generalize first.run calls full = read at front
      generalize first.run calls' cut = read' at front
      obtain ⟨value, place⟩ := read
      obtain ⟨value', place'⟩ := read'
      rcases front with lost | ⟨rfl, ends⟩
      · cases value with
        | some value => exact .inl lost
        | none => exact .inl (Outcome.Matches.lost_insteadOf back lost)
      · cases value with
        | some value => exact .inr ⟨rfl, ends⟩
        | none => exact Outcome.Matches.insteadOf back ends
  | advance expect =>
      rw [run, run, ← start.token]
      split
      · exact (start.next atCut more expect).imp_right fun ends => ⟨rfl, ends⟩
      · exact .inr ⟨rfl, start⟩
  | splitStar => exact .inr ⟨rfl, start.splitStar⟩
  | body line nothing block ihLine ihBlock =>
      have symbols := start.isSymbol ":"
      by_cases isColon : full.isSymbol ":" = true
      · have inside := reads_runBody nothing (reads_run reads line) (reads_run reads block)
        rw [run_body isColon, run_body (symbols ▸ isColon)]
        rcases start.enter atCut more with lost | ⟨openings, first⟩
        · exact .inl (lost.onward ((inside ..).onward.trans (Outcome.onward_close ..)))
        · rw [← openings]
          exact (matches_runBody ihLine ihBlock _ first).close atCut more start _
      · rw [run, run, if_neg isColon, if_neg (symbols ▸ isColon)]
        exact .inr ⟨rfl, start⟩
  | call rule => exact same rule full cut start
  | loop step state ih =>
      exact matches_iterate (fun state lexeme => reads_run reads (step state) lexeme)
        (fun state full cut start => ih state start) state start
  | written inner ih =>
      have front := ih start.bare
      rw [run, run]
      generalize inner.run calls full.bare = read at front
      generalize inner.run calls' cut.bare = read' at front
      obtain ⟨value, place⟩ := read
      obtain ⟨value', place'⟩ := read'
      rcases front with lost | ⟨rfl, ends⟩
      · cases value <;> exact .inl lost
      · cases value with
        | none => exact .inr ⟨rfl, ends⟩
        | some value =>
            refine .inr ⟨?_, ends⟩
            dsimp only
            rw [start.textTo ends]

end Parser

end Respell.Source
