import Respell.Source.Lexeme
import Respell.Source.Rule

/-!
Parsers: programs that look at one lexeme at a time, and how they run. A run ends at a lexeme, with
what was read before it or stuck at it. A second reading is only taken if it accounts for all that a
first one has seen.
-/

set_option autoImplicit false

namespace Respell.Source

/-- How the body of a compound statement starts. -/
inductive Opening
  /-- On the line of the colon. -/
  | line
  /-- Nothing follows the colon on its line, and no deeper block. -/
  | empty
  /-- A deeper block. -/
  | block
  deriving DecidableEq

/-- The token that ends a body. -/
def Opening.ending : Opening → Token
  | line | empty => .newline
  | block => .dedent

/-- Whether a loop goes on. -/
inductive Turn (σ α : Type)
  | again (state : σ)
  | done (value : α)

/-- Programs that read lexemes. -/
inductive Parser : Type → Type 1
  /-- Reads nothing. -/
  | pure {α : Type} (value : α) : Parser α
  /-- Goes on with what was read. -/
  | bind {α β : Type} (first : Parser α) (next : α → Parser β) : Parser β
  /-- Gets stuck. -/
  | fail {α : Type} : Parser α
  /-- The first reading, or where it gets stuck the second, if that goes as far. -/
  | orElse {α : Type} (first second : Parser α) : Parser α
  /-- The token of the current lexeme. -/
  | token : Parser Token
  /-- The trivia before the current lexeme. -/
  | gap : Parser (List Trivia)
  /-- Passes the current token. -/
  | advance (expect : Expect) : Parser Unit
  /-- Takes the first star of a double star for a token of its own. -/
  | splitStar : Parser Unit
  /-- Reads the body of a compound statement from its colon on, as the rest of a line, as nothing or
  as a deeper block, and passes the end of its line or block. -/
  | body {α : Type} (line : Parser α) (nothing : α) (block : Parser α) : Parser α
  /-- Uses a rule. -/
  | call (rule : Rule) : Parser rule.Result
  /-- Repeats a step, each time further on. -/
  | loop {σ α : Type} (step : σ → Parser (Turn σ α)) (state : σ) : Parser α
  /-- Also gives the text of what is read; what stands before it does not count. -/
  | written {α : Type} (inner : Parser α) : Parser (String × α)

namespace Parser

instance : Monad Parser where
  pure := pure
  bind := bind

instance {α : Type} : OrElse (Parser α) where
  orElse first second := orElse first (second ())

end Parser

/-- What a run read, unless it got stuck, and the lexeme where it ended. -/
structure Outcome (α : Type) where
  /-- What was read. -/
  value : Option α
  /-- The lexeme that follows, or the one where the run got stuck. -/
  lexeme : Lexeme

namespace Token

/-- Whether a token is one that a parser can go on from. -/
def isAlive : Token → Bool
  | stop | unknown => false
  | _ => true

/-- Whether a token can be passed in one step, without leaving a block. -/
def isPassable : Token → Bool
  | newline => true
  | token => token.isOrdinary

end Token

namespace Lexeme

/-- Whether a lexeme is at least as far on as another one. -/
def reaches (lexeme other : Lexeme) : Bool :=
  other.token.isAlive && lexeme.after.rest.length ≤ other.after.rest.length

/-- The one of two lexemes that is further on, or that no parser goes on from. -/
def furthest (lexeme other : Lexeme) : Lexeme :=
  if lexeme.reaches other || !lexeme.token.isAlive then lexeme else other

/-- The lexeme at which a body starts after its colon, and how it starts. -/
def enter (colon : Lexeme) : Opening × Lexeme :=
  let first := colon.after.nextOf .suite
  match first.token with
  | .indent => (.block, first.next .boundary)
  | .newline => (.empty, first)
  | _ => (.line, first)

/-- The lexeme after the end of a body. The blocks that are open there are those around its colon. -/
def leave (last colon : Lexeme) : Lexeme :=
  { last.after with indents := colon.after.indents : Input }.next .boundary

end Lexeme

/-- A second reading where a first one got stuck: it counts if it goes as far. -/
def Outcome.insteadOf {α : Type} (stuck : Lexeme) (second : Outcome α) : Outcome α :=
  ⟨if second.lexeme.reaches stuck then second.value else none, second.lexeme.furthest stuck⟩

/-- Passes the end of a body, which has to be that of its line or block. -/
def Outcome.close {α : Type} (opening : Opening) (colon : Lexeme) (read : Outcome α) : Outcome α :=
  match read with
  | ⟨some value, last⟩ =>
    if last.token = opening.ending then ⟨some value, last.leave colon⟩ else ⟨none, last⟩
  | ⟨none, stuck⟩ => ⟨none, stuck⟩

namespace Parser

/-- Repeats a step while it gets further on. -/
def iterate {σ α : Type} (step : σ → Lexeme → Outcome (Turn σ α)) (state : σ) (lexeme : Lexeme) :
    Outcome α :=
  match step state lexeme with
  | ⟨some (.done value), rest⟩ => ⟨some value, rest⟩
  | ⟨some (.again state), rest⟩ =>
    if rest.start.length < lexeme.start.length then iterate step state rest else ⟨none, rest⟩
  | ⟨none, stuck⟩ => ⟨none, stuck⟩
termination_by lexeme.start.length

/-- Runs a parser from a lexeme on; `calls` runs the rules. -/
def run (calls : (rule : Rule) → Lexeme → Outcome rule.Result) :
    {α : Type} → Parser α → Lexeme → Outcome α
  | _, pure value, lexeme => ⟨some value, lexeme⟩
  | _, bind first next, lexeme =>
    match run calls first lexeme with
    | ⟨some value, rest⟩ => run calls (next value) rest
    | ⟨none, stuck⟩ => ⟨none, stuck⟩
  | _, fail, lexeme => ⟨none, lexeme⟩
  | _, orElse first second, lexeme =>
    match run calls first lexeme with
    | ⟨some value, rest⟩ => ⟨some value, rest⟩
    | ⟨none, stuck⟩ => (run calls second lexeme).insteadOf stuck
  | _, token, lexeme => ⟨some lexeme.token, lexeme⟩
  | _, gap, lexeme => ⟨some lexeme.gap, lexeme⟩
  | _, advance expect, lexeme =>
    if lexeme.token.isPassable then ⟨some (), lexeme.next expect⟩ else ⟨none, lexeme⟩
  | _, splitStar, lexeme => ⟨some (), lexeme.splitStar⟩
  | _, body line nothing block, lexeme =>
    if lexeme.isSymbol ":" then
      match lexeme.enter with
      | (.line, first) => (run calls line first).close .line lexeme
      | (.empty, first) => (Outcome.mk (some nothing) first).close .empty lexeme
      | (.block, first) => (run calls block first).close .block lexeme
    else ⟨none, lexeme⟩
  | _, call rule, lexeme => calls rule lexeme
  | _, loop step state, lexeme =>
    iterate (fun state lexeme => run calls (step state) lexeme) state lexeme
  | _, written inner, lexeme =>
    match run calls inner lexeme.bare with
    | ⟨some value, rest⟩ => ⟨some (lexeme.textTo rest.before, value), rest⟩
    | ⟨none, stuck⟩ => ⟨none, stuck⟩

end Parser

end Respell.Source
