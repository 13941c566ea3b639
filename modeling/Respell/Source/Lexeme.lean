import Respell.Source.Layout
import Respell.Source.Tree
import Respell.Text.Identifier

/-!
Lexemes: the next token at a place, found with what the parser can take there, and the trivia before
it.
-/

set_option autoImplicit false

namespace Respell.Source

/-- Tokens. Line ends and block borders have no width. -/
inductive Token
  | newline
  | indent
  | dedent
  | quote (opened : Quote)
  | word (text : String)
  | numeral (kind : NumeralKind) (text : List Char)
  | symbol (text : String)
  | conversion
  | stop
  | unknown
  deriving DecidableEq

namespace Token

/-- Whether a token has a width and is passed in one step. -/
def isOrdinary : Token → Bool
  | word _ | numeral _ _ | symbol _ | conversion => true
  | _ => false

/-- Whether a token takes up text. -/
def isWritten : Token → Bool
  | quote _ => true
  | token => token.isOrdinary

/-- Words that are never identifiers. -/
def reservedWords : List String :=
  ["False", "None", "True", "and", "as", "assert", "async", "await", "break", "class", "continue",
   "def", "del", "elif", "else", "except", "finally", "for", "from", "global", "if", "import", "in",
   "is", "lambda", "nonlocal", "not", "or", "pass", "raise", "return", "try", "while", "with",
   "yield"]

/-- The identifier that a token is. -/
def identifier? : Token → Option String
  | word text => if reservedWords.contains text then none else some text
  | _ => none

/-- The name that a token is where `async` and `await` may be names too. -/
def name? : Token → Option String
  | word text =>
    if reservedWords.contains text && text != "async" && text != "await" then none else some text
  | _ => none

end Token

/-- Whether a character separates tokens and means nothing else. -/
def isBlank (c : Char) : Bool :=
  ('\t' ≤ c && c ≤ '\r') || c == ' ' || c == '\ufeff' || c == '\u2060' || c == '\u200b'

/-- Whether a character ends a comment. -/
def endsComment (c : Char) : Bool := c == '\n' || c == '\x00'

/-- Symbols, longer ones before their own beginnings. -/
def symbols : List String :=
  ["**=", "//=", ">>=", "<<=", "...",
   "->", ":=", "==", "!=", "<>", "<=", ">=", "<<", ">>", "**", "//",
   "+=", "-=", "*=", "/=", "@=", "%=", "&=", "^=", "|=",
   "(", ")", "[", "]", "\x7b", "\x7d", ",", ":", ";", ".", "=",
   "+", "-", "*", "/", "%", "@", "&", "|", "^", "~", "<", ">"]

/-- The ordinary token at the start of a text, with its length. -/
def token (text : List Char) : Token × Nat :=
  match text with
  | [] => (.stop, 0)
  | c :: rest =>
    if Text.startsIdentifier c then
      let word := c :: rest.takeWhile Text.continuesIdentifier
      (.word (String.ofList word), word.length)
    else
      match numeral? text with
      | some (kind, n) => (.numeral kind (text.take n), n)
      | none =>
        match symbols.find? fun s => s.toList.isPrefixOf text with
        | some s => (.symbol s, s.toList.length)
        | none =>
          if c == '!' && rest.head?.any Char.isLower then (.conversion, 2) else (.unknown, 0)

/-- Text after the line continuation that a text starts with. -/
def continuation? : List Char → Option (List Char)
  | ['\\'] => some []
  | '\\' :: '\n' :: rest => some rest
  | '\\' :: '\r' :: '\n' :: rest => some rest
  | '\\' :: '\x00' :: rest => some rest
  | _ => none

/-- Text after the comment or the line continuation that a text starts with. -/
def trivia? : List Char → Option (Trivia × List Char)
  | '#' :: rest => some (.comment, rest.dropWhile fun c => !endsComment c)
  | text => (continuation? text).map fun rest => (.continuation, rest)

theorem length_of_continuation? {text rest : List Char} (found : continuation? text = some rest) :
    rest.length < text.length ∧ rest <:+ text := by
  unfold continuation? at found
  split at found <;> simp only [Option.some.injEq, reduceCtorEq] at found <;> subst found
  · exact ⟨by simp, ['\\'], rfl⟩
  · exact ⟨by simp only [List.length_cons]; omega, ['\\', '\n'], rfl⟩
  · exact ⟨by simp only [List.length_cons]; omega, ['\\', '\r', '\n'], rfl⟩
  · exact ⟨by simp only [List.length_cons]; omega, ['\\', '\x00'], rfl⟩

theorem length_of_trivia? {text rest : List Char} {kind : Trivia}
    (found : trivia? text = some (kind, rest)) : rest.length < text.length ∧ rest <:+ text := by
  unfold trivia? at found
  split at found
  next tail =>
    obtain ⟨-, rfl⟩ := Prod.mk.inj (Option.some.inj found)
    have dropped : (tail.dropWhile fun c => !endsComment c) <:+ tail := List.dropWhile_suffix _
    exact ⟨Nat.lt_succ_of_le dropped.length_le, dropped.trans (List.suffix_cons _ _)⟩
  next =>
    obtain ⟨_, continued, same⟩ := Option.map_eq_some_iff.mp found
    obtain ⟨-, rfl⟩ := Prod.mk.inj same
    exact length_of_continuation? continued

theorem numeral?_pos {text : List Char} {kind : NumeralKind} {n : Nat}
    (found : numeral? text = some (kind, n)) : 0 < n := by
  unfold numeral? at found
  dsimp only at found
  repeat' split at found
  all_goals simp_all
  all_goals omega

theorem symbols_ne_empty : ∀ s ∈ symbols, 0 < s.toList.length := by decide

/-- A token that takes up text has a length. -/
theorem token_pos {text : List Char} (written : (token text).1.isWritten = true) :
    0 < (token text).2 ∧ text ≠ [] := by
  unfold token at written ⊢
  split at written
  · simp [Token.isWritten, Token.isOrdinary] at written
  next c rest =>
    refine ⟨?_, by simp⟩
    split
    · simp
    · split
      next found => exact numeral?_pos found
      next =>
        split
        next s found =>
          exact symbols_ne_empty s (List.mem_of_find?_eq_some found)
        next =>
          split
          · simp
          next numeral symbol conversion => simp [*, Token.isWritten, Token.isOrdinary] at written

/-- Ordinary tokens do not end lines or blocks. -/
theorem token_not_break (text : List Char) :
    ¬((token text).1 = .newline ∨ (token text).1 = .dedent) := by
  unfold token
  repeat' split
  all_goals simp

/-- A token with the trivia before it and the places around it. -/
structure Lexeme where
  /-- Text right after the token before. -/
  before : List Char
  /-- Trivia between the two tokens. -/
  gap : List Trivia
  /-- Text from the token on. -/
  start : List Char
  /-- The token. -/
  token : Token
  /-- What is left after it. -/
  after : Input
  /-- The token stands after the token before. -/
  start_suffix : start <:+ before
  /-- What is left stands after the token. -/
  after_suffix : after.rest <:+ start
  /-- A token that takes up text is passed. -/
  passes : token.isWritten = true → after.rest.length < start.length
  /-- The end of a line or a block stands at a break and takes up no text. -/
  breaks : token = .newline ∨ token = .dedent → atBreak start = true ∧ after.rest = start
  /-- An ordinary token is the one that its text starts with, unless it is a star of a double one. -/
  spelled : token.isOrdinary = true → token ≠ .symbol "*" →
    (Source.token start).1 = token ∧ after.rest = start.drop (Source.token start).2

namespace Lexeme

/-- A lexeme whose token has no width. -/
def border (before : List Char) (gap : List Trivia) (input : Input) (token : Token)
    (indents : List Nat) (within : input.rest <:+ before) (narrow : token.isWritten = false)
    (breaks : token = .newline ∨ token = .dedent → atBreak input.rest = true) : Lexeme where
  before := before
  gap := gap
  start := input.rest
  token := token
  after := { input with indents }
  start_suffix := within
  after_suffix := List.suffix_rfl
  passes := by simp [narrow]
  breaks := fun isBreak => ⟨breaks isBreak, rfl⟩
  spelled := by cases token <;> simp_all [Token.isWritten, Token.isOrdinary]

/-- A lexeme whose token opens a string. -/
def opening (before : List Char) (gap : List Trivia) (input : Input) (quote : Quote)
    (start : List Char) (length : Nat) (within : start <:+ before)
    (opened : Quote.open? start = some (quote, length)) : Lexeme where
  before := before
  gap := gap
  start := start
  token := .quote quote
  after := { input with rest := start.drop length, inFormat := quote.format }
  start_suffix := within
  after_suffix := List.drop_suffix _ _
  passes := fun _ => by
    obtain ⟨positive, nonempty⟩ := Quote.open?_pos opened
    have := List.length_pos_iff.mpr nonempty
    simp only [List.length_drop]
    omega
  breaks := by simp
  spelled := by simp [Token.isOrdinary]

/-- A lexeme whose token is the one that a text starts with. -/
def ordinary (before : List Char) (gap : List Trivia) (input : Input) (text : List Char)
    (within : text <:+ before) : Lexeme where
  before := before
  gap := gap
  start := text
  token := (Source.token text).1
  after := { input with rest := text.drop (Source.token text).2 }
  start_suffix := within
  after_suffix := List.drop_suffix _ _
  passes := fun written => by
    obtain ⟨positive, nonempty⟩ := token_pos written
    have := List.length_pos_iff.mpr nonempty
    simp only [List.length_drop]
    omega
  breaks := fun isBreak => absurd isBreak (token_not_break text)
  spelled := fun _ _ => ⟨rfl, rfl⟩

end Lexeme

/-- Reads one lexeme, trivia first. -/
def Input.nextLexeme (valid : Valid) (before : List Char) (gap : List Trivia) (input : Input)
    (within : input.rest <:+ before) : Lexeme :=
  match marked : input.mark valid with
  | .newline =>
    .border before gap.reverse input .newline input.indents within (by decide)
      fun _ => input.atBreak_of_mark (.inl marked)
  | .indent width =>
    .border before gap.reverse input .indent (width :: input.indents) within (by decide) (by simp)
  | .dedent =>
    .border before gap.reverse input .dedent input.indents within (by decide)
      fun _ => input.atBreak_of_mark (.inr marked)
  | .quote quote start length =>
    .opening before gap.reverse input quote start length
      ((Input.mark_quote marked).1.trans within) (Input.mark_quote marked).2
  | .nothing =>
    let text := input.rest.dropWhile isBlank
    have text_suffix : text <:+ input.rest := List.dropWhile_suffix _
    match found : trivia? text with
    | some (kind, rest) =>
      nextLexeme valid before (kind :: gap) { input with rest }
        ((length_of_trivia? found).2.trans (text_suffix.trans within))
    | none => .ordinary before gap.reverse input text (text_suffix.trans within)
termination_by input.rest.length
decreasing_by exact Nat.lt_of_lt_of_le (length_of_trivia? found).1 text_suffix.length_le

/-- The next lexeme where a parser can take certain things. -/
def Input.nextOf (valid : Valid) (input : Input) : Lexeme :=
  input.nextLexeme valid input.rest [] List.suffix_rfl

/-- The next lexeme at a place. -/
def Input.next (expect : Expect) (input : Input) : Lexeme := input.nextOf expect.valid

namespace Lexeme

/-- The lexeme after this one. -/
def next (expect : Expect) (lexeme : Lexeme) : Lexeme := lexeme.after.next expect

/-- Whether the token is a given symbol. -/
def isSymbol (lexeme : Lexeme) (text : String) : Bool := lexeme.token == .symbol text

/-- Written text from this lexeme up to the end of the one before another. -/
def textTo (lexeme : Lexeme) (stop : List Char) : String :=
  String.ofList (lexeme.start.take (lexeme.start.length - stop.length))

/-- A lexeme without what stands before it. -/
def bare (lexeme : Lexeme) : Lexeme :=
  { lexeme with
    before := lexeme.start
    gap := []
    start_suffix := List.suffix_rfl }

/-- The first star of a double star, as a lexeme of its own. -/
def splitStar (lexeme : Lexeme) : Lexeme :=
  if double : lexeme.token = .symbol "**" then
    { lexeme with
      token := .symbol "*"
      after := { lexeme.after with rest := lexeme.start.drop 1 }
      breaks := by simp
      spelled := by simp
      after_suffix := List.drop_suffix _ _
      passes := fun _ => by
        have := lexeme.passes (by rw [double]; rfl)
        simp only [List.length_drop]
        omega }
  else lexeme

end Lexeme

end Respell.Source
