import Respell.Source.Grammar.Basic

/-!
String literals: quotes, bodies and interpolated expressions, and literals that stand side by side.
-/

set_option autoImplicit false

namespace Respell.Source.Grammar

/-- A yield expression. -/
def yieldExpression (expect : Expect) : Parser Tree := do
  word "yield" expect
  if ← atWord "from" then
    Parser.advance .operand
    let _ ← expression Rank.any expect
    return .yield
  else
    (do
      let _ ← expressions expect
      return .yield) <|> return .yield

/-- What stands in braces in a format string, up to the brace or the colon after it. -/
def interpolatedBody : Parser Unit := do
  if ← atWord "yield" then
    let _ ← yieldExpression .closing
  else
    let _ ← expressions .closing
  if ← atSymbol "=" then Parser.advance .closing
  let token ← Parser.token
  if token == .conversion then Parser.advance .closing

mutual

/-- An interpolation, from the text after its opening brace to the text after its closing one;
`inside` reads what it interpolates. -/
def interpolation (inside : Lexeme → Outcome Unit) (input : Input) : Option Input :=
  let ⟨value, stop⟩ := inside (input.next .operand)
  let colon : Input := { stop.after with rest := stop.start.drop 1 }
  if value.isNone then none
  else if stop.isSymbol "\x7d" then some stop.after
  else if stop.isSymbol ":" || stop.isSymbol ":=" then
    if colon.rest.length < input.rest.length then formatSpecifier inside colon else none
  else none
termination_by input.rest.length
decreasing_by assumption

/-- What follows the colon of an interpolation: text without braces and nested interpolations, up to
the closing brace. -/
def formatSpecifier (inside : Lexeme → Outcome Unit) (input : Input) : Option Input :=
  match _ : input.rest with
  | [] => none
  | c :: rest =>
    if c == '}' then some { input with rest }
    else if c == '{' then
      match interpolation inside { input with rest } with
      | some after =>
        if after.rest.length < input.rest.length then formatSpecifier inside after else none
      | none => none
    else formatSpecifier inside { input with rest }
termination_by input.rest.length
decreasing_by all_goals simp_all

end

/-- What stands at a place inside a string. -/
inductive BodyPart
  /-- The closing quote, of a length. -/
  | close (length : Nat)
  /-- Text, an escape or trivia, of a length. -/
  | plain (length : Nat)
  /-- An interpolation, with the text after its opening brace. -/
  | interpolation (rest : List Char)
  /-- Nothing that belongs there. -/
  | nothing

/-- What stands at a place inside a string that is neither text nor an escape: an interpolation or
trivia, after blanks. -/
def betweenPieces (text : List Char) : BodyPart :=
  let rest := text.dropWhile isBlank
  let blanks := text.length - rest.length
  if rest.head? == some '{' then .interpolation (rest.drop 1)
  else if rest.head? == some '#' then
    .plain (blanks + (rest.takeWhile fun c => !endsComment c).length)
  else
    match continuation? rest with
    | some left => if blanks = 0 then .nothing else .plain (text.length - left.length)
    | none => .nothing

/-- What stands at a place inside a string. -/
def bodyPart (quote : Quote) (text : List Char) : BodyPart :=
  match quote.piece text with
  | .close length => .close length
  | .text length => .plain length
  | .nothing =>
    match escapeLength text with
    | 0 => betweenPieces text
    | length => .plain length

/-- The body of a string up to its closing quote: the text of the body, whether something is
interpolated, and what is left. `read` holds the body so far in reverse, and `inside` reads what is
interpolated. -/
def stringBody (inside : Lexeme → Outcome Unit) (quote : Quote) (read : List Char)
    (interpolated : Bool) (input : Input) : Option (List Char × Bool × Input) :=
  /- Goes on further on. -/
  let resume (interpolated : Bool) (after : Input) : Option (List Char × Bool × Input) :=
    let skipped := input.rest.take (input.rest.length - after.rest.length)
    if after.rest.length < input.rest.length then
      stringBody inside quote (skipped.reverseAux read) interpolated after
    else none
  match bodyPart quote input.rest with
  | .close length => some (read.reverse, interpolated,
      { input with rest := input.rest.drop length, inFormat := false })
  | .plain length => resume interpolated { input with rest := input.rest.drop length }
  | .interpolation rest =>
    match interpolation inside { input with rest } with
    | some after => resume true after
    | none => none
  | .nothing => none
termination_by input.rest.length

/-- The lexeme in place of a string that is not well formed. -/
def unreadable (lexeme : Lexeme) : Lexeme :=
  { lexeme with
    token := .unknown
    passes := by simp [Token.isWritten, Token.isOrdinary]
    breaks := by simp
    spelled := by simp [Token.isOrdinary] }

/-- One string literal. -/
def literalBody (inside : Lexeme → Outcome Unit) (expect : Expect) (lexeme : Lexeme) :
    Outcome Literal :=
  match lexeme.token with
  | .quote quote =>
    match stringBody inside quote [] false lexeme.after with
    | some (body, interpolated, after) =>
      ⟨some ⟨quote.raw, body, interpolated⟩, after.next expect⟩
    | none => ⟨none, unreadable lexeme⟩
  | _ => ⟨none, lexeme⟩

/-- The literals that follow those already read. -/
def literalsFrom (expect : Expect) : List Literal → Parser (List Literal) :=
  Parser.loop fun read => do
    match ← Parser.token with
    | .quote _ =>
      let next ← literal expect
      return .again (read ++ [next])
    | _ => return .done read

/-- One string literal or several side by side. -/
def strings (expect : Expect) : Parser Tree := do
  let first ← literal expect
  let more ← literalsFrom expect []
  return .strings first more

end Respell.Source.Grammar
