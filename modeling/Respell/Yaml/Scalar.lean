import Respell.Text.Digits
import Respell.Yaml.Cursor

/-!
Scalars of a YAML text: in quotes, plain, and as blocks of lines.
-/

set_option autoImplicit false

namespace Respell.Yaml

open Respell.Text (isHexDigit ofDigits scalar?)

/-- A code point of so many hexadecimal digits at the start of a text. -/
def codePoint? (count : Nat) (text : List Char) : Option Char :=
  let digits := text.take count
  if digits.length == count && digits.all isHexDigit then scalar? (ofDigits 16 digits) else none

/-- The character of an escape after its backslash, and the length of the escape. -/
def escape? : List Char → Option (Char × Nat)
  | '0' :: _ => some ('\x00', 1)
  | 'a' :: _ => some ('\x07', 1)
  | 'b' :: _ => some ('\x08', 1)
  | 't' :: _ => some ('\t', 1)
  | '\t' :: _ => some ('\t', 1)
  | 'n' :: _ => some ('\n', 1)
  | 'v' :: _ => some ('\x0b', 1)
  | 'f' :: _ => some ('\x0c', 1)
  | 'r' :: _ => some ('\r', 1)
  | 'e' :: _ => some ('\x1b', 1)
  | ' ' :: _ => some (' ', 1)
  | '"' :: _ => some ('"', 1)
  | '/' :: _ => some ('/', 1)
  | '\\' :: _ => some ('\\', 1)
  | 'N' :: _ => some ('\x85', 1)
  | '_' :: _ => some ('\xa0', 1)
  | 'L' :: _ => some ('\u2028', 1)
  | 'P' :: _ => some ('\u2029', 1)
  | 'x' :: rest => (codePoint? 2 rest).map fun c => (c, 3)
  | 'u' :: rest => (codePoint? 4 rest).map fun c => (c, 5)
  | 'U' :: rest => (codePoint? 8 rest).map fun c => (c, 9)
  | _ => none

/-- The text of a scalar in double quotes after the opening one, and what follows. -/
def doubleQuoted? : Nat → Cursor → Option (List Char × Cursor)
  | 0, _ => none
  | fuel + 1, cursor =>
    if cursor.atDocumentMark then none
    else
      match cursor.rest with
      | [] => none
      | c :: rest =>
        if c == '"' then some ([], cursor.skip)
        else if c == '\\' then
          if rest.head?.any isBreak then do
            let next := cursor.skip.lineBreak.2
            let (gap, next) ← Gap.read? 0 next.rest.length .joined next
            let (body, after) ← doubleQuoted? fuel next
            some (gap.text ++ body, after)
          else do
            let (decoded, length) ← escape? rest
            let (body, after) ← doubleQuoted? fuel (cursor.skipMany (length + 1))
            some (decoded :: body, after)
        else if isBlank c || isBreak c then do
          let (gap, next) ← Gap.read? 0 cursor.rest.length .none cursor
          let (body, after) ← doubleQuoted? fuel next
          some (gap.text ++ body, after)
        else do
          let (body, after) ← doubleQuoted? fuel cursor.skip
          some (c :: body, after)

/-- The text of a scalar in single quotes after the opening one, and what follows. A quote is
written twice. -/
def singleQuoted? : Nat → Cursor → Option (List Char × Cursor)
  | 0, _ => none
  | fuel + 1, cursor =>
    if cursor.atDocumentMark then none
    else
      match cursor.rest with
      | [] => none
      | c :: rest =>
        if c == '\'' then
          if rest.head? == some '\'' then do
            let (body, after) ← singleQuoted? fuel (cursor.skipMany 2)
            some ('\'' :: body, after)
          else some ([], cursor.skip)
        else if isBlank c || isBreak c then do
          let (gap, next) ← Gap.read? 0 cursor.rest.length .none cursor
          let (body, after) ← singleQuoted? fuel next
          some (gap.text ++ body, after)
        else do
          let (body, after) ← singleQuoted? fuel cursor.skip
          some (c :: body, after)

/-- Characters that have a meaning of their own between braces. -/
def isFlowMark (c : Char) : Bool := c == ',' || c == '[' || c == ']' || c == '{' || c == '}'

/-- A plain scalar, what follows it, and whether it ends after a line break. -/
structure PlainScalar where
  /-- Its text. -/
  text : List Char
  /-- What follows. -/
  after : Cursor
  /-- Whether a line break was passed after the last word. -/
  folded : Bool

/-- The rest of a plain scalar. `gap` is what was passed since the last word, and `limit` the column
that its lines must reach outside of braces. -/
def plain? (inFlow : Bool) (limit : Nat) : Nat → Gap → Cursor → Option PlainScalar
  | 0, _, _ => none
  | fuel + 1, gap, cursor =>
    match cursor.rest with
    | [] => some ⟨[], cursor, gap.folded⟩
    | c :: rest =>
      if isBlank c || isBreak c then do
        let (gap, next) ← Gap.read? limit cursor.rest.length .none cursor
        if (!inFlow && next.column < limit) || next.atDocumentMark ||
            next.rest.head? == some '#' then
          some ⟨[], next, gap.folded⟩
        else plain? inFlow limit fuel gap next
      else if inFlow && c == ':' &&
          rest.head?.any fun next => next == '?' || isFlowMark next then none
      else if (c == ':' && endsWord rest) || (inFlow && isFlowMark c) then
        some ⟨[], cursor, gap.folded⟩
      else do
        let more ← plain? inFlow limit fuel .none cursor.skip
        some { more with text := gap.text ++ c :: more.text }

/-- What happens to the line breaks at the end of a block scalar. -/
inductive Chomping
  | strip
  | clip
  | keep
  deriving DecidableEq

/-- Chomping that a character asks for. -/
def Chomping.ofChar? : Char → Option Chomping
  | '-' => some .strip
  | '+' => some .keep
  | _ => none

/-- Chomping and indentation after the mark of a block scalar. -/
def blockHeader? (cursor : Cursor) : Option (Chomping × Nat × Cursor) :=
  let digit? (c : Char) : Option Nat :=
    if '1' ≤ c && c ≤ '9' then some (c.toNat - '0'.toNat) else none
  let finish (chomping : Chomping) (indent : Nat) (cursor : Cursor) :=
    let cursor := cursor.skipWhile isBlank
    let cursor :=
      if cursor.rest.head? == some '#' then cursor.skipWhile (!isBreak ·) else cursor
    if endsLine cursor.rest then some (chomping, indent, cursor.lineBreak.2) else none
  match cursor.rest with
  | [] => finish .clip 0 cursor
  | c :: rest =>
    match Chomping.ofChar? c, digit? c, rest.head? with
    | some chomping, _, some d =>
      match digit? d with
      | some indent => finish chomping indent (cursor.skipMany 2)
      | none => finish chomping 0 cursor.skip
    | some chomping, _, none => finish chomping 0 cursor.skip
    | none, some indent, some d =>
      match Chomping.ofChar? d with
      | some chomping => finish chomping indent (cursor.skipMany 2)
      | none => finish .clip indent cursor.skip
    | none, some indent, none => finish .clip indent cursor.skip
    | none, none, _ => finish .clip 0 cursor

/-- Passes the indentation of lines and lines without text. `indent` is zero if it is not known yet;
`deepest` is the deepest indentation passed. -/
def blockBreaks? (indent : Nat) :
    Nat → Nat → List Char → Cursor → Option (Nat × List Char × Cursor)
  | 0, deepest, breaks, cursor => some (deepest, breaks, cursor)
  | fuel + 1, deepest, breaks, cursor =>
    let spaces := (cursor.rest.takeWhile (· == ' ')).length
    let count := if indent == 0 then spaces else min spaces (indent - cursor.column)
    let cursor := cursor.skipMany count
    let deepest := max deepest cursor.column
    match cursor.rest with
    | c :: _ =>
      if c == '\t' && (indent == 0 || cursor.column < indent) then none
      else if isBreak c then
        blockBreaks? indent fuel deepest (breaks ++ cursor.lineBreak.1) cursor.lineBreak.2
      else some (deepest, breaks, cursor)
    | [] => some (deepest, breaks, cursor)

/-- The lines of a block scalar. `lineBreak` ended the line before, `breaks` are the empty lines
since then, and `blankBefore` tells whether that line began with a blank. -/
def blockLines? (folding : Bool) (indent : Nat) (chomping : Chomping) :
    Nat → (lineBreak breaks : List Char) → (blankBefore : Bool) → Cursor →
    Option (List Char × Cursor)
  | 0, _, _, _, _ => none
  | fuel + 1, lineBreak, breaks, blankBefore, cursor =>
    if cursor.column == indent && !cursor.rest.isEmpty then do
      let blank := cursor.rest.head?.any isBlank
      let joint :=
        if folding && lineBreak == ['\n'] && !blankBefore && !blank then
          if breaks.isEmpty then [' '] else []
        else lineBreak
      let line := cursor.rest.takeWhile (!isBreak ·)
      let (ending, next) := (cursor.skipMany line.length).lineBreak
      let (_, empty, next) ← blockBreaks? indent next.rest.length 0 [] next
      let (more, after) ← blockLines? folding indent chomping fuel ending empty blank next
      some (joint ++ breaks ++ line ++ more, after)
    else
      match chomping with
      | .strip => some ([], cursor)
      | .clip => some (lineBreak, cursor)
      | .keep => some (lineBreak ++ breaks, cursor)

/-- The text of a block scalar after its mark, and what follows. `outer` is the indentation around
it plus one. -/
def block? (folding : Bool) (outer : Nat) (cursor : Cursor) : Option (List Char × Cursor) := do
  let (chomping, increment, cursor) ← blockHeader? cursor
  let given := if increment == 0 then 0 else outer - 1 + increment
  let (deepest, breaks, cursor) ← blockBreaks? given (cursor.rest.length + 1) 0 [] cursor
  let indent := if given == 0 then max (max deepest outer) 1 else given
  blockLines? folding indent chomping (cursor.rest.length + 1) [] breaks false cursor

end Respell.Yaml
