import Respell.Source.Numeral

/-!
Quotes and the pieces of a string's body: text, escapes, doubled braces, the closing quote.
-/

set_option autoImplicit false

namespace Respell.Source

open Respell.Text

/-- Whether a character is a quote mark. -/
def Quote.isMark (c : Char) : Bool := c == '\'' || c == '"' || c == '`'

/-- An open quote: its mark, whether it is tripled, and what its letters say about the body. -/
structure Quote where
  /-- Character that closes the string. -/
  mark : Char
  /-- That character is a quote mark. -/
  isMark_mark : Quote.isMark mark = true
  /-- Three marks open and close the string. -/
  triple : Bool
  /-- Backslashes stand for themselves. -/
  raw : Bool
  /-- Named and wide escapes are plain text. -/
  bytes : Bool
  /-- Braces interpolate. -/
  format : Bool
  deriving DecidableEq

namespace Quote

/-- Whether a letter may stand before a quote. -/
def isFlag (c : Char) : Bool := ['f', 'F', 't', 'T', 'r', 'R', 'b', 'B', 'u', 'U'].contains c

/-- The quote that a text opens, with its length. Backquotes are never tripled. -/
def open? (text : List Char) : Option (Quote × Nat) :=
  let flags := text.takeWhile isFlag
  let has (letters : List Char) := flags.any letters.contains
  match text.drop flags.length with
  | mark :: rest =>
    let triple := mark != '`' && [mark, mark].isPrefixOf rest
    if marks : isMark mark then
      some (⟨mark, marks, triple, has ['r', 'R'], has ['b', 'B'], has ['f', 'F', 't', 'T']⟩,
        flags.length + if triple then 3 else 1)
    else none
  | [] => none

theorem open?_pos {text : List Char} {quote : Quote} {length : Nat}
    (opened : open? text = some (quote, length)) : 0 < length ∧ text ≠ [] := by
  constructor
  · unfold open? at opened
    dsimp only at opened
    split at opened
    · split at opened
      · simp only [Option.some.injEq, Prod.mk.injEq] at opened
        obtain ⟨-, rfl⟩ := opened
        split <;> omega
      · simp at opened
    · simp at opened
  · rintro rfl
    simp [open?] at opened

end Quote

/-- What stands next in a body. Pieces that are consumed as text carry their length. -/
inductive Piece
  | text (length : Nat)
  | close (length : Nat)
  | nothing
  deriving DecidableEq

/-- A piece after characters that were passed before it. -/
def Piece.after (passed : Nat) : Piece → Piece
  | text length => text (passed + length)
  | close length => close (passed + length)
  | nothing => nothing

/-- Length of the line end that a text starts with. -/
def lineEndLength (text : List Char) : Nat :=
  if ['\r', '\n'].isPrefixOf text then 2 else if text.head?.any ['\r', '\n'].contains then 1 else 0

/-- Length of what a backslash takes along in a raw string: a mark or a backslash, then a line
end. -/
def rawEscapeLength (mark : Char) (rest : List Char) : Nat :=
  let taken := if rest.head?.any fun c => c == mark || c == '\\' then 1 else 0
  taken + lineEndLength (rest.drop taken)

/-- What a character inside a string means. -/
inductive BodyStep
  /-- So many characters are passed; the flag tells whether there is content now. -/
  | pass (length : Nat) (content : Bool)
  /-- A piece ends here. -/
  | ends (piece : Piece)

/-- What a character inside a string means; `content` tells whether some of the characters passed
before are content. Escaped pairs of raw strings are passed without being content. -/
def Quote.bodyStep (q : Quote) (content : Bool) (c : Char) (rest : List Char) : BodyStep :=
  let text : BodyStep := .ends (if content then .text 0 else .nothing)
  if q.format && (c == '{' || c == '}') then text
  else if c == '\x00' then .ends .nothing
  else if c == '\\' then
    if q.raw then .pass (rawEscapeLength q.mark rest + 1) content
    else if q.bytes && rest.head?.any ['N', 'u', 'U'].contains then
      if (rest.drop 1).isEmpty then .ends .nothing else .pass 3 true
    else text
  else if c == q.mark then
    if q.triple && !([q.mark, q.mark].isPrefixOf rest) then
      .ends (.text (if rest.head? == some q.mark then 2 else 1))
    else if content then text
    else .ends (.close (if q.triple then 3 else 1))
  else if c == '\n' && content && !q.triple then .ends .nothing
  else .pass 1 true

/-- The piece of text that starts at a place inside a string, or the closing quote there. `taken`
counts the characters already passed. -/
def scanBody (q : Quote) (taken : Nat) (content : Bool) : List Char → Piece
  | [] => .nothing
  | c :: rest =>
    match q.bodyStep content c rest with
    | .pass length content => scanBody q (taken + length) content (rest.drop (length - 1))
    | .ends piece => piece.after taken
termination_by text => text.length
decreasing_by simp only [List.length_drop, List.length_cons]; omega

/-- The piece at a place inside a string. In a format string a doubled brace is text, and a single
one is nothing that belongs to the body. -/
def Quote.piece (q : Quote) : List Char → Piece
  | [] => .nothing
  | c :: rest =>
    if q.format && (c == '{' || c == '}') then
      if rest.head? == some c then .text 2 else .nothing
    else scanBody q 0 false (c :: rest)

/-- Length of an escape of hexadecimal digits, or of its lone backslash. -/
def hexEscapeLength (digits : Nat) (rest : List Char) : Nat :=
  if digits ≤ (rest.takeWhile isHexDigit).length then digits + 2 else 1

/-- Length of an escape of a name in braces, or of its lone backslash. -/
def nameEscapeLength (rest : List Char) : Nat :=
  let name := rest.takeWhile (· != '}')
  if name.isEmpty || (rest.drop name.length).isEmpty then 1 else name.length + 4

/-- Length of the escape of a character, or of its lone backslash. -/
def escapedLength (c : Char) (rest : List Char) : Nat :=
  if c == 'u' then hexEscapeLength 4 rest
  else if c == 'U' then hexEscapeLength 8 rest
  else if c == 'x' then hexEscapeLength 2 rest
  else if c == '\r' then if rest.head? == some '\n' then 3 else 1
  else if c == 'N' then if rest.head? == some '{' then nameEscapeLength (rest.drop 1) else 1
  else if c.isDigit then 1 + min 3 ((c :: rest).takeWhile Char.isDigit).length
  else if ['\n', '\'', '"', 'a', 'b', 'f', 'r', 'n', 't', 'v', '\\'].contains c then 2
  else 1

/-- Length of the escape at a place, or of the lone backslash there; zero elsewhere. -/
def escapeLength : List Char → Nat
  | [] => 0
  | [c] => if c == '\\' then 1 else 0
  | c :: d :: rest => if c == '\\' then escapedLength d rest else 0

end Respell.Source
