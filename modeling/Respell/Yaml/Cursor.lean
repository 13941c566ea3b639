/-!
Positions in a YAML text: the characters ahead with their line and column, and the gaps of blanks
and line breaks between words.
-/

set_option autoImplicit false

namespace Respell.Yaml

/-- Blanks inside a line. -/
def isBlank (c : Char) : Bool := c == ' ' || c == '\t'

/-- Characters that end a line. -/
def isBreak (c : Char) : Bool :=
  c == '\n' || c == '\r' || c == '\x85' || c == '\u2028' || c == '\u2029'

/-- Whether a word ends before what stands ahead. -/
def endsWord : List Char → Bool
  | [] => true
  | c :: _ => isBlank c || isBreak c

/-- Whether a line ends before what stands ahead. -/
def endsLine : List Char → Bool
  | [] => true
  | c :: _ => isBreak c

/-- Characters of names. -/
def isNameChar (c : Char) : Bool := c.isAlphanum || c == '_' || c == '-'

/-- Characters that a document may hold. -/
def isAllowed (c : Char) : Bool :=
  let code := c.toNat
  code == 0x09 || code == 0x0A || code == 0x0D || (0x20 ≤ code && code ≤ 0x7E) || code == 0x85 ||
    (0xA0 ≤ code && code ≤ 0xFFFD) || 0x10000 ≤ code

/-- A position in a text. -/
structure Cursor where
  /-- Characters ahead. -/
  rest : List Char
  /-- Number of characters before. -/
  index : Nat
  /-- Number of lines before. -/
  line : Nat
  /-- Number of characters before on the same line. -/
  column : Nat

namespace Cursor

/-- The start of a text. -/
def start (text : List Char) : Cursor := ⟨text, 0, 0, 0⟩

/-- Passes one character of a line. -/
def skip (cursor : Cursor) : Cursor :=
  ⟨cursor.rest.drop 1, cursor.index + 1, cursor.line, cursor.column + 1⟩

/-- Passes characters of a line. -/
def skipMany (cursor : Cursor) (count : Nat) : Cursor :=
  ⟨cursor.rest.drop count, cursor.index + count, cursor.line, cursor.column + count⟩

/-- Passes characters of a line as long as they are of a kind. -/
def skipWhile (cursor : Cursor) (kind : Char → Bool) : Cursor :=
  cursor.skipMany (cursor.rest.takeWhile kind).length

/-- Passes a line break; gives the break as text. Returns and line feeds count as one line feed. -/
def lineBreak (cursor : Cursor) : List Char × Cursor :=
  match cursor.rest with
  | '\r' :: '\n' :: rest => (['\n'], ⟨rest, cursor.index + 2, cursor.line + 1, 0⟩)
  | c :: rest =>
    if isBreak c then
      (if c == '\u2028' || c == '\u2029' then [c] else ['\n'],
        ⟨rest, cursor.index + 1, cursor.line + 1, 0⟩)
    else ([], cursor)
  | [] => ([], cursor)

/-- Whether a mark between documents stands ahead. -/
def atDocumentMark (cursor : Cursor) : Bool :=
  cursor.column == 0 &&
    match cursor.rest with
    | '-' :: '-' :: '-' :: rest => endsWord rest
    | '.' :: '.' :: '.' :: rest => endsWord rest
    | _ => false

end Cursor

/-- Blanks and line breaks between words. -/
structure Gap where
  /-- Whether a line break was passed. -/
  folded : Bool
  /-- Blanks before any line break. -/
  blanks : List Char
  /-- The first line break. -/
  first : List Char
  /-- All other line breaks. -/
  more : List Char

namespace Gap

/-- The gap before anything was passed. -/
def none : Gap := ⟨false, [], [], []⟩

/-- The gap after an escaped line break. -/
def joined : Gap := ⟨true, [], [], []⟩

/-- What a gap stands for: blanks stay, one line break becomes a space, more lose the first. -/
def text (gap : Gap) : List Char :=
  if gap.folded then
    if gap.first == ['\n'] then if gap.more.isEmpty then [' '] else gap.more
    else gap.first ++ gap.more
  else gap.blanks

/-- Passes blanks and line breaks. A tab before column `limit` of a later line is an error. -/
def read? (limit : Nat) : Nat → Gap → Cursor → Option (Gap × Cursor)
  | 0, gap, cursor => some (gap, cursor)
  | fuel + 1, gap, cursor =>
    match cursor.rest with
    | [] => some (gap, cursor)
    | c :: _ =>
      if isBlank c then
        if gap.folded then
          if c == '\t' && cursor.column < limit then Option.none
          else read? limit fuel gap cursor.skip
        else read? limit fuel { gap with blanks := gap.blanks ++ [c] } cursor.skip
      else if isBreak c then
        if gap.folded then
          read? limit fuel { gap with more := gap.more ++ cursor.lineBreak.1 } cursor.lineBreak.2
        else read? limit fuel ⟨true, [], cursor.lineBreak.1, []⟩ cursor.lineBreak.2
      else some (gap, cursor)

end Gap

end Respell.Yaml
