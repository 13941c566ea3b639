import Respell.Yaml.Scalar

/-!
Tokens of a YAML text. Indentation opens and closes mappings, and a scalar turns out to be a key
when the colon after it is met. Sequences are no part of a token table and are refused.
-/

set_option autoImplicit false

namespace Respell.Yaml

/-- A token. -/
inductive Token
  | version
  | handle (name : String)
  | documentStart
  | documentEnd
  | blockStart
  | blockEnd
  | flowStart
  | flowEnd
  | flowEntry
  | key
  | value
  | reference (name : String)
  | anchor (name : String)
  | tag (handle : String)
  | scalar (text : String) (plain : Bool)
  deriving DecidableEq

/-- A place where a key may have begun. -/
structure KeyStart where
  /-- Whether it must turn out to be a key. -/
  required : Bool
  /-- Number of tokens before it. -/
  number : Nat
  /-- Where it begins. -/
  mark : Cursor

/-- Tokens so far, and what is needed to find the next one. -/
structure Scanner where
  /-- Where the next token begins. -/
  cursor : Cursor
  /-- Tokens so far. -/
  tokens : List Token
  /-- Column of each block mapping around, innermost first. -/
  columns : List Nat
  /-- A possible key at each level of braces, innermost first; the last is outside of all braces. -/
  keys : List (Option KeyStart)
  /-- Whether a key may begin here. -/
  keyAllowed : Bool

namespace Scanner

/-- The start of a text. -/
def start (text : List Char) : Scanner := ⟨.start text, [], [], [none], true⟩

/-- Whether the cursor stands between braces. -/
def inFlow (scanner : Scanner) : Bool := 1 < scanner.keys.length

/-- The column that lines of an inner block reach at least. -/
def outer (scanner : Scanner) : Nat :=
  match scanner.columns with
  | [] => 0
  | column :: _ => column + 1

/-- Adds a token. -/
def emit (scanner : Scanner) (token : Token) : Scanner :=
  { scanner with tokens := scanner.tokens ++ [token] }

/-- Puts tokens after the first so many. -/
def insert (scanner : Scanner) (number : Nat) (tokens : List Token) : Scanner :=
  { scanner with tokens := scanner.tokens.take number ++ tokens ++ scanner.tokens.drop number }

/-- Sets the possible key at this level. -/
def setKey (scanner : Scanner) (key : Option KeyStart) : Scanner :=
  { scanner with keys := key :: scanner.keys.drop 1 }

/-- Gives up the possible key at this level; an error if it is required. -/
def dropKey? (scanner : Scanner) : Option Scanner :=
  match scanner.keys with
  | some key :: _ => if key.required then none else some (scanner.setKey none)
  | _ => some (scanner.setKey none)

/-- Remembers that a key may begin here. -/
def saveKey? (scanner : Scanner) : Option Scanner :=
  if scanner.keyAllowed then do
    let required := !scanner.inFlow && scanner.columns.head? == some scanner.cursor.column
    let saved ← scanner.dropKey?
    some (saved.setKey (some ⟨required, scanner.tokens.length, scanner.cursor⟩))
  else some scanner

/-- Whether a possible key lies too far back: on an earlier line, or more than 1024 characters. -/
def isStale (scanner : Scanner) (key : KeyStart) : Bool :=
  key.mark.line < scanner.cursor.line || key.mark.index + 1024 < scanner.cursor.index

/-- Gives up possible keys that lie too far back. -/
def dropStale? (scanner : Scanner) : Option Scanner := do
  let keys ← scanner.keys.mapM fun key =>
    match key with
    | some start =>
      if scanner.isStale start then if start.required then none else some none else some key
    | none => some none
  some { scanner with keys := keys }

/-- Closes block mappings to the right of a column; all of them if none is given. -/
def close (scanner : Scanner) (column : Option Nat) : Scanner :=
  if scanner.inFlow then scanner
  else
    let closes (inner : Nat) : Bool :=
      match column with
      | some column => column < inner
      | none => true
    let closed := scanner.columns.takeWhile closes
    { scanner with
      tokens := scanner.tokens ++ closed.map fun _ => .blockEnd
      columns := scanner.columns.dropWhile closes }

/-- Opens a block mapping at a column, unless one that is as deep is open. -/
def openBlock (scanner : Scanner) (column number : Nat) : Scanner :=
  if scanner.inFlow || column < scanner.outer then scanner
  else { scanner.insert number [.blockStart] with columns := column :: scanner.columns }

/-- Passes blanks, comments and line breaks. A tab may not stand where a key may begin. -/
def skipSpace : Nat → Scanner → Scanner
  | 0, scanner => scanner
  | fuel + 1, scanner =>
    let tabs := scanner.inFlow || !scanner.keyAllowed
    let cursor := scanner.cursor.skipWhile fun c => c == ' ' || (tabs && c == '\t')
    let cursor := if cursor.rest.head? == some '#' then cursor.skipWhile (!isBreak ·) else cursor
    if cursor.rest.head?.any isBreak then
      skipSpace fuel { scanner with
        cursor := cursor.lineBreak.2
        keyAllowed := scanner.keyAllowed || !scanner.inFlow }
    else { scanner with cursor := cursor }

/-- Passes characters and adds a token. -/
def take (scanner : Scanner) (count : Nat) (token : Token) : Scanner :=
  { scanner.emit token with cursor := scanner.cursor.skipMany count }

/-- A mark between documents. -/
def documentMark? (scanner : Scanner) (token : Token) : Option Scanner := do
  let scanner ← (scanner.close none).dropKey?
  some ({ scanner with keyAllowed := false }.take 3 token)

/-- An opening brace. -/
def flowStart? (scanner : Scanner) : Option Scanner := do
  let scanner ← scanner.saveKey?
  some ({ scanner with keys := none :: scanner.keys, keyAllowed := true }.take 1 .flowStart)

/-- A closing brace. -/
def flowEnd? (scanner : Scanner) : Option Scanner := do
  let scanner ← scanner.dropKey?
  let keys := if scanner.inFlow then scanner.keys.drop 1 else scanner.keys
  some ({ scanner with keys := keys, keyAllowed := false }.take 1 .flowEnd)

/-- A comma between braces. -/
def flowEntry? (scanner : Scanner) : Option Scanner := do
  let scanner ← scanner.dropKey?
  some ({ scanner with keyAllowed := true }.take 1 .flowEntry)

/-- A question mark before a key. -/
def key? (scanner : Scanner) : Option Scanner :=
  if !scanner.inFlow && !scanner.keyAllowed then none
  else do
    let opened := scanner.openBlock scanner.cursor.column scanner.tokens.length
    let dropped ← opened.dropKey?
    some ({ dropped with keyAllowed := !scanner.inFlow }.take 1 .key)

/-- A colon before a value. What was a possible key before it is one. -/
def value? (scanner : Scanner) : Option Scanner :=
  match scanner.keys with
  | some key :: _ =>
    let scanner := (scanner.insert key.number [.key]).openBlock key.mark.column key.number
    some ({ scanner.setKey none with keyAllowed := false }.take 1 .value)
  | _ =>
    if !scanner.inFlow && !scanner.keyAllowed then none
    else
      let opened := scanner.openBlock scanner.cursor.column scanner.tokens.length
      some ({ opened with keyAllowed := !scanner.inFlow }.take 1 .value)

/-- A name after a mark that makes an anchor or an alias. -/
def name? (scanner : Scanner) (token : String → Token) : Option Scanner := do
  let scanner ← scanner.saveKey?
  let rest := scanner.cursor.rest.drop 1
  let name := rest.takeWhile isNameChar
  let after := rest.drop name.length
  let ends := endsWord after || after.head?.any fun c => "?:,]\x7d%@`".toList.contains c
  if name.isEmpty || !ends then none
  else
    some ({ scanner with keyAllowed := false }.take (name.length + 1)
      (token (String.ofList name)))

/-- Characters of a tag. -/
def isTagChar (c : Char) : Bool := isNameChar c || ";/?:@&=+$.%!~*'()".toList.contains c

/-- Whether every percent sign is followed by two hexadecimal digits. -/
def escapesWell : List Char → Bool
  | [] => true
  | c :: rest =>
    (c != '%' || ((rest.take 2).length == 2 && (rest.take 2).all Respell.Text.isHexDigit)) &&
      escapesWell rest

/-- The handle of a tag at the start of a text, and the length of the tag. -/
def tagAt? (text : List Char) : Option (String × Nat) :=
  match text with
  | '!' :: '<' :: rest =>
    let uri := rest.takeWhile fun c => isTagChar c || c == ',' || c == '[' || c == ']'
    if uri.isEmpty || !escapesWell uri || (rest.drop uri.length).head? != some '>' then none
    else some ("", uri.length + 3)
  | '!' :: rest =>
    let word := rest.takeWhile isNameChar
    match rest.drop word.length with
    | '!' :: more =>
      let suffix := more.takeWhile isTagChar
      if suffix.isEmpty || !escapesWell suffix then none
      else some (String.ofList ('!' :: word ++ ['!']), word.length + 2 + suffix.length)
    | more =>
      let suffix := more.takeWhile isTagChar
      if escapesWell suffix then some ("!", word.length + 1 + suffix.length) else none
  | _ => none

/-- A tag. -/
def tag? (scanner : Scanner) : Option Scanner := do
  let scanner ← scanner.saveKey?
  let (handle, length) ← tagAt? scanner.cursor.rest
  let after := scanner.cursor.rest.drop length
  if endsWord after || (scanner.inFlow && after.head? == some ',') then
    some ({ scanner with keyAllowed := false }.take length (.tag handle))
  else none

/-- A scalar in quotes. -/
def quoted? (scanner : Scanner) (double : Bool) : Option Scanner := do
  let scanner ← scanner.saveKey?
  let inside := scanner.cursor.skip
  let (text, after) ←
    if double then doubleQuoted? (inside.rest.length + 1) inside
    else singleQuoted? (inside.rest.length + 1) inside
  some { scanner.emit (.scalar (String.ofList text) false) with
    cursor := after
    keyAllowed := false }

/-- A plain scalar. -/
def plain? (scanner : Scanner) : Option Scanner := do
  let scanner ← scanner.saveKey?
  let word ← Yaml.plain? scanner.inFlow scanner.outer (scanner.cursor.rest.length + 1) .none
    scanner.cursor
  some { scanner.emit (.scalar (String.ofList word.text) true) with
    cursor := word.after
    keyAllowed := word.folded }

/-- A block of lines. -/
def block? (scanner : Scanner) (folding : Bool) : Option Scanner := do
  let scanner ← scanner.dropKey?
  let (text, after) ← Yaml.block? folding scanner.outer scanner.cursor.skip
  some { scanner.emit (.scalar (String.ofList text) false) with
    cursor := after
    keyAllowed := true }

/-- What follows a directive: blanks, a comment and the end of the line. -/
def directiveEnd? (cursor : Cursor) : Option Cursor :=
  let cursor := cursor.skipWhile isBlank
  let cursor := if cursor.rest.head? == some '#' then cursor.skipWhile (!isBreak ·) else cursor
  if endsLine cursor.rest then some cursor.lineBreak.2 else none

/-- Digits of a version number, at most nine. -/
def versionPart? (text : List Char) : Option (Nat × Nat) :=
  let digits := text.takeWhile Char.isDigit
  if digits.isEmpty || 9 < digits.length then none
  else some (Respell.Text.ofDigits 10 digits, digits.length)

/-- The version of a directive, of which 1.1 and 1.2 are known, and what follows. -/
def versionAt? (cursor : Cursor) : Option Cursor := do
  let cursor := cursor.skipWhile isBlank
  let (major, length) ← versionPart? cursor.rest
  let cursor := cursor.skipMany length
  if cursor.rest.head? == some '.' then
    let (minor, length) ← versionPart? cursor.skip.rest
    if major == 1 && (minor == 1 || minor == 2) then some (cursor.skip.skipMany length) else none
  else none

/-- The handle that a directive defines, and what follows its definition. -/
def handleAt? (cursor : Cursor) : Option (String × Cursor) := do
  let cursor := cursor.skipWhile isBlank
  let word := (cursor.rest.drop 1).takeWhile isNameChar
  let closed := (cursor.rest.drop (word.length + 1)).head? == some '!'
  if cursor.rest.head? != some '!' || (!closed && !word.isEmpty) then none
  else
    let length := word.length + if closed then 2 else 1
    let handle := cursor.rest.take length
    let next := cursor.skipMany length
    if next.rest.head?.any isBlank then
      let next := next.skipWhile isBlank
      let uri := next.rest.takeWhile fun c => isTagChar c || c == ',' || c == '[' || c == ']'
      if uri.isEmpty || !escapesWell uri || !endsWord (next.rest.drop uri.length) then none
      else some (String.ofList handle, next.skipMany uri.length)
    else none

/-- A directive. -/
def directive? (scanner : Scanner) : Option Scanner := do
  let scanner ← (scanner.close none).dropKey?
  let inside := scanner.cursor.skip
  let name := inside.rest.takeWhile isNameChar
  let cursor := inside.skipMany name.length
  if !endsWord cursor.rest then none
  else if name == "YAML".toList then
    let after ← (versionAt? cursor).bind directiveEnd?
    some { scanner.emit .version with cursor := after, keyAllowed := false }
  else if name == "TAG".toList then
    let (handle, cursor) ← handleAt? cursor
    let after ← directiveEnd? cursor
    some { scanner.emit (.handle handle) with cursor := after, keyAllowed := false }
  else none

/-- Characters that cannot begin a plain scalar without more. -/
def isIndicator (c : Char) : Bool := "-?:,[]\x7b\x7d#&*!|>'\"%@`".toList.contains c

/-- The next token, at a character. -/
def token? (scanner : Scanner) (c : Char) (rest : List Char) : Option Scanner :=
  if scanner.cursor.column == 0 && c == '%' then scanner.directive?
  else if scanner.cursor.atDocumentMark then
    scanner.documentMark? (if c == '-' then .documentStart else .documentEnd)
  else if c == '[' || c == ']' then none
  else if c == '\x7b' then scanner.flowStart?
  else if c == '\x7d' then scanner.flowEnd?
  else if c == ',' then scanner.flowEntry?
  else if c == '-' && endsWord rest then none
  else if c == '?' && (scanner.inFlow || endsWord rest) then scanner.key?
  else if c == ':' && (scanner.inFlow || endsWord rest) then scanner.value?
  else if c == '*' then scanner.name? .reference
  else if c == '&' then scanner.name? .anchor
  else if c == '!' then scanner.tag?
  else if c == '|' && !scanner.inFlow then scanner.block? false
  else if c == '>' && !scanner.inFlow then scanner.block? true
  else if c == '\'' then scanner.quoted? false
  else if c == '"' then scanner.quoted? true
  else if !isIndicator c && !isBlank c || c == '-' ||
      (!scanner.inFlow && (c == '?' || c == ':')) then scanner.plain?
  else none

/-- All tokens from here on. -/
def run? : Nat → Scanner → Option (List Token)
  | 0, _ => none
  | fuel + 1, scanner => do
    let scanner ← (scanner.skipSpace (scanner.cursor.rest.length + 1)).dropStale?
    let scanner := scanner.close (some scanner.cursor.column)
    match scanner.cursor.rest with
    | [] =>
      let scanner ← (scanner.close none).dropKey?
      some scanner.tokens
    | c :: rest =>
      let scanner ← scanner.token? c rest
      run? fuel scanner

end Scanner

/-- Text without byte order marks at its start. -/
def skipMark : List Char → List Char
  | '\ufeff' :: '\ufeff' :: rest => rest
  | '\ufeff' :: rest => rest
  | text => text

/-- The tokens of a text. -/
def tokens? (text : String) : Option (List Token) :=
  let text := skipMark text.toList
  if text.all isAllowed then (Scanner.start text).run? (text.length + 1) else none

end Respell.Yaml
