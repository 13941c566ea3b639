import Respell.Text.Digits

/-!
The part of TOML that token tables are written in: tables of texts, one level deep. A document
with any other value is refused, and so is one that defines a table or a key twice.
-/

set_option autoImplicit false

namespace Respell.Toml

open Respell.Text (isHexDigit ofDigits scalar?)

/-- Blanks inside a line. -/
def isBlank (c : Char) : Bool := c == ' ' || c == '\t'

/-- Text after leading blanks. -/
def skipBlank (text : List Char) : List Char := text.dropWhile isBlank

/-- Characters that stand for themselves in comments and strings. -/
def isPlain (c : Char) : Bool := c == '\t' || (32 ≤ c.toNat && c.toNat != 127)

/-- What follows a line end. -/
def lineEnd? : List Char → Option (List Char)
  | '\n' :: rest => some rest
  | '\r' :: '\n' :: rest => some rest
  | _ => none

/-- Text after leading blanks and line ends. -/
def skipLines : List Char → List Char
  | ' ' :: rest => skipLines rest
  | '\t' :: rest => skipLines rest
  | '\n' :: rest => skipLines rest
  | '\r' :: '\n' :: rest => skipLines rest
  | text => text

/-- A code point of so many hexadecimal digits at the start of a text. -/
def codePoint? (count : Nat) (text : List Char) : Option Char :=
  let digits := text.take count
  if digits.length == count && digits.all isHexDigit then scalar? (ofDigits 16 digits) else none

/-- The character of an escape after its backslash, and the length of the escape. -/
def escape? : List Char → Option (Char × Nat)
  | 'b' :: _ => some ('\x08', 1)
  | 't' :: _ => some ('\t', 1)
  | 'n' :: _ => some ('\n', 1)
  | 'f' :: _ => some ('\x0c', 1)
  | 'r' :: _ => some ('\r', 1)
  | '"' :: _ => some ('"', 1)
  | '\\' :: _ => some ('\\', 1)
  | 'u' :: rest => (codePoint? 4 rest).map fun c => (c, 5)
  | 'U' :: rest => (codePoint? 8 rest).map fun c => (c, 9)
  | _ => none

/-- The text of a basic string after its opening quote, and what follows. -/
def basic? : List Char → Option (List Char × List Char)
  | [] => none
  | c :: rest =>
    if c == '"' then some ([], rest)
    else if c == '\\' then
      match escape? rest with
      | some (decoded, length) =>
        (basic? (rest.drop length)).map fun (body, after) => (decoded :: body, after)
      | none => none
    else if isPlain c then (basic? rest).map fun (body, after) => (c :: body, after)
    else none
termination_by text => text.length
decreasing_by all_goals simp only [List.length_drop, List.length_cons]; omega

/-- The text of a literal string after its opening quote, and what follows. -/
def literal? : List Char → Option (List Char × List Char)
  | [] => none
  | c :: rest =>
    if c == '\'' then some ([], rest)
    else if isPlain c then (literal? rest).map fun (body, after) => (c :: body, after)
    else none

/-- What a run of quotes means inside a string of several lines: quotes of the text, or its end
after at most two of them. -/
inductive QuoteRun
  | inside (count : Nat)
  | closing (count : Nat)

/-- Meaning of a run of quotes of a given length. -/
def QuoteRun.ofLength (length : Nat) : QuoteRun :=
  if length < 3 then .inside length else .closing (min (length - 3) 2)

/-- The text of a string of several lines, and what follows. Escapes are read if `escaped` is set; a
backslash at the end of a line then joins it to the next text. -/
def multiline? (quote : Char) (escaped : Bool) :
    Nat → List Char → Option (List Char × List Char)
  | 0, _ => none
  | fuel + 1, text =>
    match text with
    | [] => none
    | c :: rest =>
      if c == quote then
        match QuoteRun.ofLength (text.takeWhile (· == quote)).length with
        | .closing count => some (List.replicate count quote, text.drop (count + 3))
        | .inside count =>
          (multiline? quote escaped fuel (text.drop count)).map fun (body, after) =>
            (List.replicate count quote ++ body, after)
      else if escaped && c == '\\' then
        match lineEnd? (skipBlank rest) with
        | some next => multiline? quote escaped fuel (skipLines next)
        | none =>
          match escape? rest with
          | some (decoded, length) =>
            (multiline? quote escaped fuel (rest.drop length)).map fun (body, after) =>
              (decoded :: body, after)
          | none => none
      else
        match lineEnd? text with
        | some next =>
          (multiline? quote escaped fuel next).map fun (body, after) => ('\n' :: body, after)
        | none =>
          if isPlain c then
            (multiline? quote escaped fuel rest).map fun (body, after) => (c :: body, after)
          else none

/-- The text of a string of several lines after its opening quotes. A line end there is left out. -/
def multilineText? (quote : Char) (escaped : Bool) (text : List Char) :
    Option (List Char × List Char) :=
  let text := (lineEnd? text).getD text
  multiline? quote escaped (text.length + 1) text

/-- A string of any kind at the start of a text. -/
def string? : List Char → Option (List Char × List Char)
  | '"' :: '"' :: '"' :: rest => multilineText? '"' true rest
  | '"' :: rest => basic? rest
  | '\'' :: '\'' :: '\'' :: rest => multilineText? '\'' false rest
  | '\'' :: rest => literal? rest
  | _ => none

/-- Characters of keys without quotes. -/
def isBareKey (c : Char) : Bool := c.isAlphanum || c == '_' || c == '-'

/-- One key at the start of a text. -/
def key? (text : List Char) : Option (String × List Char) :=
  match text with
  | '"' :: rest => (basic? rest).map fun (key, after) => (String.ofList key, after)
  | '\'' :: rest => (literal? rest).map fun (key, after) => (String.ofList key, after)
  | _ =>
    let bare := text.takeWhile isBareKey
    if bare.isEmpty then none else some (String.ofList bare, text.dropWhile isBareKey)

/-- Keys joined by dots at the start of a text, and what follows them and any blanks. -/
def keys? : Nat → List Char → Option (List String × List Char)
  | 0, _ => none
  | fuel + 1, text => do
    let (key, rest) ← key? (skipBlank text)
    match skipBlank rest with
    | '.' :: rest =>
      let (more, rest) ← keys? fuel rest
      some (key :: more, rest)
    | rest => some ([key], rest)

/-- Keys, an equals sign and blanks at the start of a text. -/
def assignment? (text : List Char) : Option (List String × List Char) := do
  let (path, rest) ← keys? (text.length + 1) text
  match rest with
  | '=' :: rest => some (path, skipBlank rest)
  | _ => none

/-- Pairs of an inline table, up to its closing brace. -/
def inlinePairs? : Nat → List Char → Option (List (String × String) × List Char)
  | 0, _ => none
  | fuel + 1, text => do
    let (path, rest) ← assignment? text
    let (value, rest) ← string? rest
    match path, skipBlank rest with
    | [key], '}' :: rest => some ([(key, String.ofList value)], rest)
    | [key], ',' :: rest =>
      let (more, rest) ← inlinePairs? fuel rest
      some ((key, String.ofList value) :: more, rest)
    | _, _ => none

/-- An inline table after its opening brace. -/
def inlineTable? (text : List Char) : Option (List (String × String) × List Char) :=
  match skipBlank text with
  | '}' :: rest => some ([], rest)
  | rest => inlinePairs? (rest.length + 1) rest

/-- What a line of a document says. -/
inductive Line
  | blank
  | header (path : List String)
  | text (path : List String) (value : String)
  | table (path : List String) (pairs : List (String × String))
  deriving DecidableEq

/-- What follows a comment, if there is one. -/
def skipComment : List Char → List Char
  | '#' :: rest => rest.dropWhile isPlain
  | text => text

/-- What follows the end of a line, after blanks and a comment. -/
def finish? (text : List Char) : Option (List Char) :=
  match skipComment (skipBlank text) with
  | [] => some []
  | rest => lineEnd? rest

/-- What stands at the start of a line, without the end of the line. -/
def content? (text : List Char) : Option (Line × List Char) :=
  match skipBlank text with
  | [] => some (.blank, [])
  | '#' :: rest => some (.blank, '#' :: rest)
  | '\n' :: rest => some (.blank, '\n' :: rest)
  | '\r' :: rest => some (.blank, '\r' :: rest)
  | '[' :: rest => do
    let (path, rest) ← keys? (rest.length + 1) rest
    match rest with
    | ']' :: rest => some (.header path, rest)
    | _ => none
  | rest => do
    let (path, rest) ← assignment? rest
    match rest with
    | '\x7b' :: rest => (inlineTable? rest).map fun (pairs, after) => (.table path pairs, after)
    | _ => (string? rest).map fun (value, after) => (.text path (String.ofList value), after)

/-- The lines of a text. -/
def lines? : Nat → List Char → Option (List Line)
  | 0, _ => none
  | _, [] => some []
  | fuel + 1, text => do
    let (line, rest) ← content? text
    let rest ← finish? rest
    let more ← lines? fuel rest
    some (line :: more)

/-- How a table was defined. Only a table of dotted keys may be added to later. -/
inductive Origin
  | header
  | dotted
  | inline
  deriving DecidableEq

/-- A table of a document. -/
structure Table where
  /-- Name of the table. -/
  name : String
  /-- How it was defined. -/
  origin : Origin
  /-- Its texts by key. -/
  pairs : List (String × String)

/-- Tables so far, and the one that keys without a table belong to. -/
structure Outline where
  /-- Tables in the order of definition. -/
  tables : List Table
  /-- Table of the last header. -/
  current : Option String

namespace Outline

/-- The table of a name. -/
def table? (outline : Outline) (name : String) : Option Table :=
  outline.tables.find? fun table => table.name == name

/-- Adds a table under a new name. -/
def define? (outline : Outline) (table : Table) : Option Outline :=
  if (outline.table? table.name).isSome then none
  else some { outline with tables := outline.tables ++ [table] }

/-- Adds a text to a table under a new key. -/
def assign? (outline : Outline) (name key value : String) : Option Outline := do
  let table ← outline.table? name
  if table.pairs.any fun pair => pair.1 == key then none
  else some { outline with tables := outline.tables.map fun table =>
    if table.name == name then { table with pairs := table.pairs ++ [(key, value)] } else table }

/-- Adds what a line says. -/
def step? (outline : Outline) : Line → Option Outline
  | .blank => some outline
  | .header [name] =>
    ({ outline with current := some name } : Outline).define? ⟨name, .header, []⟩
  | .header _ => none
  | .text path value =>
    match outline.current, path with
    | some name, [key] => outline.assign? name key value
    | none, [name, key] =>
      match outline.table? name with
      | none => outline.define? ⟨name, .dotted, [(key, value)]⟩
      | some table => if table.origin = .dotted then outline.assign? name key value else none
    | _, _ => none
  | .table path pairs =>
    match outline.current, path with
    | none, [name] =>
      if (pairs.map Prod.fst).Nodup then outline.define? ⟨name, .inline, pairs⟩ else none
    | _, _ => none

end Outline

/-- Text without a byte order mark at its start. -/
def skipMark : List Char → List Char
  | '\ufeff' :: rest => rest
  | text => text

/-- The tables of a document by name, each with its texts by key. -/
def parse? (text : String) : Option (List (String × List (String × String))) := do
  let text := skipMark text.toList
  let lines ← lines? (text.length + 1) text
  let outline ← lines.foldlM Outline.step? ⟨[], none⟩
  some (outline.tables.map fun table => (table.name, table.pairs))

end Respell.Toml
