import Respell.Files.Error
import Respell.Json.Parser
import Respell.Token.Table

/-!
Loading token tables: from pairs of qualified names and texts, and from documents whose sections are
categories. A section that stands twice, an unknown name, or a value that is no text is an error.
-/

set_option autoImplicit false

namespace Respell

/-- Formats of token table files. -/
inductive TableFormat
  | toml
  | json
  | yaml
  deriving DecidableEq

/-- Name of a format. -/
def TableFormat.name : TableFormat → String
  | .toml => "TOML"
  | .json => "JSON"
  | .yaml => "YAML"

/-- Why a token table was not loaded. -/
inductive ConfigError
  | file (path : String) (cause : FileError)
  | invalid (format : TableFormat)
  | unsupported (extension : Option String)
  | unknownToken (name : String)
  deriving DecidableEq

/-- Text of a loading error. What is wrong with an invalid document is not told apart. -/
def ConfigError.message : ConfigError → String
  | .file path cause => "failed to read " ++ path ++ ": " ++ cause.message
  | .invalid format => "invalid " ++ format.name ++ " token table:"
  | .unsupported extension => "unsupported token table format: " ++ extension.getD "<no extension>"
  | .unknownToken name => "unknown token: " ++ name

namespace TokenTable

/-- A text split at its first dot. -/
def splitName (name : String) : Option (String × String) :=
  let category := name.toList.takeWhile (· != '.')
  match name.toList.drop category.length with
  | _ :: key => some (String.ofList category, String.ofList key)
  | [] => none

/-- The token with a qualified name, or the name under which it is unknown: a known category is
named by its first spelling. -/
def resolve (name : String) : Except ConfigError Token :=
  match splitName name with
  | none => .error (.unknownToken name)
  | some (group, key) =>
    match Category.ofKey? group with
    | none => .error (.unknownToken name)
    | some category =>
      match category.token? key with
      | some token => .ok token
      | none => .error (.unknownToken (category.key ++ "." ++ key))

/-- Gives a text to the token with a qualified name. -/
def setNamed (table : TokenTable) (name text : String) : Except ConfigError TokenTable :=
  (resolve name).map fun token => table.set token text

/-- The table of pairs of qualified names and texts, the last text of a token staying. -/
def ofPairs (pairs : List (String × String)) : Except ConfigError TokenTable :=
  pairs.foldlM (fun table (name, text) => table.setNamed name text) empty

/-- The tokens of a section with their texts; nothing if a name is unknown. -/
def tokensOf? (category : Category) (pairs : List (String × String)) :
    Option (List (Token × String)) :=
  pairs.mapM fun (key, text) => (category.token? key).map fun token => (token, text)

/-- The table of a document's sections; nothing if a section is unknown or stands twice, or a name
is unknown. -/
def ofSections? (sections : List (String × List (String × String))) : Option TokenTable := do
  let categories ← sections.mapM fun (name, _) => Category.ofKey? name
  if categories.Nodup then
    let pairs ← sections.mapM fun (name, pairs) =>
      (Category.ofKey? name).bind fun category => tokensOf? category pairs
    some (ofList pairs.flatten)
  else none

/-- The pairs of an object whose values are all texts. -/
def textMembers? (json : Json) : Option (List (String × String)) := do
  (← json.object?).mapM fun (key, value) => value.string?.map fun text => (key, text)

/-- The table of a JSON value: an object of categories, or an array of them in order. -/
def ofJson? : Json → Option TokenTable
  | .object members => do
    let sections ← members.mapM fun (name, value) =>
      (textMembers? value).map fun pairs => (name, pairs)
    ofSections? sections
  | .array items =>
    if items.length ≤ Category.all.length then do
      let sections ← (Category.all.zip items).mapM fun (category, value) =>
        (textMembers? value).map fun pairs => (category.key, pairs)
      ofSections? sections
    else none
  | _ => none

/-- The table of a JSON text. -/
def ofJsonText (text : String) : Except ConfigError TokenTable :=
  match (Json.parse? text).bind ofJson? with
  | some table => .ok table
  | none => .error (.invalid .json)

end TokenTable

end Respell
