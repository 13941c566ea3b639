import Respell.Token.Loading
import Respell.Toml
import Respell.Yaml.Node

/-!
The formats of token table files, and loading a table from a text in one of them.
-/

set_option autoImplicit false

namespace Respell

namespace TokenTable

/-- The text of a scalar. -/
def textOf? : Yaml.Node → Option String
  | .scalar text _ => some text
  | .mapping _ => none

/-- The entries of a mapping, each key with its value. Where nothing is written there are none. -/
def entriesOf? : Yaml.Node → Option (List (String × Yaml.Node))
  | .mapping entries => entries.mapM fun (key, value) => (textOf? key).map fun name => (name, value)
  | .scalar text plain => if plain && text == "" then some [] else none

/-- The texts of a mapping by key. -/
def textsOf? (node : Yaml.Node) : Option (List (String × String)) := do
  let entries ← entriesOf? node
  entries.mapM fun (name, value) => (textOf? value).map fun text => (name, text)

/-- The table of a YAML document. -/
def ofYaml? (node : Yaml.Node) : Option TokenTable := do
  let entries ← entriesOf? node
  let sections ← entries.mapM fun (name, value) => (textsOf? value).map fun texts => (name, texts)
  ofSections? sections

/-- The table of a TOML text. -/
def ofTomlText (text : String) : Except ConfigError TokenTable :=
  match (Toml.parse? text).bind ofSections? with
  | some table => .ok table
  | none => .error (.invalid .toml)

/-- The table of a YAML text. -/
def ofYamlText (text : String) : Except ConfigError TokenTable :=
  match (Yaml.parse? text).bind ofYaml? with
  | some table => .ok table
  | none => .error (.invalid .yaml)

end TokenTable

namespace TableFormat

/-- The format that an extension names. -/
def ofExtension? : Option String → Option TableFormat
  | some "toml" => some .toml
  | some "json" => some .json
  | some "yaml" => some .yaml
  | some "yml" => some .yaml
  | _ => none

/-- Loads a table from a text. -/
def load : TableFormat → String → Except ConfigError TokenTable
  | .toml => TokenTable.ofTomlText
  | .json => TokenTable.ofJsonText
  | .yaml => TokenTable.ofYamlText

end TableFormat

end Respell
