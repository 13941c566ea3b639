import Respell.Token.Name

/-!
Token tables: the texts that a target gives to tokens. Any token may be missing.
-/

set_option autoImplicit false

namespace Respell

/-- A token table: the text of each token that has one. -/
@[ext]
structure TokenTable where
  /-- Text of a token. -/
  get? : Token → Option String

namespace TokenTable

/-- The table without any text. -/
def empty : TokenTable := ⟨fun _ => none⟩

/-- Gives a text to a token, in place of any before. -/
def set (table : TokenTable) (token : Token) (text : String) : TokenTable :=
  ⟨fun other => if other = token then some text else table.get? other⟩

/-- Whether a token has a text that is not empty. -/
def isSet (table : TokenTable) (token : Token) : Bool :=
  match table.get? token with
  | some text => !text.isEmpty
  | none => false

/-- The tokens of a category that have a text, with their texts. -/
def entries (table : TokenTable) (category : Category) : List (Token × String) :=
  category.tokens.filterMap fun token => (table.get? token).map fun text => (token, text)

/-- Whether no token of a category has a text. -/
def lacks (table : TokenTable) (category : Category) : Bool := (table.entries category).isEmpty

/-- Gives texts to tokens in order, so that the last text of a token stays. -/
def setAll (table : TokenTable) (pairs : List (Token × String)) : TokenTable :=
  pairs.foldl (fun table (token, text) => table.set token text) table

/-- The table that gives texts to tokens in order. -/
def ofList (pairs : List (Token × String)) : TokenTable := empty.setAll pairs

end TokenTable

end Respell
