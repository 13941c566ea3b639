import Respell.Syntax.Basic
import Respell.Syntax.Member

/-!
Readers: what turns the source text of a language into syntax trees, and the errors they give.
-/

set_option autoImplicit false

namespace Respell

open Syntax (FunctionDef Member Module Stmt)

/-- Why a source text was not read. -/
inductive ReadError
  | parse (reason : String)
  | unsupported (construct : String)
  | unexpected (expected : String) (got : String)
  deriving DecidableEq

/-- Text of a read error. -/
def ReadError.message : ReadError → String
  | .parse reason => "parse error: " ++ reason
  | .unsupported construct => "unsupported syntax: " ++ construct
  | .unexpected expected got => "expected " ++ expected ++ ", got " ++ got

/-- A reader of one language. -/
structure Reader where
  /-- Name of the language. -/
  language : String
  /-- Extensions of the files it reads. -/
  extensions : List String
  /-- Reads a whole source text. -/
  read : String → Except ReadError Module
  /-- Lists the top-level members of a source text. -/
  members : String → Except ReadError (List Member)

/-- The function that is the only statement of a module. -/
def soleFunction : List Stmt → Except ReadError FunctionDef
  | [] => .error (.unexpected "FunctionDef" "empty source")
  | [.functionDef definition] => .ok definition
  | .functionDef _ :: extra :: _ =>
    .error (.unexpected "a single function definition" ("trailing " ++ extra.kindName))
  | other :: _ => .error (.unexpected "FunctionDef" other.kindName)

/-- Reads a source text that holds one function and nothing else. -/
def Reader.readFunction (reader : Reader) (source : String) : Except ReadError FunctionDef := do
  let module ← reader.read source
  soleFunction module.body

end Respell
