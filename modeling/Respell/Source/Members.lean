import Respell.Source.Reading

/-!
Top-level members of a source text: functions with their text, classes, imported modules, other
imports and assigned names.
-/

set_option autoImplicit false

namespace Respell.Source

open Respell.Syntax (Member)

/-- The part of a dotted path before its first dot. -/
def rootOf (path : String) : String := String.ofList (path.toList.takeWhile (· != '.'))

/-- An import binds the root of a path, or an alias for the whole path. -/
def importMember : Imported → Member
  | .plain path => ⟨rootOf path, .submodule (rootOf path)⟩
  | .aliased path name => ⟨name, .submodule path⟩

/-- An import from a package named by dots alone binds modules; any other may bind anything. -/
def importFromMember (package : String) (imported : Imported) : Member :=
  let (bound, path) := match imported with
    | .plain path => (path, path)
    | .aliased path name => (name, path)
  if package.toList.all (· == '.') then ⟨bound, .submodule path⟩ else ⟨bound, .other "import"⟩

/-- The members that one statement binds. -/
def statementMembers : Statement → List Member
  | .definition text (.function _ name _ _) => [⟨name, .callable text⟩]
  | .definition _ (.klass name) => [⟨name, .other "class"⟩]
  | .imports names => names.map importMember
  | .importsFrom package names => names.map (importFromMember package)
  | .assignment (.name text) _ _ _ => [⟨text, .other "assignment"⟩]
  | _ => []

/-- The top-level members of a source text, in order. -/
def members (source : String) : Except ReadError (List Member) := do
  let statements ← parse source
  return statements.flatMap statementMembers

/-- The reader of Python. -/
def reader : Reader where
  language := "python"
  extensions := ["py"]
  read := read
  members := members

end Respell.Source
