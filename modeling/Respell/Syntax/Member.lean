/-!
Top-level members of a module, as a reader lists them.
-/

set_option autoImplicit false

namespace Respell.Syntax

/-- What a member is. -/
inductive MemberKind
  /-- A function, with its own source text. -/
  | callable (source : String)
  /-- A reference to another module. -/
  | submodule (path : String)
  /-- Anything else that a module binds. -/
  | other (shape : String)
  deriving DecidableEq

/-- A named member of a module. -/
structure Member where
  /-- Name that the module binds. -/
  name : String
  /-- What it is bound to. -/
  kind : MemberKind
  deriving DecidableEq

/-- Names that start with an underscore are private. -/
def Member.isPublic (member : Member) : Bool := !(member.name.toList.head? == some '_')

end Respell.Syntax
