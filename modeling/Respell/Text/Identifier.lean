import Respell.Text.IdentifierPart
import Respell.Text.IdentifierStart

/-!
Identifiers: a letter or an underscore, then letters, digits, marks and underscores.
-/

set_option autoImplicit false

namespace Respell.Text

/-- Whether a character may start an identifier. -/
def startsIdentifier (c : Char) : Bool :=
  c == '_' || (if c.toNat < 128 then c.isAlpha else identifierStart.contains c)

/-- Whether a character may continue an identifier. -/
def continuesIdentifier (c : Char) : Bool :=
  if c.toNat < 128 then c == '_' || c.isAlphanum
  else identifierStart.contains c || identifierPart.contains c

end Respell.Text
