import Respell.Reader.Basic

/-!
A registry of readers, searched in the order of registration.
-/

set_option autoImplicit false

namespace Respell

/-- Readers in the order of registration. -/
structure Registry where
  /-- The readers. -/
  readers : List Reader

namespace Registry

/-- Adds a reader after all others. -/
def register (registry : Registry) (reader : Reader) : Registry := ⟨registry.readers ++ [reader]⟩

/-- The first reader of a language. -/
def forLanguage? (registry : Registry) (language : String) : Option Reader :=
  registry.readers.find? fun reader => reader.language == language

/-- The first reader of files with an extension. -/
def forExtension? (registry : Registry) (extension : String) : Option Reader :=
  registry.readers.find? fun reader => reader.extensions.contains extension

end Registry

end Respell
