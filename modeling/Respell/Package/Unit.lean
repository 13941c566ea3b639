import Respell.NameMap
import Respell.Reader.Basic
import Respell.Respeller

/-!
The units that a package is cut into. Only functions have a text; imports and modules tell how the
respelled package is laid out.
-/

set_option autoImplicit false

namespace Respell

open Syntax (FunctionDef)

/-- One function, read from its own source text. -/
structure FunctionUnit where
  /-- The function. -/
  definition : FunctionDef

namespace FunctionUnit

/-- Name of the function. -/
def name (unit : FunctionUnit) : String := unit.definition.name

/-- Reads a function from a source text that holds nothing else. -/
def ofSource (reader : Reader) (source : String) : Except ReadError FunctionUnit :=
  (reader.readFunction source).map .mk

/-- Respells the function. -/
def respell (table : TokenTable) (unit : FunctionUnit) : Rendering × Diagnostics :=
  respellFunction table unit.definition

/-- Text of the function, by a respeller of its own; what that one recorded is added to a
collector. -/
def sourceInto (table : TokenTable) (unit : FunctionUnit) : StateM Diagnostics String := do
  let (rendering, respeller) := (Respeller.new table).step (.function unit.definition)
  modify fun records => records ++ respeller.diagnostics
  return rendering.text

end FunctionUnit

/-- A reference from one module to another. -/
structure ImportUnit where
  /-- Name that is bound. -/
  name : String
  /-- Dotted path of the module. -/
  path : String
  deriving DecidableEq

/-- Beginnings of a text that end before one of its dots, shortest first; `read` is what stands
before in reverse. -/
def dottedBeginnings (read : List Char) : List Char → List String
  | [] => []
  | c :: rest =>
    if c == '.' then String.ofList read.reverse :: dottedBeginnings (c :: read) rest
    else dottedBeginnings (c :: read) rest

/-- Packages around the module, outermost first. -/
def ImportUnit.parents (unit : ImportUnit) : List String := dottedBeginnings [] unit.path.toList

/-- Functions and imports of one module. -/
structure ModuleUnit where
  /-- Name of the module. -/
  name : String
  /-- Functions by name. -/
  functions : NameMap FunctionUnit
  /-- Imports by bound name. -/
  imports : NameMap ImportUnit

namespace ModuleUnit

/-- A module without units. -/
def new (name : String) : ModuleUnit := ⟨name, .empty, .empty⟩

/-- Adds a function under its own name. -/
def addFunction (module : ModuleUnit) (unit : FunctionUnit) : ModuleUnit :=
  { module with functions := module.functions.insert unit.name unit }

/-- Adds an import under its bound name. -/
def addImport (module : ModuleUnit) (unit : ImportUnit) : ModuleUnit :=
  { module with imports := module.imports.insert unit.name unit }

/-- Respells every function, in the order of names. -/
def respellFunctions (table : TokenTable) (module : ModuleUnit) : NameMap String × Diagnostics :=
  (module.functions.map fun unit => (unit.respell table).1.text,
    module.functions.values.flatMap fun unit => (unit.respell table).2)

end ModuleUnit

/-- A unit of any kind. -/
inductive PackageUnit
  | function (unit : FunctionUnit)
  | reference (unit : ImportUnit)
  | module (unit : ModuleUnit)
  | client (unit : ModuleUnit)

namespace PackageUnit

/-- Name of a unit. -/
def name : PackageUnit → String
  | function unit => unit.name
  | reference unit => unit.name
  | module unit => unit.name
  | client unit => unit.name

/-- Text of a unit, its diagnostics added to a collector. -/
def sourceInto (table : TokenTable) : PackageUnit → StateM Diagnostics String
  | function unit => unit.sourceInto table
  | _ => return ""

/-- Text of a unit, and what was recorded for it. -/
def source (table : TokenTable) (unit : PackageUnit) : String × Diagnostics :=
  (unit.sourceInto table).run []

end PackageUnit

end Respell
