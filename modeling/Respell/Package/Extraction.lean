import Respell.Package.Unit

/-!
Extraction: which members of a module become units, and the units of a whole package. A member or a
module that cannot be read is reported and left out.
-/

set_option autoImplicit false

namespace Respell

open Syntax (Member MemberKind)

/-- Name of the module whose private functions are kept. -/
def clientModule : String := "client"

/-- Which members become units. -/
inductive Policy
  /-- Public members. -/
  | uniform
  /-- Public members, and private functions too. -/
  | client
  deriving DecidableEq

namespace Policy

/-- Policy for a module of a given name. -/
def forModule (name : String) : Policy := if name == clientModule then client else uniform

/-- Whether a policy lets a member become a unit. -/
def admits (policy : Policy) (member : Member) : Bool :=
  match policy, member.kind with
  | client, .callable _ => true
  | _, _ => member.isPublic

end Policy

/-- Adds one member to a module. -/
def extractMember (reader : Reader) (module : ModuleUnit) (member : Member) :
    ModuleUnit × Diagnostics :=
  match member.kind with
  | .callable source =>
    match FunctionUnit.ofSource reader source with
    | .ok unit => (module.addFunction unit, [])
    | .error error =>
      (module, [.report .extractionFailure ("Skipping function " ++ member.name ++ " of module " ++
        module.name ++ ": " ++ error.message)])
  | .submodule path => (module.addImport ⟨member.name, path⟩, [])
  | .other _ => (module, [])

/-- Adds members to a module in order. -/
def extractMembers (reader : Reader) (module : ModuleUnit) :
    List Member → ModuleUnit × Diagnostics
  | [] => (module, [])
  | member :: rest =>
    let (module, first) := extractMember reader module member
    let (module, more) := extractMembers reader module rest
    (module, first ++ more)

/-- The units of a module's members that a policy admits. -/
def extractModule (reader : Reader) (policy : Policy) (name : String) (members : List Member) :
    ModuleUnit × Diagnostics :=
  extractMembers reader (.new name) (members.filter policy.admits)

/-- Adds one member to a module, and what is recorded about it to a collector. -/
def extractMemberInto (reader : Reader) (module : ModuleUnit) (member : Member) :
    StateM Diagnostics ModuleUnit := do
  let (extended, made) := extractMember reader module member
  modify fun records => records ++ made
  return extended

/-- The units of a module's members that a policy admits, the diagnostics added to a collector. -/
def extractModuleInto (reader : Reader) (policy : Policy) (name : String) (members : List Member) :
    StateM Diagnostics ModuleUnit :=
  (members.filter policy.admits).foldlM (extractMemberInto reader) (.new name)

/-- The source text of a module. -/
structure ModuleSource where
  /-- Name of the module. -/
  name : String
  /-- Its text. -/
  source : String
  deriving DecidableEq

/-- A function that was respelled. -/
structure RespelledFunction where
  /-- Name of its module. -/
  module : String
  /-- Its own name. -/
  name : String
  /-- Its text. -/
  text : String
  /-- What was recorded. -/
  records : Diagnostics

namespace RespelledFunction

/-- Respells a function of a module. -/
def ofJob (table : TokenTable) (job : String × FunctionUnit) : RespelledFunction :=
  ⟨job.1, job.2.name, (job.2.respell table).1.text, (job.2.respell table).2⟩

/-- Puts a text under its module and its name. -/
def place (functions : NameMap (NameMap String)) (done : RespelledFunction) :
    NameMap (NameMap String) :=
  functions.insert done.module
    (((functions.get? done.module).getD .empty).insert done.name done.text)

/-- Texts by module and name, and what was recorded, in the order given. -/
def gather (all : List RespelledFunction) : NameMap (NameMap String) × Diagnostics :=
  (all.foldl place .empty, all.flatMap records)

end RespelledFunction

/-- Does jobs in some order of their places; each result stands at the place of its job. -/
def workIn {α β : Type} (order : List Nat) (work : α → β) (jobs : List α) : List (Option β) :=
  order.foldl (fun done index => done.set index (jobs[index]?.map work))
    (List.replicate jobs.length none)

/-- The units of a package: the client module, and the others by name. -/
structure PackageUnits where
  /-- The client module. -/
  client : Option ModuleUnit
  /-- All other modules. -/
  modules : NameMap ModuleUnit

namespace PackageUnits

/-- A package without units. -/
def empty : PackageUnits := ⟨none, .empty⟩

/-- Adds a module in its place, where one of the same name gives way. -/
def add (units : PackageUnits) (module : ModuleUnit) : PackageUnits :=
  match Policy.forModule module.name with
  | .client => { units with client := some module }
  | .uniform => { units with modules := units.modules.insert module.name module }

/-- All modules in the order of their names. -/
def allModules (units : PackageUnits) : List ModuleUnit :=
  (units.client.toList ++ units.modules.values).mergeSort fun a b => a.name ≤ b.name

/-- Number of functions. -/
def functionCount (units : PackageUnits) : Nat :=
  units.allModules.foldl (fun count module => count + module.functions.size) 0

/-- The functions to respell, each with the name of its module. -/
def jobs (units : PackageUnits) : List (String × FunctionUnit) :=
  units.allModules.flatMap fun module => module.functions.values.map fun unit => (module.name, unit)

/-- Respelled functions by module and name; modules without functions are left out. -/
def respell (table : TokenTable) (units : PackageUnits) :
    NameMap (NameMap String) × Diagnostics :=
  RespelledFunction.gather (units.jobs.map (RespelledFunction.ofJob table))

/-- Respelled functions when the jobs are done in some order of their places. -/
def respellIn (order : List Nat) (table : TokenTable) (units : PackageUnits) :
    NameMap (NameMap String) × Diagnostics :=
  RespelledFunction.gather ((workIn order (RespelledFunction.ofJob table) units.jobs).filterMap id)

end PackageUnits

/-- Adds one module to a package. -/
def extractSource (reader : Reader) (units : PackageUnits) (module : ModuleSource) :
    PackageUnits × Diagnostics :=
  match reader.members module.source with
  | .ok members =>
    let (unit, records) :=
      extractModule reader (Policy.forModule module.name) module.name members
    (units.add unit, records)
  | .error error =>
    (units, [.report .extractionFailure ("Skipping module " ++ module.name ++ ": " ++
      error.message)])

/-- Adds modules to a package in order. -/
def extractSources (reader : Reader) (units : PackageUnits) :
    List ModuleSource → PackageUnits × Diagnostics
  | [] => (units, [])
  | module :: rest =>
    let (units, first) := extractSource reader units module
    let (units, more) := extractSources reader units rest
    (units, first ++ more)

/-- The units of a package. A package without a client module is reported. -/
def extractPackage (reader : Reader) (modules : List ModuleSource) : PackageUnits × Diagnostics :=
  let (units, records) := extractSources reader .empty modules
  if units.client.isSome then (units, records)
  else
    (units, records ++
      [.report .missingCollaborator ("no " ++ clientModule ++ " module in package")])

/-- Adds one module to a package, and what is recorded about it to a collector. -/
def extractSourceInto (reader : Reader) (units : PackageUnits) (module : ModuleSource) :
    StateM Diagnostics PackageUnits := do
  match reader.members module.source with
  | .ok members =>
    let unit ← extractModuleInto reader (Policy.forModule module.name) module.name members
    return units.add unit
  | .error error =>
    modify fun records => records ++ [.report .extractionFailure ("Skipping module " ++ module.name ++
      ": " ++ error.message)]
    return units

/-- The units of a package, the diagnostics added to a collector. A package without a client module is
reported. -/
def extractPackageInto (reader : Reader) (modules : List ModuleSource) :
    StateM Diagnostics PackageUnits := do
  let units ← modules.foldlM (extractSourceInto reader) .empty
  if units.client.isNone then
    modify fun records => records ++
      [.report .missingCollaborator ("no " ++ clientModule ++ " module in package")]
  return units

end Respell
