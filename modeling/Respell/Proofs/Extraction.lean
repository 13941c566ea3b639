import Respell.Package.Extraction
import Respell.Proofs.NameMap

/-!
What extraction keeps. Every function, import and module stands under its own name, and the client
module stands apart from all others.
-/

set_option autoImplicit false

namespace Respell

open Syntax (Member)

namespace ModuleUnit

/-- Functions and imports stand under their own names. -/
structure Keyed (module : ModuleUnit) : Prop where
  /-- A function stands under its name. -/
  functions : ∀ name unit, module.functions.get? name = some unit → unit.name = name
  /-- An import stands under the name it binds. -/
  imports : ∀ name unit, module.imports.get? name = some unit → unit.name = name

theorem keyed_new (name : String) : (new name).Keyed := ⟨by simp [new], by simp [new]⟩

theorem keyed_addFunction {module : ModuleUnit} (keyed : module.Keyed) (unit : FunctionUnit) :
    (module.addFunction unit).Keyed := by
  refine ⟨fun name other found => ?_, keyed.imports⟩
  rw [addFunction, NameMap.get?_insert] at found
  split at found
  next same => rw [← Option.some.inj found, same]
  next => exact keyed.functions name other found

theorem keyed_addImport {module : ModuleUnit} (keyed : module.Keyed) (unit : ImportUnit) :
    (module.addImport unit).Keyed := by
  refine ⟨keyed.functions, fun name other found => ?_⟩
  rw [addImport, NameMap.get?_insert] at found
  split at found
  next same => rw [← Option.some.inj found, same]
  next => exact keyed.imports name other found

end ModuleUnit

theorem extractMember_name (reader : Reader) (module : ModuleUnit) (member : Member) :
    (extractMember reader module member).1.name = module.name := by
  unfold extractMember
  split
  · split <;> rfl
  · rfl
  · rfl

theorem keyed_extractMember (reader : Reader) {module : ModuleUnit} (keyed : module.Keyed)
    (member : Member) : (extractMember reader module member).1.Keyed := by
  unfold extractMember
  split
  · split
    next unit _ => exact ModuleUnit.keyed_addFunction keyed unit
    next => exact keyed
  · exact ModuleUnit.keyed_addImport keyed _
  · exact keyed

theorem extractMembers_name (reader : Reader) (module : ModuleUnit) (members : List Member) :
    (extractMembers reader module members).1.name = module.name := by
  induction members generalizing module with
  | nil => rfl
  | cons member rest ih => rw [extractMembers, ih, extractMember_name]

theorem keyed_extractMembers (reader : Reader) {module : ModuleUnit} (keyed : module.Keyed)
    (members : List Member) : (extractMembers reader module members).1.Keyed := by
  induction members generalizing module with
  | nil => exact keyed
  | cons member rest ih => exact ih (keyed_extractMember reader keyed member)

theorem extractModule_name (reader : Reader) (policy : Policy) (name : String)
    (members : List Member) : (extractModule reader policy name members).1.name = name :=
  extractMembers_name reader (.new name) _

theorem keyed_extractModule (reader : Reader) (policy : Policy) (name : String)
    (members : List Member) : (extractModule reader policy name members).1.Keyed :=
  keyed_extractMembers reader (ModuleUnit.keyed_new name) _

theorem Policy.forModule_eq_client_iff (name : String) :
    Policy.forModule name = .client ↔ name = clientModule := by
  simp [Policy.forModule]

namespace PackageUnits

/-- Modules stand under their own names, the client module apart, and so do their units. -/
structure Keyed (units : PackageUnits) : Prop where
  /-- The module in the client's place has its name. -/
  client : ∀ module, units.client = some module → module.name = clientModule
  /-- Any other module stands under its name. -/
  modules : ∀ name module, units.modules.get? name = some module → module.name = name
  /-- No other module has the client's name. -/
  apart : units.modules.get? clientModule = none
  /-- The units of the client module stand under their names. -/
  inClient : ∀ module, units.client = some module → module.Keyed
  /-- The units of any other module stand under their names. -/
  inModules : ∀ name module, units.modules.get? name = some module → module.Keyed

theorem keyed_empty : empty.Keyed := by
  constructor <;> simp [empty]

theorem keyed_add {units : PackageUnits} (keyed : units.Keyed) {module : ModuleUnit}
    (inner : module.Keyed) : (units.add module).Keyed := by
  unfold add
  split
  next isClient =>
    have named := (Policy.forModule_eq_client_iff module.name).mp isClient
    exact ⟨by simpa using named, keyed.modules, keyed.apart, by simpa using inner, keyed.inModules⟩
  next isUniform =>
    have other : module.name ≠ clientModule := by
      intro named
      rw [(Policy.forModule_eq_client_iff module.name).mpr named] at isUniform
      cases isUniform
    refine ⟨keyed.client, fun name added found => ?_, ?_, keyed.inClient, fun name added found => ?_⟩
    · rw [NameMap.get?_insert] at found
      split at found
      next same => rw [← Option.some.inj found, same]
      next => exact keyed.modules name added found
    · rw [NameMap.get?_insert, if_neg (Ne.symm other)]
      exact keyed.apart
    · rw [NameMap.get?_insert] at found
      split at found
      next => exact Option.some.inj found ▸ inner
      next => exact keyed.inModules name added found

end PackageUnits

theorem keyed_extractSource (reader : Reader) {units : PackageUnits} (keyed : units.Keyed)
    (module : ModuleSource) : (extractSource reader units module).1.Keyed := by
  unfold extractSource
  split
  · exact PackageUnits.keyed_add keyed (keyed_extractModule reader _ _ _)
  · exact keyed

theorem keyed_extractSources (reader : Reader) {units : PackageUnits} (keyed : units.Keyed)
    (modules : List ModuleSource) : (extractSources reader units modules).1.Keyed := by
  induction modules generalizing units with
  | nil => exact keyed
  | cons module rest ih => exact ih (keyed_extractSource reader keyed module)

theorem extractPackage_units (reader : Reader) (modules : List ModuleSource) :
    (extractPackage reader modules).1 = (extractSources reader .empty modules).1 := by
  rw [extractPackage]
  dsimp only
  split <;> rfl

theorem keyed_extractPackage (reader : Reader) (modules : List ModuleSource) :
    (extractPackage reader modules).1.Keyed := by
  rw [extractPackage_units]
  exact keyed_extractSources reader PackageUnits.keyed_empty modules

end Respell
