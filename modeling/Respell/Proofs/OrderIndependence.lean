import Respell.Proofs.Extracted

/-!
Extraction and order. The units of a package do not depend on the order of its module sources, nor
those of a module on the order of its members, as long as no two of them claim one name; the records
are the same ones in another order.
-/

set_option autoImplicit false

namespace Respell

open Syntax (Member)

/-- Module sources of different names may come in any order. -/
theorem extractPackage_perm (reader : Reader) {first second : List ModuleSource}
    (perm : first.Perm second) (distinct : (first.map ModuleSource.name).Nodup) :
    (extractPackage reader first).1 = (extractPackage reader second).1 ∧
      (extractPackage reader first).2.Perm (extractPackage reader second).2 := by
  have kept : ((first.filterMap reader.module?).map ModuleUnit.name).Nodup :=
    distinct.sublist (map_filterMap_sublist Reader.name_of_module? first)
  have units : (extractPackage reader first).1 = (extractPackage reader second).1 := by
    rw [extractPackage_units_eq, extractPackage_units_eq]
    exact PackageUnits.foldl_add_perm .empty (perm.filterMap reader.module?) kept
  refine ⟨units, ?_⟩
  rw [extractPackage_records, extractPackage_records, units]
  exact (perm.flatMap_right (sourceRecords reader)).append_right _

/-- Members that give functions and references of different names may come in any order. -/
theorem extractModule_perm (reader : Reader) (policy : Policy) (name : String)
    {first second : List Member} (perm : first.Perm second)
    (functions : (((first.filter policy.admits).filterMap reader.function?).map
      FunctionUnit.name).Nodup)
    (imports : (((first.filter policy.admits).filterMap ImportUnit.ofMember?).map
      ImportUnit.name).Nodup) :
    (extractModule reader policy name first).1 = (extractModule reader policy name second).1 ∧
      (extractModule reader policy name first).2.Perm
        (extractModule reader policy name second).2 := by
  have admitted : (first.filter policy.admits).Perm (second.filter policy.admits) :=
    perm.filter policy.admits
  rw [extractModule_eq, extractModule_eq]
  dsimp only
  rw [NameMap.ofValues_perm (admitted.filterMap reader.function?) functions,
    NameMap.ofValues_perm (admitted.filterMap ImportUnit.ofMember?) imports]
  exact ⟨rfl, admitted.flatMap_right (memberRecords reader name)⟩

/-- Extraction does not depend on order. For module sources of different names the units of the
package are the same in every order, and so is all that they are respelled to; for members the same
holds if the functions read from admitted members have different names and the admitted references
have. The records are in each case the same up to their order. -/
theorem extraction_order_irrelevant (reader : Reader) :
    (∀ first second : List ModuleSource, first.Perm second →
      (first.map ModuleSource.name).Nodup →
      (extractPackage reader first).1 = (extractPackage reader second).1 ∧
      (∀ table, (extractPackage reader first).1.respell table =
        (extractPackage reader second).1.respell table) ∧
      (extractPackage reader first).2.Perm (extractPackage reader second).2) ∧
    ∀ (policy : Policy) (name : String) (first second : List Member), first.Perm second →
      (((first.filter policy.admits).filterMap reader.function?).map FunctionUnit.name).Nodup →
      (((first.filter policy.admits).filterMap ImportUnit.ofMember?).map ImportUnit.name).Nodup →
      (extractModule reader policy name first).1 = (extractModule reader policy name second).1 ∧
      (extractModule reader policy name first).2.Perm
        (extractModule reader policy name second).2 := by
  constructor
  · intro first second perm distinct
    obtain ⟨units, records⟩ := extractPackage_perm reader perm distinct
    exact ⟨units, fun table => by rw [units], records⟩
  · intro policy name first second perm functions imports
    exact extractModule_perm reader policy name perm functions imports

/-- A reader that refuses the text of one function. -/
def choosyReader : Reader where
  language := "names"
  extensions := []
  read text := if text = "bad" then .error (.parse text) else .ok ⟨[.functionDef (.mk text [] [])]⟩
  members text := if text = "worse" then .error (.parse text) else .ok [⟨text, .callable text⟩]

/-- Sources of a package with a module that cannot be listed, and one with a function that cannot be
read. -/
def troubledSources : List ModuleSource :=
  [⟨"tools", "run"⟩, ⟨"client", "main"⟩, ⟨"broken", "worse"⟩, ⟨"half", "bad"⟩]

/-- Members with a private function, a reference and a function that cannot be read. -/
def troubledMembers : List Member :=
  [⟨"run", .callable "run"⟩, ⟨"_own", .callable "_own"⟩, ⟨"net", .submodule "lib.net"⟩,
    ⟨"bad", .callable "bad"⟩]

/-- Failures among sources and members change places with the rest. -/
theorem extraction_order_irrelevant_troubled :
    ((troubledSources.map ModuleSource.name).Nodup ∧
      (extractPackage choosyReader troubledSources).1 =
        (extractPackage choosyReader troubledSources.reverse).1 ∧
      (extractPackage choosyReader troubledSources).2.Perm
        (extractPackage choosyReader troubledSources.reverse).2) ∧
    (((troubledMembers.filter Policy.client.admits).filterMap choosyReader.function?).map
      FunctionUnit.name).Nodup ∧
    (((troubledMembers.filter Policy.client.admits).filterMap ImportUnit.ofMember?).map
      ImportUnit.name).Nodup ∧
    (extractModule choosyReader .client "client" troubledMembers).1 =
      (extractModule choosyReader .client "client" troubledMembers.reverse).1 ∧
    (extractModule choosyReader .client "client" troubledMembers).2.Perm
      (extractModule choosyReader .client "client" troubledMembers.reverse).2 := by
  obtain ⟨ofPackage, ofModule⟩ := extraction_order_irrelevant choosyReader
  have names : (troubledSources.map ModuleSource.name).Nodup := by decide
  have functions : (((troubledMembers.filter Policy.client.admits).filterMap
      choosyReader.function?).map FunctionUnit.name).Nodup := by decide
  have imports : (((troubledMembers.filter Policy.client.admits).filterMap
      ImportUnit.ofMember?).map ImportUnit.name).Nodup := by decide
  have package := ofPackage _ _ troubledSources.reverse_perm.symm names
  have module := ofModule .client "client" _ _ troubledMembers.reverse_perm.symm functions imports
  exact ⟨⟨names, package.1, package.2.2⟩, functions, imports, module⟩

end Respell
