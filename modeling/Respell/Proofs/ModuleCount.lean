import Respell.Proofs.Discovery
import Respell.Proofs.Extracted
import Respell.Source.Members

/-!
Counting modules. A discovered module that cannot be read or listed leaves a record, and any other
one a unit; but of several under one name only the last unit stays, and nothing tells of the others.
So modules and records make up all that was discovered exactly if the listed modules have different
names, which one extension ensures and two do not.
-/

set_option autoImplicit false

namespace Respell

/-! ### Modules kept -/

/-- Number of modules, the client among them. -/
def PackageUnits.moduleCount (units : PackageUnits) : Nat :=
  units.client.toList.length + units.modules.size

/-- As many modules are kept as there are names. -/
theorem moduleCount_extract (host : Host) (reader : Reader) (modules : List DiscoveredModule) :
    (host.extract reader modules).1.moduleCount =
      ((modules.filter (host.lists reader)).map DiscoveredModule.name).dedup.length := by
  have keyed := host.keyed_extract reader modules
  have found := host.isSome_module?_extract reader modules
  generalize (host.extract reader modules).1 = units at keyed found
  -- names kept and names listed are the same set, and neither list repeats one
  have names : ((units.client.toList ++ units.modules.values).map ModuleUnit.name).Perm
      ((modules.filter (host.lists reader)).map DiscoveredModule.name).dedup := by
    refine (List.perm_ext_iff_of_nodup keyed.nodup_names (List.nodup_dedup _)).mpr ?_
    intro name
    rw [List.mem_dedup, ← found, (units.perm_allModules.map ModuleUnit.name).mem_iff.symm,
      List.mem_map]
    constructor
    · rintro ⟨module, member, rfl⟩
      rw [(keyed.mem_allModules_iff module).mp member]
      rfl
    · intro present
      obtain ⟨module, at_name⟩ := Option.isSome_iff_exists.mp present
      have named := keyed.name_of_module? at_name
      refine ⟨module, (keyed.mem_allModules_iff module).mpr ?_, named⟩
      rw [named]
      exact at_name
  rw [← names.length_eq, List.length_map, List.length_append, PackageUnits.moduleCount, NameMap.size,
    NameMap.values, List.length_map]

/-! ### Modules reported -/

/-- Whether a record tells that a module is left out of a package. -/
def Diagnostic.skipsModule (record : Diagnostic) : Bool :=
  record.kind = .extractionFailure && "Skipping module ".toList.isPrefixOf record.message.toList

theorem skipsModule_of_mem_memberRecords {reader : Reader} {name : String} {member : Syntax.Member}
    {record : Diagnostic} (made : record ∈ memberRecords reader name member) :
    record.skipsModule = false := by
  obtain ⟨bound, kind⟩ := member
  cases kind with
  | callable source =>
      cases read : FunctionUnit.ofSource reader source with
      | ok unit => simp [memberRecords, extractMember, read] at made
      | error cause =>
          simp only [memberRecords, extractMember, read, List.mem_singleton] at made
          rw [made]
          simp [Diagnostic.skipsModule, Diagnostic.report, List.isPrefixOf]
  | submodule path => cases made
  | other shape => cases made

/-- A module source is told to be left out exactly if its members cannot be listed. -/
theorem countP_sourceRecords (reader : Reader) (source : ModuleSource) :
    (sourceRecords reader source).countP Diagnostic.skipsModule =
      if (reader.module? source).isSome then 0 else 1 := by
  cases listed : reader.members source.source with
  | ok members =>
      have none : ∀ record ∈ (extractModule reader (Policy.forModule source.name) source.name
          members).2, ¬ record.skipsModule = true := by
        intro record made
        rw [extractModule_eq] at made
        obtain ⟨member, -, made⟩ := List.mem_flatMap.mp made
        simp [skipsModule_of_mem_memberRecords made]
      simp only [sourceRecords, extractSource, listed, Reader.module?, Except.toOption,
        Option.map_some, Option.isSome_some, if_true]
      exact List.countP_eq_zero.mpr none
  | error cause =>
      simp [sourceRecords, extractSource, listed, Reader.module?, Except.toOption,
        Diagnostic.skipsModule, Diagnostic.report, List.isPrefixOf]

theorem countP_unread (host : Host) (module : DiscoveredModule) :
    (host.unread module).countP Diagnostic.skipsModule =
      if (host.source? module).isSome then 0 else 1 := by
  cases read : host.readText module.path <;>
    simp [Host.unread, Host.sources, Host.source?, read, Except.toOption, Diagnostic.skipsModule,
      Diagnostic.report, List.isPrefixOf]

theorem countP_moduleRecords (host : Host) (reader : Reader) (module : DiscoveredModule) :
    (host.unread module).countP Diagnostic.skipsModule +
        (host.moduleRecords reader module).countP Diagnostic.skipsModule =
      if host.lists reader module then 0 else 1 := by
  rw [countP_unread, ← host.isSome_module? reader module]
  cases read : host.source? module with
  | none => simp [Host.module?, Host.moduleRecords, read]
  | some source =>
      have own : host.moduleRecords reader module = sourceRecords reader source := by
        simp [Host.moduleRecords, read]
      rw [own, countP_sourceRecords]
      simp [Host.module?, read]

theorem countP_extract (host : Host) (reader : Reader) (modules : List DiscoveredModule) :
    (host.extract reader modules).2.countP Diagnostic.skipsModule =
      modules.countP fun module => !host.lists reader module := by
  have rest : (if (host.extract reader modules).1.client.isSome then [] else
      [missingClient] : Diagnostics).countP Diagnostic.skipsModule = 0 := by
    split <;> rfl
  rw [Host.extract_records, List.countP_append, List.countP_append, rest, Nat.add_zero]
  clear rest
  induction modules with
  | nil => rfl
  | cons module others ih =>
      have here := countP_moduleRecords host reader module
      have same : (if !host.lists reader module then 1 else 0) =
          if host.lists reader module then 0 else 1 := by
        cases host.lists reader module <;> rfl
      rw [List.countP_cons, same, ← here, ← ih, List.flatMap_cons, List.flatMap_cons,
        List.countP_append, List.countP_append]
      omega

/-! ### Both together -/

/-- Modules kept and modules reported make up all of them exactly if those that can be listed have
different names. -/
theorem accounted_iff_nodup (host : Host) (reader : Reader) (modules : List DiscoveredModule) :
    (host.extract reader modules).1.moduleCount +
        (host.extract reader modules).2.countP Diagnostic.skipsModule = modules.length ↔
      ((modules.filter (host.lists reader)).map DiscoveredModule.name).Nodup := by
  rw [moduleCount_extract, countP_extract]
  have lengths : (modules.filter (host.lists reader)).length +
      (modules.countP fun module => !host.lists reader module) = modules.length := by
    rw [← List.countP_eq_length_filter]
    simpa using (List.length_eq_countP_add_countP (host.lists reader)).symm
  generalize names : (modules.filter (host.lists reader)).map DiscoveredModule.name = listed
  have length : listed.length = (modules.filter (host.lists reader)).length := by
    rw [← names, List.length_map]
  constructor
  · intro all
    have same : listed.dedup.length = listed.length := by omega
    exact List.dedup_eq_self.mp (listed.dedup_sublist.eq_of_length same)
  · intro distinct
    rw [List.dedup_eq_self.mpr distinct]
    omega

/-- Discovered modules against what becomes of them. The modules of the package and the records of
modules left out are as many as the modules discovered exactly if no two modules that can be read
and listed have one name. They are for every directory if there is only one extension. -/
theorem discovered_accounted_iff (tree : FileTree) (reader : Reader) (directory : String)
    (excluded extensions : List String) (modules : List DiscoveredModule) (skipped : Diagnostics)
    (found : tree.host.discover directory excluded extensions = .ok (modules, skipped)) :
    ((tree.host.extract reader modules).1.moduleCount +
        (tree.host.extract reader modules).2.countP Diagnostic.skipsModule = modules.length ↔
      ((modules.filter (tree.host.lists reader)).map DiscoveredModule.name).Nodup) ∧
    ∀ extension, extensions = [extension] →
      (tree.host.extract reader modules).1.moduleCount +
        (tree.host.extract reader modules).2.countP Diagnostic.skipsModule = modules.length := by
  have exactly := accounted_iff_nodup tree.host reader modules
  refine ⟨exactly, ?_⟩
  rintro extension rfl
  refine exactly.mpr ?_
  have distinct := FileTree.nodup_of_discover found
  exact distinct.sublist (List.filter_sublist.map DiscoveredModule.name)

/-- A directory with a module that is no text. -/
def unreadableFile : FileTree :=
  (FileTree.empty.build "pkg/client.py" (.text "")).build "pkg/tools.py" .binary

/-- One module is kept and one reported. -/
theorem discovered_accounted_iff_unreadable :
    unreadableFile.host.discover "pkg" [] ["py"] =
        .ok ([⟨"client", "pkg/client.py"⟩, ⟨"tools", "pkg/tools.py"⟩], []) ∧
      (unreadableFile.host.extract Source.reader
          [⟨"client", "pkg/client.py"⟩, ⟨"tools", "pkg/tools.py"⟩]).1.moduleCount +
        (unreadableFile.host.extract Source.reader
          [⟨"client", "pkg/client.py"⟩, ⟨"tools", "pkg/tools.py"⟩]).2.countP
            Diagnostic.skipsModule = 2 := by
  have found : unreadableFile.host.discover "pkg" [] ["py"] =
      .ok ([⟨"client", "pkg/client.py"⟩, ⟨"tools", "pkg/tools.py"⟩], []) := by
    cbv
  have accounted := discovered_accounted_iff unreadableFile Source.reader "pkg" [] ["py"] _ _ found
  exact ⟨found, accounted.2 "py" rfl⟩

/-- A directory with two files of one stem. -/
def twinFiles : FileTree :=
  (FileTree.empty.build "pkg/client.py" (.text "")).build "pkg/client.pyi" (.text "")

/-- The modules of both files, with both extensions. -/
def twinModules : List DiscoveredModule :=
  [⟨"client", "pkg/client.py"⟩, ⟨"client", "pkg/client.pyi"⟩]

/-- With both extensions, one of the two modules is gone and nothing tells of it. -/
theorem twin_module_unaccounted :
    twinFiles.host.discover "pkg" [] ["py", "pyi"] = .ok (twinModules, []) ∧
      (twinFiles.host.extract Source.reader twinModules).1.moduleCount +
        (twinFiles.host.extract Source.reader twinModules).2.countP Diagnostic.skipsModule ≠
          twinModules.length := by
  have read : twinFiles.host.sources twinModules = ([⟨"client", ""⟩, ⟨"client", ""⟩], []) := rfl
  have kept : (extractPackage Source.reader [⟨"client", ""⟩, ⟨"client", ""⟩]).1.moduleCount = 1 := by
    cbv
  have told : (extractPackage Source.reader [⟨"client", ""⟩, ⟨"client", ""⟩]).2 = [] := by
    cbv
  constructor
  · cbv
  · unfold Host.extract
    rw [read]
    dsimp only
    rw [kept, told]
    decide

end Respell
