import Respell.Command.Run
import Respell.Proofs.Discovery
import Respell.Proofs.Extracted
import Respell.Proofs.Records

/-!
Two ways to respell a package. Respelling its files one by one, in the order of module names, prints
what respelling the whole directory prints, and records the same, apart from what only a directory
can lack or leave out.
-/

set_option autoImplicit false

namespace Respell

/-! ### Modules in the order of their names -/

/-- Discovered modules in the order of their names. -/
def inNameOrder (modules : List DiscoveredModule) : List DiscoveredModule :=
  modules.mergeSort fun a b => a.name ≤ b.name

theorem perm_inNameOrder (modules : List DiscoveredModule) : (inNameOrder modules).Perm modules :=
  List.mergeSort_perm _ _

theorem allModules_extract (host : Host) (reader : Reader) {modules : List DiscoveredModule}
    (distinct : (modules.map DiscoveredModule.name).Nodup) :
    (host.extract reader modules).1.allModules =
      (inNameOrder modules).filterMap (host.module? reader) := by
  -- both lists are strictly increasing in names, so it is enough that they have the same members
  have left := (host.keyed_extract reader modules).increasing_allModules
  have right : ((inNameOrder modules).filterMap (host.module? reader)).Pairwise
      fun a b => a.name < b.name := by
    refine List.pairwise_filterMap.mpr
      ((increasing_mergeSort DiscoveredModule.name distinct).imp ?_)
    intro module other less unit found second further
    rw [Host.name_of_module? found, Host.name_of_module? further]
    exact less
  have nodup {units : List ModuleUnit} (increasing : units.Pairwise fun a b => a.name < b.name) :
      units.Nodup :=
    increasing.imp fun less same => String.ne_of_lt less (congrArg ModuleUnit.name same)
  refine List.Perm.eq_of_pairwise ?_ left right
    ((List.perm_ext_iff_of_nodup (nodup left) (nodup right)).mpr ?_)
  · intro a b _ _ less more
    exact absurd (String.lt_trans less more) (String.lt_irrefl _)
  · intro unit
    rw [host.mem_allModules_extract reader distinct, List.mem_filterMap]
    simp only [(perm_inNameOrder modules).mem_iff]

/-! ### Files one by one -/

/-- The texts of the functions of a discovered module, in the order of their names. -/
def Host.texts (host : Host) (reader : Reader) (table : TokenTable) (module : DiscoveredModule) :
    List String :=
  (host.module? reader module).toList.flatMap fun unit => (unit.respellFunctions table).1.values

/-- What is recorded when the functions of a discovered module are rendered. -/
def Host.renderingRecords (host : Host) (reader : Reader) (table : TokenTable)
    (module : DiscoveredModule) : Diagnostics :=
  (host.module? reader module).toList.flatMap fun unit => (unit.respellFunctions table).2

theorem listing_append (first second : List String) :
    listing (first ++ second) = listing first ++ listing second := by
  simp [listing, String.join_append]

theorem listing_flatMap {α : Type} (texts : α → List String) (items : List α) :
    listing (items.flatMap texts) = String.join (items.map fun item => listing (texts item)) := by
  induction items with
  | nil => rfl
  | cons item rest ih =>
      rw [List.flatMap_cons, listing_append, ih, List.map_cons, String.join_cons]

/-- A discovered module that can be listed is respelled by its path as it is in its package. -/
theorem respellFile_of_discovered {host : Host} {module : DiscoveredModule} (table : TokenTable)
    {directory : String} {fileName : FileName}
    (named : moduleName? Source.reader.extensions fileName.text = some module.name)
    (placed : module.path = Path.join directory fileName.text)
    (listed : host.lists Source.reader module = true) :
    respellFile host .standard table module.path =
      .ok (listing (host.texts Source.reader table module),
        host.moduleRecords Source.reader module ++
          host.renderingRecords Source.reader table module) := by
  obtain ⟨extension, known, splits⟩ := moduleName?_eq_some_iff.mp named
  have divided := Path.divide_eq_some_iff.mpr splits
  have stem : Path.stem? module.path = some module.name := by
    rw [placed, Path.stem?_join, divided]
  have reader : Registry.standard.forExtension? ((Path.extension? module.path).getD "") =
      some Source.reader := by
    rw [placed, Path.extension?_join, divided, List.mem_singleton.mp known]
    rfl
  unfold Host.lists at listed
  cases read : host.readText module.path with
  | error cause =>
      rw [read] at listed
      cases listed
  | ok source =>
      rw [read] at listed
      cases members : Source.reader.members source with
      | error cause =>
          dsimp only at listed
          rw [members] at listed
          cases listed
      | ok found =>
          simp [respellFile, reader, read, members, stem, Host.texts, Host.moduleRecords,
            Host.renderingRecords, Host.module?, Host.source?, Reader.module?, sourceRecords,
            extractSource, Except.toOption]

theorem respellFiles_eq {host : Host} {registry : Registry} {table : TokenTable}
    {modules : List DiscoveredModule} {text : DiscoveredModule → String}
    {records : DiscoveredModule → Diagnostics}
    (each : ∀ module ∈ modules,
      respellFile host registry table module.path = .ok (text module, records module)) :
    respellFiles host registry table (modules.map DiscoveredModule.path) =
      (String.join (modules.map text), .ok (modules.flatMap records)) := by
  induction modules with
  | nil => rfl
  | cons module rest ih =>
      rw [List.map_cons, respellFiles, each module (List.mem_cons_self ..)]
      dsimp only
      rw [ih fun other member => each other (List.mem_cons_of_mem module member), List.map_cons,
        String.join_cons, List.flatMap_cons]
      rfl

/-! ### The package as a whole -/

theorem values_respell {units : PackageUnits} (keyed : units.Keyed) (table : TokenTable) :
    (units.respell table).1.values.flatMap NameMap.values =
      units.allModules.flatMap fun unit => (unit.respellFunctions table).1.values := by
  rw [NameMap.values, keyed.entries_respell, List.map_map, List.flatMap_map]
  induction units.allModules with
  | nil => rfl
  | cons unit rest ih =>
      rw [List.flatMap_cons, ← ih]
      by_cases nonempty : 0 < unit.functions.size
      · simp [nonempty]
      · -- a module without functions is left out, and has no text to leave out
        have none : (unit.respellFunctions table).1.values = [] := by
          have empty : unit.functions.entries = [] :=
            List.eq_nil_of_length_eq_zero (Nat.eq_zero_of_not_pos nonempty)
          simp [ModuleUnit.respellFunctions, NameMap.map, NameMap.values, empty]
        simp [nonempty, none]

theorem records_respell_eq (units : PackageUnits) (table : TokenTable) :
    (units.respell table).2 =
      units.allModules.flatMap fun unit => (unit.respellFunctions table).2 := by
  rw [PackageUnits.records_respell, PackageUnits.jobs, List.flatMap_assoc]
  simp only [List.flatMap_map]
  rfl

/-! ### What each way records -/

/-- Whether a record is about a directory: what is left out of it, or missing in it. -/
def Diagnostic.ofDirectory (record : Diagnostic) : Bool :=
  record.kind = .skippedModule || record.kind = .missingCollaborator

theorem not_ofDirectory_of_isRendering {record : Diagnostic}
    (own : record.kind.isRendering = true) : record.ofDirectory = false := by
  cases kind : record.kind <;> simp_all [Diagnostic.ofDirectory, DiagnosticKind.isRendering]

/-- What is recorded about a package. -/
def packageRecords (host : Host) (table : TokenTable) (modules : List DiscoveredModule)
    (skipped : Diagnostics) : Diagnostics :=
  skipped ++ (host.extract Source.reader modules).2 ++
    ((host.extract Source.reader modules).1.respell table).2

/-- Of all that is recorded about a package, records of directories apart, the records about members
and those of rendering are left. -/
theorem filter_packageRecords {host : Host} {modules : List DiscoveredModule}
    {skipped : Diagnostics} (table : TokenTable)
    (distinct : (modules.map DiscoveredModule.name).Nodup)
    (listed : ∀ module ∈ modules, host.lists Source.reader module = true)
    (left : ∀ record ∈ skipped, record.kind = .skippedModule) :
    (packageRecords host table modules skipped).filter (!·.ofDirectory) =
      modules.flatMap (host.moduleRecords Source.reader) ++
        (inNameOrder modules).flatMap (host.renderingRecords Source.reader table) := by
  have skips : skipped.filter (!·.ofDirectory) = [] := by
    refine List.filter_eq_nil_iff.mpr fun record member => ?_
    simp [Diagnostic.ofDirectory, left record member]
  have unread : modules.flatMap host.unread = [] := by
    refine List.flatMap_eq_nil_iff.mpr fun module member => (host.unread_eq_nil_iff module).mpr ?_
    have found := (host.isSome_module? Source.reader module).trans (listed module member)
    cases read : host.source? module with
    | none => simp [Host.module?, read] at found
    | some source => rfl
  have missing : (if (host.extract Source.reader modules).1.client.isSome then [] else
      [missingClient] : Diagnostics).filter (!·.ofDirectory) = [] := by
    split <;> rfl
  have members : (modules.flatMap (host.moduleRecords Source.reader)).filter (!·.ofDirectory) =
      modules.flatMap (host.moduleRecords Source.reader) := by
    refine List.filter_eq_self.mpr fun record member => ?_
    obtain ⟨module, -, made⟩ := List.mem_flatMap.mp member
    obtain ⟨source, -, made⟩ := List.mem_flatMap.mp made
    obtain ⟨message, rfl⟩ := report_of_mem_sourceRecords made
    rfl
  have rendering : ((host.extract Source.reader modules).1.respell table).2.filter (!·.ofDirectory) =
      (inNameOrder modules).flatMap (host.renderingRecords Source.reader table) := by
    have all : ((host.extract Source.reader modules).1.respell table).2 =
        (inNameOrder modules).flatMap (host.renderingRecords Source.reader table) := by
      rw [records_respell_eq, allModules_extract host Source.reader distinct, flatMap_filterMap_eq]
      rfl
    rw [← all]
    refine List.filter_eq_self.mpr fun record member => ?_
    rw [PackageUnits.records_respell] at member
    obtain ⟨job, -, made⟩ := List.mem_flatMap.mp member
    rw [not_ofDirectory_of_isRendering (respell_isRendering table _ record made)]
    rfl
  rw [packageRecords, Host.extract_records, unread]
  simp only [List.filter_append, skips, members, missing, rendering, List.nil_append,
    List.append_nil]

/-! ### Both commands -/

theorem output_outcome (job : Job) (deny : Bool) : (job.outcome deny).output = job.printed := by
  unfold Job.outcome
  split
  · rfl
  · split <;> rfl

theorem output_run {command : Command} {tree : FileTree}
    (unwritten : (command.job tree.host).written = none) (deny : Bool) :
    (Invocation.run ⟨command, deny⟩ tree).2.output = (command.job tree.host).printed := by
  unfold Invocation.run
  dsimp only
  rw [unwritten]
  exact output_outcome _ deny

/-- Files of a directory, respelled in the order of module names. -/
theorem job_files {tree : FileTree} {directory : String} {excluded : List String}
    {modules : List DiscoveredModule} {skipped : Diagnostics} {path : String} {table : TokenTable}
    (loaded : tree.host.loadTable path = .ok table)
    (found : tree.host.discover directory excluded Source.reader.extensions =
      .ok (modules, skipped))
    (listed : ∀ module ∈ modules, tree.host.lists Source.reader module = true) :
    (Command.files path ((inNameOrder modules).map DiscoveredModule.path)).job tree.host =
      ⟨listing ((inNameOrder modules).flatMap (tree.host.texts Source.reader table)), none,
        .ok ((inNameOrder modules).flatMap fun module =>
          tree.host.moduleRecords Source.reader module ++
            tree.host.renderingRecords Source.reader table module)⟩ := by
  obtain ⟨entries, -, given⟩ := FileTree.discover_eq_ok_iff.mp found
  have each : ∀ module ∈ inNameOrder modules,
      respellFile tree.host .standard table module.path =
        .ok (listing (tree.host.texts Source.reader table module),
          tree.host.moduleRecords Source.reader module ++
            tree.host.renderingRecords Source.reader table module) := by
    intro module member
    have among := (perm_inNameOrder modules).mem_iff.mp member
    have origin : module ∈ (discover directory excluded Source.reader.extensions entries).1 := by
      rw [given]
      exact among
    obtain ⟨entry, -, made⟩ := mem_discover_iff.mp origin
    obtain ⟨named, placed⟩ := of_mem_discoverEntry made
    exact respellFile_of_discovered table named placed (listed module among)
  rw [listing_flatMap]
  simp only [Command.job, Command.table, loaded]
  rw [respellFiles_eq each]

/-- The output for a package. -/
def packageText (host : Host) (table : TokenTable) (options : PackageOptions)
    (modules : List DiscoveredModule) (skipped : Diagnostics) : String :=
  options.text ((host.extract Source.reader modules).1.respell table).1
    (packageRecords host table modules skipped)

theorem job_package {tree : FileTree} {options : PackageOptions} {modules : List DiscoveredModule}
    {skipped : Diagnostics} {table : TokenTable}
    (loaded : tree.host.loadTable options.table = .ok table)
    (found : tree.host.discover options.directory options.excluded Source.reader.extensions =
      .ok (modules, skipped)) :
    (Command.package options).job tree.host =
      ⟨if options.output.isSome then "" else packageText tree.host table options modules skipped,
        options.output.map fun path =>
          (path, packageText tree.host table options modules skipped),
        .ok (packageRecords tree.host table modules skipped)⟩ := by
  simp only [Command.job, Command.table, loaded, respellPackage, found]
  cases options.output <;> rfl

/-- Without a report, the output holds the texts of the modules in the order of their names. -/
theorem packageText_plain {host : Host} {options : PackageOptions}
    {modules : List DiscoveredModule} (table : TokenTable) (skipped : Diagnostics)
    (plain : options.json = false) (distinct : (modules.map DiscoveredModule.name).Nodup) :
    packageText host table options modules skipped =
      listing ((inNameOrder modules).flatMap (host.texts Source.reader table)) := by
  unfold packageText PackageOptions.text
  rw [if_neg (by simp [plain]), values_respell (host.keyed_extract Source.reader modules),
    allModules_extract host Source.reader distinct, flatMap_filterMap_eq]
  rfl

/-- Respelling the files of a package agrees with respelling the package. Let every module that is
found in a directory be one that can be read and listed. Then the files, given in the order of module
names, and the directory are both respelled; the outputs are the same, whether or not diagnostics are
denied; and the files leave the records of the directory, up to order, apart from those about modules
that are skipped or missing. -/
theorem files_agree_with_package (tree : FileTree) (options : PackageOptions) (table : TokenTable)
    (modules : List DiscoveredModule) (skipped : Diagnostics)
    (plain : options.json = false) (printed : options.output = none)
    (loaded : tree.host.loadTable options.table = .ok table)
    (found : tree.host.discover options.directory options.excluded Source.reader.extensions =
      .ok (modules, skipped))
    (listed : ∀ module ∈ modules, tree.host.lists Source.reader module = true) :
    let files := Command.files options.table ((inNameOrder modules).map DiscoveredModule.path)
    (∀ deny, (Invocation.run ⟨files, deny⟩ tree).2.output =
      (Invocation.run ⟨.package options, deny⟩ tree).2.output) ∧
    ∃ records packaged, (files.job tree.host).result = .ok records ∧
      ((Command.package options).job tree.host).result = .ok packaged ∧
      records.Perm (packaged.filter (!·.ofDirectory)) := by
  intro files
  have one := job_files loaded found listed
  have whole := job_package loaded found
  have distinct := FileTree.nodup_of_discover found
  rw [printed, packageText_plain table skipped plain distinct] at whole
  constructor
  · intro deny
    rw [output_run (by rw [one]), output_run (by rw [whole]; rfl), one, whole]
    rfl
  · refine ⟨_, _, by rw [one], by rw [whole], ?_⟩
    obtain ⟨entries, -, given⟩ := FileTree.discover_eq_ok_iff.mp found
    have left : ∀ record ∈ skipped, record.kind = .skippedModule := by
      intro record member
      have made : record ∈
          (discover options.directory options.excluded Source.reader.extensions entries).2 := by
        rw [given]
        exact member
      exact kind_of_mem_discover made
    rw [filter_packageRecords table distinct listed left]
    -- file by file, what is read and what is rendered alternate; for the package they are apart
    refine (List.flatMap_append_perm _ _ _).symm.trans (List.Perm.append_right _ ?_)
    exact (perm_inNameOrder modules).flatMap_right _

/-- A token table, and a directory with two modules, a package and a module that is left out. -/
def mixedDirectory : FileTree :=
  ((((FileTree.empty.build "tokens.json" (.text "{}")).build "pkg/client.py" (.text "")).build
    "pkg/parts/__init__.py" (.text "")).build "pkg/test_it.py" (.text "")).build "pkg/tools.py"
      (.text "def f(): x")

/-- Respells the directory to standard output. -/
def mixedOptions : PackageOptions := ⟨"tokens.json", ["test"], none, false, none, "pkg"⟩

/-- The function cannot be rendered without tokens, and both ways tell so. -/
theorem files_agree_with_package_mixed :
    ∃ table modules skipped, modules.length = 2 ∧ skipped.length = 2 ∧
      mixedDirectory.host.loadTable mixedOptions.table = .ok table ∧
      mixedDirectory.host.discover mixedOptions.directory mixedOptions.excluded
        Source.reader.extensions = .ok (modules, skipped) ∧
      ∃ records packaged,
        ((Command.files mixedOptions.table
          ((inNameOrder modules).map DiscoveredModule.path)).job mixedDirectory.host).result =
            .ok records ∧
        ((Command.package mixedOptions).job mixedDirectory.host).result = .ok packaged ∧
        records.Perm (packaged.filter (!·.ofDirectory)) := by
  have loaded : mixedDirectory.host.loadTable mixedOptions.table = .ok .empty := by
    have read : mixedDirectory.host.readText "tokens.json" = .ok "{}" := rfl
    unfold Host.loadTable mixedOptions
    rw [read]
    cbv
  have found : mixedDirectory.host.discover mixedOptions.directory mixedOptions.excluded
      Source.reader.extensions =
        .ok ([⟨"client", "pkg/client.py"⟩, ⟨"tools", "pkg/tools.py"⟩],
          [⟨.warning, .skippedModule, "sub-package pkg/parts skipped"⟩,
            ⟨.debug, .skippedModule, "module test_it skipped (excluded prefix \"test\")"⟩]) := by
    refine FileTree.discover_eq_ok_iff.mpr ⟨_, rfl, ?_⟩
    unfold discover
    rw [List.mergeSort_of_pairwise (by decide)]
    rfl
  have client : mixedDirectory.host.lists Source.reader ⟨"client", "pkg/client.py"⟩ = true := by
    have read : mixedDirectory.host.readText "pkg/client.py" = .ok "" := rfl
    unfold Host.lists
    rw [read]
    cbv
  have tools : mixedDirectory.host.lists Source.reader ⟨"tools", "pkg/tools.py"⟩ = true := by
    have read : mixedDirectory.host.readText "pkg/tools.py" = .ok "def f(): x" := rfl
    unfold Host.lists
    rw [read]
    cbv
  exact ⟨.empty, _, _, rfl, rfl, loaded, found,
    (files_agree_with_package mixedDirectory mixedOptions .empty _ _ rfl rfl loaded found
      (by simp [client, tools])).2⟩

end Respell
