import Respell.Package.Host
import Respell.Proofs.PackageRendering

/-!
Extraction as a whole. A list of members, of module sources or of discovered modules gives what each
of them gives by itself: units, of which the last one under a name stays, and records, one after the
other.
-/

set_option autoImplicit false

namespace Respell

open Syntax (Member)

namespace NameMap

variable {α : Type}

/-- The map of values under names of their own; the last value of a name stays. -/
def ofValues (name : α → String) (values : List α) : NameMap α :=
  ofList (values.map fun value => (name value, value))

theorem get?_ofValues (name : α → String) (values : List α) (sought : String) :
    (ofValues name values).get? sought = values.reverse.find? fun value => name value == sought := by
  rw [ofValues, get?_ofList, ← List.map_reverse]
  induction values.reverse with
  | nil => rfl
  | cons first rest ih =>
      rw [List.map_cons, List.lookup_cons, List.find?_cons, ih, Bool.beq_comm]

theorem ofValues_perm {name : α → String} {first second : List α} (perm : first.Perm second)
    (distinct : (first.map name).Nodup) : ofValues name first = ofValues name second := by
  refine ofList_perm (perm.map _) ?_
  rw [List.map_map]
  exact distinct

end NameMap

theorem flatMap_filterMap_eq {α β γ : Type} (some? : α → Option β) (more : β → List γ)
    (items : List α) :
    (items.filterMap some?).flatMap more =
      items.flatMap fun item => (some? item).toList.flatMap more := by
  rw [List.filterMap_eq_flatMap_toList, List.flatMap_assoc]

/-- What is made of some items, under the names of these, bears some of their names in order. -/
theorem map_filterMap_sublist {α β : Type} {some? : α → Option β} {key : α → String}
    {name : β → String} (named : ∀ {item made}, some? item = some made → name made = key item)
    (items : List α) : ((items.filterMap some?).map name).Sublist (items.map key) := by
  induction items with
  | nil => exact .slnil
  | cons item rest ih =>
      cases made : some? item with
      | none =>
          rw [List.filterMap_cons_none made]
          exact ih.cons _
      | some value =>
          rw [List.filterMap_cons_some made, List.map_cons, named made]
          exact ih.cons_cons _

/-! ### Members -/

/-- The function that a member is read as. -/
def Reader.function? (reader : Reader) (member : Member) : Option FunctionUnit :=
  match member.kind with
  | .callable source => (FunctionUnit.ofSource reader source).toOption
  | _ => none

/-- The reference that a member stands for. -/
def ImportUnit.ofMember? (member : Member) : Option ImportUnit :=
  match member.kind with
  | .submodule path => some ⟨member.name, path⟩
  | _ => none

/-- What is recorded about a member of a module. -/
def memberRecords (reader : Reader) (module : String) (member : Member) : Diagnostics :=
  (extractMember reader (.new module) member).2

theorem report_of_mem_memberRecords {reader : Reader} {module : String} {member : Member}
    {record : Diagnostic} (made : record ∈ memberRecords reader module member) :
    ∃ message, record = .report .extractionFailure message := by
  unfold memberRecords extractMember at made
  split at made
  next source shape =>
    split at made
    next => cases made
    next cause failed => exact ⟨_, List.mem_singleton.mp made⟩
  next => cases made
  next => cases made

theorem extractMember_eq (reader : Reader) (module : ModuleUnit) (member : Member) :
    extractMember reader module member =
      (⟨module.name,
        (reader.function? member).toList.foldl (fun map unit => map.insert unit.name unit)
          module.functions,
        (ImportUnit.ofMember? member).toList.foldl (fun map unit => map.insert unit.name unit)
          module.imports⟩,
        memberRecords reader module.name member) := by
  obtain ⟨name, kind⟩ := member
  cases kind with
  | callable source =>
      cases read : FunctionUnit.ofSource reader source with
      | ok unit => simp [extractMember, memberRecords, Reader.function?, ImportUnit.ofMember?, read,
          Except.toOption, ModuleUnit.addFunction]
      | error cause => simp [extractMember, memberRecords, Reader.function?, ImportUnit.ofMember?,
          read, Except.toOption, ModuleUnit.new]
  | submodule path => rfl
  | other shape => rfl

theorem extractMembers_eq (reader : Reader) (module : ModuleUnit) (members : List Member) :
    extractMembers reader module members =
      (⟨module.name,
        (members.filterMap reader.function?).foldl (fun map unit => map.insert unit.name unit)
          module.functions,
        (members.filterMap ImportUnit.ofMember?).foldl (fun map unit => map.insert unit.name unit)
          module.imports⟩,
        members.flatMap (memberRecords reader module.name)) := by
  -- the unit grows along the list, so the maps to start from are left open
  induction members generalizing module with
  | nil => rfl
  | cons member rest ih =>
      rw [extractMembers, extractMember_eq]
      dsimp only
      rw [ih]
      cases function : reader.function? member <;> cases reference : ImportUnit.ofMember? member <;>
        simp [function, reference]

/-- The unit of a module holds the functions and references of the members that its policy admits,
and the records are those about them. -/
theorem extractModule_eq (reader : Reader) (policy : Policy) (name : String)
    (members : List Member) :
    extractModule reader policy name members =
      (⟨name, .ofValues FunctionUnit.name ((members.filter policy.admits).filterMap reader.function?),
        .ofValues ImportUnit.name ((members.filter policy.admits).filterMap ImportUnit.ofMember?)⟩,
        (members.filter policy.admits).flatMap (memberRecords reader name)) := by
  rw [extractModule, extractMembers_eq]
  simp only [NameMap.ofValues, NameMap.ofList, List.foldl_map]
  rfl

/-! ### Modules -/

/-- The unit of a module source, if its members can be listed. -/
def Reader.module? (reader : Reader) (module : ModuleSource) : Option ModuleUnit :=
  (reader.members module.source).toOption.map fun members =>
    (extractModule reader (Policy.forModule module.name) module.name members).1

/-- What is recorded about a module source. -/
def sourceRecords (reader : Reader) (module : ModuleSource) : Diagnostics :=
  (extractSource reader .empty module).2

theorem report_of_mem_sourceRecords {reader : Reader} {source : ModuleSource} {record : Diagnostic}
    (made : record ∈ sourceRecords reader source) :
    ∃ message, record = .report .extractionFailure message := by
  unfold sourceRecords extractSource at made
  split at made
  next members listed =>
    rw [extractModule_eq] at made
    obtain ⟨member, -, made⟩ := List.mem_flatMap.mp made
    exact report_of_mem_memberRecords made
  next cause listed => exact ⟨_, List.mem_singleton.mp made⟩

theorem Reader.name_of_module? {reader : Reader} {source : ModuleSource} {module : ModuleUnit}
    (found : reader.module? source = some module) : module.name = source.name := by
  obtain ⟨members, -, rfl⟩ := Option.map_eq_some_iff.mp found
  exact extractModule_name reader _ _ members

theorem extractSource_eq (reader : Reader) (units : PackageUnits) (module : ModuleSource) :
    extractSource reader units module =
      ((reader.module? module).toList.foldl PackageUnits.add units, sourceRecords reader module) := by
  cases listed : reader.members module.source <;>
    simp [extractSource, sourceRecords, Reader.module?, listed, Except.toOption]

theorem extractSources_eq (reader : Reader) (units : PackageUnits) (modules : List ModuleSource) :
    extractSources reader units modules =
      ((modules.filterMap reader.module?).foldl PackageUnits.add units,
        modules.flatMap (sourceRecords reader)) := by
  induction modules generalizing units with
  | nil => rfl
  | cons module rest ih =>
      rw [extractSources, extractSource_eq]
      dsimp only
      rw [ih]
      cases found : reader.module? module <;> simp [found]

namespace PackageUnits

/-- The module of a name, be it the client or another one. -/
def module? (units : PackageUnits) (name : String) : Option ModuleUnit :=
  if name = clientModule then units.client else units.modules.get? name

@[simp]
theorem module?_empty (name : String) : empty.module? name = none := by
  simp [module?, empty]

/-- Adding a module changes the look-up of its own name and no other. -/
theorem module?_add (units : PackageUnits) (module : ModuleUnit) (name : String) :
    (units.add module).module? name =
      if name = module.name then some module else units.module? name := by
  unfold module? add
  by_cases isClient : module.name = clientModule
  · rw [(Policy.forModule_eq_client_iff _).mpr isClient, isClient]
    split <;> rfl
  · have uniform : Policy.forModule module.name = .uniform := by
      simp [Policy.forModule, isClient]
    rw [uniform]
    by_cases sought : name = clientModule
    · subst sought
      simp [Ne.symm isClient]
    · simp only [sought, if_false, NameMap.get?_insert]

/-- The last module of a name stays. -/
theorem module?_foldl_add (units : PackageUnits) (modules : List ModuleUnit) (name : String) :
    (modules.foldl add units).module? name =
      (modules.reverse.find? fun module => module.name == name).or (units.module? name) := by
  induction modules generalizing units with
  | nil => simp
  | cons first rest ih =>
      rw [List.foldl_cons, ih, module?_add, List.reverse_cons, List.find?_append, Option.or_assoc]
      by_cases same : name = first.name
      · simp [same]
      · have differs : (first.name == name) = false := by simpa using Ne.symm same
        simp [same, differs]

theorem add_comm (units : PackageUnits) {first second : ModuleUnit}
    (distinct : first.name ≠ second.name) :
    (units.add first).add second = (units.add second).add first := by
  -- only two clients would be kept in one place, and these have one name
  have notBoth (isClient : first.name = clientModule) (also : second.name = clientModule) : False :=
    distinct (isClient.trans also.symm)
  unfold add
  cases here : Policy.forModule first.name <;> cases there : Policy.forModule second.name
  · simp only [NameMap.insert_comm _ distinct]
  · rfl
  · rfl
  · exact (notBoth ((Policy.forModule_eq_client_iff _).mp here)
      ((Policy.forModule_eq_client_iff _).mp there)).elim

/-- If all names are different, a module is found under a name exactly if it was added with it. -/
theorem module?_foldl_add_eq_some_iff {modules : List ModuleUnit}
    (distinct : (modules.map ModuleUnit.name).Nodup) {name : String} {module : ModuleUnit} :
    (modules.foldl add .empty).module? name = some module ↔
      module ∈ modules ∧ module.name = name := by
  rw [module?_foldl_add, module?_empty, Option.or_none]
  constructor
  · intro found
    have same := List.find?_some found
    exact ⟨List.mem_reverse.mp (List.mem_of_find?_eq_some found), beq_iff_eq.mp same⟩
  · rintro ⟨member, rfl⟩
    cases found : modules.reverse.find? fun other => other.name == module.name with
    | none =>
        have missed := List.find?_eq_none.mp found module (List.mem_reverse.mpr member)
        exact absurd (beq_self_eq_true _) missed
    | some other =>
        have among := List.mem_reverse.mp (List.mem_of_find?_eq_some found)
        have same := List.find?_some found
        rw [List.inj_on_of_nodup_map distinct among member (beq_iff_eq.mp same)]

theorem foldl_add_perm (units : PackageUnits) {first second : List ModuleUnit}
    (perm : first.Perm second) (distinct : (first.map ModuleUnit.name).Nodup) :
    first.foldl add units = second.foldl add units := by
  refine perm.foldl_eq' ?_ units
  intro module member other among units
  by_cases same : module.name = other.name
  · rw [List.inj_on_of_nodup_map distinct member among same]
  · exact add_comm units same

theorem Keyed.name_of_module? {units : PackageUnits} (keyed : units.Keyed) {name : String}
    {module : ModuleUnit} (found : units.module? name = some module) : module.name = name := by
  unfold module? at found
  split at found
  next isClient => rw [keyed.client module found, isClient]
  next => exact keyed.modules name module found

theorem Keyed.mem_allModules_iff {units : PackageUnits} (keyed : units.Keyed) (module : ModuleUnit) :
    module ∈ units.allModules ↔ units.module? module.name = some module := by
  rw [units.perm_allModules.mem_iff, List.mem_append, Option.mem_toList, NameMap.mem_values_iff]
  unfold module?
  by_cases isClient : module.name = clientModule
  · rw [if_pos isClient]
    refine ⟨?_, .inl⟩
    rintro (client | ⟨name, found⟩)
    · exact client
    · -- a module kept among the others is not named for the client
      have named := keyed.modules name module found
      rw [← named, isClient, keyed.apart] at found
      cases found
  · rw [if_neg isClient]
    constructor
    · rintro (client | ⟨name, found⟩)
      · exact absurd (keyed.client module client) isClient
      · exact keyed.modules name module found ▸ found
    · exact fun found => .inr ⟨module.name, found⟩

end PackageUnits

theorem extractPackage_units_eq (reader : Reader) (modules : List ModuleSource) :
    (extractPackage reader modules).1 =
      (modules.filterMap reader.module?).foldl PackageUnits.add .empty := by
  rw [extractPackage_units, extractSources_eq]

/-- The record that a package has no client module. -/
def missingClient : Diagnostic :=
  .report .missingCollaborator ("no " ++ clientModule ++ " module in package")

/-- The records about a package are those about its sources, and one more if no client is left. -/
theorem extractPackage_records (reader : Reader) (modules : List ModuleSource) :
    (extractPackage reader modules).2 =
      modules.flatMap (sourceRecords reader) ++
        if (extractPackage reader modules).1.client.isSome then [] else [missingClient] := by
  rw [extractPackage_units_eq, extractPackage, extractSources_eq]
  dsimp only
  split <;> simp [missingClient]

/-! ### Discovered modules -/

namespace Host

/-- The source of a discovered module, if it can be read. -/
def source? (host : Host) (module : DiscoveredModule) : Option ModuleSource :=
  (host.readText module.path).toOption.map fun source => ⟨module.name, source⟩

/-- What is recorded when a discovered module is read. -/
def unread (host : Host) (module : DiscoveredModule) : Diagnostics := (host.sources [module]).2

/-- What is recorded when the members of a discovered module are listed and read. -/
def moduleRecords (host : Host) (reader : Reader) (module : DiscoveredModule) : Diagnostics :=
  (host.source? module).toList.flatMap (sourceRecords reader)

/-- The unit of a discovered module, if it can be read and its members can be listed. -/
def module? (host : Host) (reader : Reader) (module : DiscoveredModule) : Option ModuleUnit :=
  (host.source? module).bind reader.module?

/-- Whether a discovered module can be read and its members can be listed. -/
def lists (host : Host) (reader : Reader) (module : DiscoveredModule) : Bool :=
  match host.readText module.path with
  | .ok source => (reader.members source).isOk
  | .error _ => false

theorem isSome_module? (host : Host) (reader : Reader) (module : DiscoveredModule) :
    (host.module? reader module).isSome = host.lists reader module := by
  unfold module? source? lists Reader.module?
  cases host.readText module.path with
  | error cause => rfl
  | ok source =>
      cases listed : reader.members source <;>
        simp [listed, Except.toOption, Except.isOk, Except.toBool]

theorem name_of_module? {host : Host} {reader : Reader} {module : DiscoveredModule}
    {unit : ModuleUnit} (found : host.module? reader module = some unit) :
    unit.name = module.name := by
  obtain ⟨source, read, found⟩ := Option.bind_eq_some_iff.mp found
  obtain ⟨text, -, rfl⟩ := Option.map_eq_some_iff.mp read
  exact Reader.name_of_module? found

theorem map_name_filterMap_module? (host : Host) (reader : Reader)
    (modules : List DiscoveredModule) :
    (modules.filterMap (host.module? reader)).map ModuleUnit.name =
      (modules.filter (host.lists reader)).map DiscoveredModule.name := by
  induction modules with
  | nil => rfl
  | cons module rest ih =>
      have here := host.isSome_module? reader module
      cases found : host.module? reader module with
      | none =>
          rw [found] at here
          simp [found, ← here, ih]
      | some unit =>
          rw [found] at here
          simp [found, ← here, ih, name_of_module? found]

theorem unread_eq_nil_iff (host : Host) (module : DiscoveredModule) :
    host.unread module = [] ↔ (host.source? module).isSome = true := by
  cases read : host.readText module.path <;>
    simp [unread, sources, source?, read, Except.toOption]

/-- Discovered modules give the sources that can be read, and what is recorded about the others. -/
theorem sources_eq (host : Host) (modules : List DiscoveredModule) :
    host.sources modules = (modules.filterMap host.source?, modules.flatMap host.unread) := by
  induction modules with
  | nil => rfl
  | cons module rest ih =>
      rw [sources, ih]
      cases read : host.readText module.path <;>
        simp [source?, unread, sources, read, Except.toOption]

theorem extract_units (host : Host) (reader : Reader) (modules : List DiscoveredModule) :
    (host.extract reader modules).1 =
      (modules.filterMap (host.module? reader)).foldl PackageUnits.add .empty := by
  unfold extract
  rw [sources_eq]
  change (extractPackage reader _).1 = _
  rw [extractPackage_units_eq, List.filterMap_filterMap]
  rfl

theorem extract_records (host : Host) (reader : Reader) (modules : List DiscoveredModule) :
    (host.extract reader modules).2 =
      modules.flatMap host.unread ++
        (modules.flatMap (host.moduleRecords reader) ++
          if (host.extract reader modules).1.client.isSome then [] else [missingClient]) := by
  have members : modules.flatMap (host.moduleRecords reader) =
      (modules.filterMap host.source?).flatMap (sourceRecords reader) := by
    rw [flatMap_filterMap_eq]
    rfl
  unfold extract
  rw [sources_eq, members]
  dsimp only
  rw [extractPackage_records]

theorem keyed_extract (host : Host) (reader : Reader) (modules : List DiscoveredModule) :
    (host.extract reader modules).1.Keyed := by
  unfold extract
  rw [sources_eq]
  exact keyed_extractPackage reader _

/-- A name is in the package exactly if a module of that name can be read and listed. -/
theorem isSome_module?_extract (host : Host) (reader : Reader) (modules : List DiscoveredModule)
    (name : String) :
    ((host.extract reader modules).1.module? name).isSome = true ↔
      name ∈ (modules.filter (host.lists reader)).map DiscoveredModule.name := by
  rw [extract_units, PackageUnits.module?_foldl_add, PackageUnits.module?_empty, Option.or_none,
    List.find?_isSome, ← map_name_filterMap_module?]
  simp [List.mem_map]

/-- If all names are different, the modules of the package are the units of the discovered ones. -/
theorem mem_allModules_extract (host : Host) (reader : Reader) {modules : List DiscoveredModule}
    (distinct : (modules.map DiscoveredModule.name).Nodup) {unit : ModuleUnit} :
    unit ∈ (host.extract reader modules).1.allModules ↔
      ∃ module ∈ modules, host.module? reader module = some unit := by
  have names : ((modules.filterMap (host.module? reader)).map ModuleUnit.name).Nodup :=
    distinct.sublist (map_filterMap_sublist name_of_module? modules)
  rw [(host.keyed_extract reader modules).mem_allModules_iff, extract_units,
    PackageUnits.module?_foldl_add_eq_some_iff names, List.mem_filterMap]
  exact and_iff_left rfl

end Host

end Respell
