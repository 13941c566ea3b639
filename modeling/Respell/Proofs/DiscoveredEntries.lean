import Respell.Proofs.Discovery
import Respell.Proofs.PackageRendering

/-!
What discovery makes of everything in a directory. A file is a module if its extension is listed,
its stem does not mark a package and no excluded text comes first in the stem; with such a text it
is left out with a note. A directory inside is left out with a warning if it holds a file that marks
a package. Nothing else leaves a trace.
-/

set_option autoImplicit false

namespace Respell

/-! ### Items of a file tree -/

namespace FileTree

/-- Whether something other than a directory stands at a place. -/
def IsFile (tree : FileTree) (place : Place) : Prop :=
  ∃ item, tree.item? place = some item ∧ item ≠ .directory

variable {tree : FileTree} {place : Place}

theorem child?_eq_some_iff {item : Place × FileItem} {child : FileName × FileItem} :
    child? place item = some child ↔ item = (place ++ [child.1], child.2) := by
  constructor
  · intro found
    have above := place_of_child? found
    obtain ⟨at_place, kind⟩ := item
    obtain rfl : at_place = place ++ [child.1] := above
    simp only [child?, List.getLast?_concat, List.dropLast_concat, beq_self_eq_true, if_true,
      Option.some.injEq] at found
    rw [← found]
  · rintro rfl
    simp [child?]

theorem item?_eq_some_iff {item : FileItem} (below : place ≠ []) :
    tree.item? place = some item ↔ (place, item) ∈ tree.items := by
  rw [item?, if_neg below, Option.map_eq_some_iff]
  constructor
  · rintro ⟨⟨other, _⟩, found, rfl⟩
    obtain rfl : other = place := by simpa using List.find?_some found
    exact List.mem_of_find?_eq_some found
  · intro member
    have some_item : (tree.items.find? fun entry => entry.1 == place).isSome = true :=
      List.find?_isSome.mpr ⟨_, member, by simp⟩
    obtain ⟨⟨other, kind⟩, found⟩ := Option.isSome_iff_exists.mp some_item
    obtain rfl : other = place := by simpa using List.find?_some found
    refine ⟨_, found, ?_⟩
    have places : (tree.items.map Prod.fst).Nodup := List.pairwise_map.mpr tree.distinct
    exact congrArg Prod.snd
      (List.inj_on_of_nodup_map places (List.mem_of_find?_eq_some found) member rfl)

theorem mem_children_iff {name : FileName} {item : FileItem} :
    (name, item) ∈ tree.children place ↔ tree.item? (place ++ [name]) = some item := by
  rw [item?_eq_some_iff (by simp), children, List.mem_filterMap]
  simp only [child?_eq_some_iff]
  constructor
  · rintro ⟨_, member, rfl⟩
    exact member
  · intro member
    exact ⟨_, member, rfl⟩

section Listing

variable (tree place) (extensions : List String)

/-- A file that is a module, unless an excluded text comes first in its stem. -/
structure ModuleFile (name : FileName) (stem : String) : Prop where
  file : tree.IsFile (place ++ [name])
  named : NamesModule extensions name.text stem

/-- A directory with a file that marks a package. -/
structure SubPackage (name : FileName) : Prop where
  directory : tree.item? (place ++ [name]) = some .directory
  marked : ∃ extension ∈ extensions, ∃ marker : FileName,
    marker.text = packageMarker ++ "." ++ extension ∧ tree.IsFile (place ++ [name] ++ [marker])

/-- What is left out of a directory, each with the record about it. -/
inductive LeftOut (directory : String) (excluded : List String) : FileName → Diagnostic → Prop
  | package {name : FileName} : tree.SubPackage place extensions name →
      LeftOut directory excluded name (packageRecord directory name.text)
  | excluded {name : FileName} {stem start : String} : tree.ModuleFile place extensions name stem →
      FirstExcluded excluded stem start → LeftOut directory excluded name (excludedRecord stem start)

variable {tree place extensions}

theorem ModuleFile.exists_item {name : FileName} {stem : String}
    (module : tree.ModuleFile place extensions name stem) :
    ∃ item, tree.item? (place ++ [name]) = some item := by
  obtain ⟨item, found, -⟩ := module.file
  exact ⟨item, found⟩

theorem LeftOut.exists_item {directory : String} {excluded : List String} {name : FileName}
    {record : Diagnostic} (left : tree.LeftOut place extensions directory excluded name record) :
    ∃ item, tree.item? (place ++ [name]) = some item := by
  cases left with
  | package inside => exact ⟨_, inside.directory⟩
  | excluded module => exact module.exists_item

section Found

variable {directory : String} {excluded : List String} {name : FileName} {item : FileItem}
  (found : tree.item? (place ++ [name]) = some item)
include found

theorem isFile_iff_kind :
    tree.IsFile (place ++ [name]) ↔ (tree.entry place (name, item)).kind = .file := by
  cases item <;> simp [IsFile, found, entry]

theorem subPackage_iff_kind :
    tree.SubPackage place extensions name ↔ ∃ files,
      (tree.entry place (name, item)).kind = .directory files ∧
        isPackage extensions files = true := by
  constructor
  · rintro ⟨inside, extension, listed, marker, text, item, below, file⟩
    obtain rfl := Option.some.inj (found.symm.trans inside)
    refine ⟨_, rfl, List.any_eq_true.mpr ⟨extension, listed, ?_⟩⟩
    rw [List.contains_iff_mem, ← text, List.mem_filterMap]
    exact ⟨(marker, item), mem_children_iff.mpr below, if_neg file⟩
  · rintro ⟨files, kind, package⟩
    cases item with
    | text | binary => cases kind
    | directory =>
        obtain rfl := EntryKind.directory.inj kind
        obtain ⟨extension, listed, marked⟩ := List.any_eq_true.mp package
        rw [List.contains_iff_mem, List.mem_filterMap] at marked
        obtain ⟨⟨marker, item⟩, member, given⟩ := marked
        split at given
        next => cases given
        next file =>
          exact ⟨found, extension, listed, marker, Option.some.inj given, item,
            mem_children_iff.mp member, file⟩

theorem mem_discoverEntry_iff {module : DiscoveredModule} :
    module ∈ (discoverEntry directory excluded extensions (tree.entry place (name, item))).1 ↔
      tree.ModuleFile place extensions name module.name ∧
        (∀ start ∈ excluded, ¬start.toList <+: module.name.toList) ∧
        module.path = Path.join directory name.text := by
  have classified := discoverEntry_classified directory excluded extensions
    (tree.entry place (name, item))
  have file := isFile_iff_kind found
  rw [entry_name] at classified
  generalize (tree.entry place (name, item)).kind = kind at classified file
  generalize discoverEntry directory excluded extensions (tree.entry place (name, item)) = given
    at classified ⊢
  constructor
  · intro member
    cases classified with
    | package | folder | other | excluded => cases member
    | module named free =>
        obtain rfl := List.mem_singleton.mp member
        exact ⟨⟨file.mpr rfl, named⟩, free, rfl⟩
  · rintro ⟨⟨plain, named⟩, free, path⟩
    obtain rfl := file.mp plain
    cases classified with
    | other none => exact absurd named (none _)
    | excluded named' first =>
        obtain rfl := named.unique named'
        exact absurd first.starts (free _ first.mem)
    | module named' =>
        obtain ⟨stem, _⟩ := module
        obtain rfl := named.unique named'
        obtain rfl := path
        exact .head _

theorem mem_discoverEntry_records_iff {record : Diagnostic} :
    record ∈ (discoverEntry directory excluded extensions (tree.entry place (name, item))).2 ↔
      tree.LeftOut place extensions directory excluded name record := by
  have classified := discoverEntry_classified directory excluded extensions
    (tree.entry place (name, item))
  have file := isFile_iff_kind found
  have package := @subPackage_iff_kind tree place extensions name item found
  rw [entry_name] at classified
  generalize (tree.entry place (name, item)).kind = kind at classified file package
  generalize discoverEntry directory excluded extensions (tree.entry place (name, item)) = given
    at classified ⊢
  constructor
  · intro member
    cases classified with
    | folder | other | module => cases member
    | package marked =>
        obtain rfl := List.mem_singleton.mp member
        exact .package (package.mpr ⟨_, rfl, marked⟩)
    | excluded named first =>
        obtain rfl := List.mem_singleton.mp member
        exact .excluded ⟨file.mpr rfl, named⟩ first
  · rintro (inside | ⟨⟨plain, named⟩, first⟩)
    · obtain ⟨files, rfl, marked⟩ := package.mp inside
      cases classified with
      | package => exact .head _
      | folder unmarked =>
          rw [marked] at unmarked
          cases unmarked
    · obtain rfl := file.mp plain
      cases classified with
      | other none => exact absurd named (none _)
      | excluded named' first' =>
          obtain rfl := named.unique named'
          obtain rfl := first.unique first'
          exact .head _
      | module named' free =>
          obtain rfl := named.unique named'
          exact absurd first.starts (free _ first.mem)

end Found

section Listed

variable {directory : String} {entries : List Entry} (listed : tree.list directory = .ok entries)
include listed

theorem increasing_list : (entries.mergeSort fun a b => a.name.text ≤ b.name.text).Pairwise
    fun a b => a.name.text < b.name.text := by
  refine increasing_mergeSort (fun entry : Entry => entry.name.text) ?_
  have names := (nodup_list listed).map FileName.text_injective
  rwa [List.map_map] at names

/-- A property of a listed entry is one of what stands under its name. -/
theorem exists_listed_iff (located : tree.locate directory = .ok place) {name : FileName}
    {property : Entry → Prop} :
    (∃ entry ∈ entries.mergeSort (fun a b => a.name.text ≤ b.name.text),
        entry.name = name ∧ property entry) ↔
      ∃ item, tree.item? (place ++ [name]) = some item ∧
        property (tree.entry place (name, item)) := by
  rw [list, located] at listed
  dsimp only at listed
  split at listed
  next =>
    obtain rfl := Except.ok.inj listed
    simp only [List.mem_mergeSort, List.mem_map]
    constructor
    · rintro ⟨_, ⟨⟨other, item⟩, member, rfl⟩, named, holds⟩
      rw [entry_name] at named
      obtain rfl : other = name := named
      exact ⟨item, mem_children_iff.mp member, holds⟩
    · rintro ⟨item, found, holds⟩
      exact ⟨_, ⟨_, mem_children_iff.mpr found, rfl⟩, entry_name .., holds⟩
  next => cases listed

end Listed

end Listing

end FileTree

/-! ### Whole directories -/

section Run

variable (directory : String) (excluded extensions : List String)

theorem run_foldlM_discoverEntryInto (modules : List DiscoveredModule) (entries : List Entry)
    (records : Diagnostics) :
    (entries.foldlM (discoverEntryInto directory excluded extensions) modules).run records =
      (modules ++ entries.flatMap
          (fun entry => (discoverEntry directory excluded extensions entry).1),
        records ++ entries.flatMap
          fun entry => (discoverEntry directory excluded extensions entry).2) := by
  induction entries generalizing modules records with
  | nil =>
      change (modules, records) = (modules ++ [], records ++ [])
      rw [List.append_nil, List.append_nil]
  | cons entry rest ih =>
      rw [List.foldlM_cons, StateT.run_bind]
      change (rest.foldlM (discoverEntryInto directory excluded extensions)
        (modules ++ (discoverEntry directory excluded extensions entry).1)).run
        (records ++ (discoverEntry directory excluded extensions entry).2) = _
      rw [ih, List.append_assoc, List.append_assoc, List.flatMap_cons, List.flatMap_cons]

/-- With a collector, discovery finds the same modules and adds the same records to it. -/
theorem run_host_discoverInto (host : Host) (records : Diagnostics) :
    (host.discoverInto directory excluded extensions).run.run records =
      match host.discover directory excluded extensions with
      | .ok (modules, made) => (.ok modules, records ++ made)
      | .error cause => (.error cause, records) := by
  unfold Host.discoverInto Host.discover
  cases host.list directory with
  | error cause => rfl
  | ok entries =>
      change (Except.ok ((Respell.discoverInto directory excluded extensions entries).run records).1,
        ((Respell.discoverInto directory excluded extensions entries).run records).2) = _
      rw [Respell.discoverInto, run_foldlM_discoverEntryInto, List.nil_append]
      simp [Except.map, Respell.discover, List.flatMap_map]

theorem length_discoverEntry_le (entry : Entry) :
    (discoverEntry directory excluded extensions entry).1.length ≤ 1 ∧
      (discoverEntry directory excluded extensions entry).2.length ≤ 1 := by
  obtain ⟨name, kind⟩ := entry
  have classified := discoverEntry_classified directory excluded extensions ⟨name, kind⟩
  generalize discoverEntry directory excluded extensions ⟨name, kind⟩ = given at classified ⊢
  cases classified <;> simp

end Run

/-- What entries in the order of their names give, at most one thing each, is in the order of the
names. -/
theorem exists_labelled {β : Type} {entries : List Entry} {give : Entry → List β}
    (increasing : entries.Pairwise fun a b => a.name.text < b.name.text)
    (single : ∀ entry, (give entry).length ≤ 1) :
    ∃ given : List (FileName × β), entries.flatMap give = given.map Prod.snd ∧
      (given.Pairwise fun a b => a.1.text < b.1.text) ∧
      ∀ name value, (name, value) ∈ given ↔
        ∃ entry ∈ entries, entry.name = name ∧ value ∈ give entry := by
  refine ⟨entries.flatMap fun entry => (give entry).map (entry.name, ·), ?_, ?_, ?_⟩
  · simp [List.map_flatMap, Function.comp_def]
  · refine List.pairwise_flatMap.mpr ⟨fun entry _ => ?_, increasing.imp ?_⟩
    · have few := single entry
      generalize give entry = values at few
      match values, few with
      | [], _ => simp
      | [_], _ => simp
    · intro entry other less value member value' member'
      obtain ⟨_, -, rfl⟩ := List.mem_map.mp member
      obtain ⟨_, -, rfl⟩ := List.mem_map.mp member'
      exact less
  · intro name value
    simp only [List.mem_flatMap, List.mem_map, Prod.mk.injEq]
    constructor
    · rintro ⟨entry, listed, _, member, same, rfl⟩
      exact ⟨entry, listed, same, member⟩
    · rintro ⟨entry, listed, same, member⟩
      exact ⟨entry, listed, value, member, same, rfl⟩

namespace FileTree

variable {tree : FileTree} {place : Place} {directory : String}

/-- What discovery finds and leaves out in a directory, with the names under which it stands there. -/
theorem exists_discovered (excluded extensions : List String)
    (located : tree.locate directory = .ok place) (inside : tree.item? place = some .directory) :
    ∃ (found : List (FileName × DiscoveredModule)) (leftOut : List (FileName × Diagnostic)),
      tree.host.discover directory excluded extensions =
        .ok (found.map Prod.snd, leftOut.map Prod.snd) ∧
      (found.Pairwise fun a b => a.1.text < b.1.text) ∧
      (∀ name module, (name, module) ∈ found ↔
        tree.ModuleFile place extensions name module.name ∧
          (∀ start ∈ excluded, ¬start.toList <+: module.name.toList) ∧
          module.path = Path.join directory name.text) ∧
      (leftOut.Pairwise fun a b => a.1.text < b.1.text) ∧
      ∀ name record, (name, record) ∈ leftOut ↔
        tree.LeftOut place extensions directory excluded name record := by
  obtain ⟨entries, listed⟩ : ∃ entries, tree.list directory = .ok entries := by
    rw [list, located]
    exact ⟨_, if_pos inside⟩
  have increasing := increasing_list listed
  obtain ⟨found, modules, found_sorted, found_mem⟩ := exists_labelled increasing
    fun entry => (length_discoverEntry_le directory excluded extensions entry).1
  obtain ⟨leftOut, records, leftOut_sorted, leftOut_mem⟩ := exists_labelled increasing
    fun entry => (length_discoverEntry_le directory excluded extensions entry).2
  refine ⟨found, leftOut, ?_, found_sorted, fun name module => ?_, leftOut_sorted,
    fun name record => ?_⟩
  · refine discover_eq_ok_iff.mpr ⟨entries, listed, ?_⟩
    simp only [discover, List.flatMap_map, modules, records]
  · rw [found_mem, exists_listed_iff listed located]
    constructor
    · rintro ⟨item, here, member⟩
      exact (mem_discoverEntry_iff here).mp member
    · intro module
      obtain ⟨item, here⟩ := module.1.exists_item
      exact ⟨item, here, (mem_discoverEntry_iff here).mpr module⟩
  · rw [leftOut_mem, exists_listed_iff listed located]
    constructor
    · rintro ⟨item, here, member⟩
      exact (mem_discoverEntry_records_iff here).mp member
    · intro left
      obtain ⟨item, here⟩ := left.exists_item
      exact ⟨item, here, (mem_discoverEntry_records_iff here).mpr left⟩

theorem exists_place_of_discover {excluded extensions : List String}
    {found : List DiscoveredModule × Diagnostics}
    (discovered : tree.host.discover directory excluded extensions = .ok found) :
    ∃ place, tree.locate directory = .ok place ∧ tree.item? place = some .directory := by
  obtain ⟨entries, listed, -⟩ := discover_eq_ok_iff.mp discovered
  unfold list at listed
  split at listed
  next place located =>
    split at listed
    next inside => exact ⟨place, located, inside⟩
    next => cases listed
  next => cases listed

/-- Only a directory is searched. -/
theorem discover_eq_error (excluded extensions : List String)
    (outside : ∀ place, tree.locate directory = .ok place → tree.item? place ≠ some .directory) :
    tree.host.discover directory excluded extensions = .error (.notDirectory directory) := by
  have failed : tree.list directory = .error (.notDirectory directory) := by
    rw [list]
    split
    next place located => exact if_neg (outside place located)
    next => rfl
  change (tree.list directory).map _ = _
  rw [failed]
  rfl

/-- Everything in a directory is classified once. The modules are the files with a listed extension
whose stem neither marks a package nor starts with an excluded text, in the order of their names; the
collector keeps what was there, followed by one record for each package inside and for each module
that is left out, in the same order. Where there is no directory nothing is recorded. -/
theorem discoverInto_exact (tree : FileTree) (directory : String)
    (excluded extensions : List String) (prior : Diagnostics) :
    (∀ name stem extension, Path.divide name = (stem, some extension) ↔
      Path.Splits name stem extension) ∧
    (∀ place, tree.locate directory = .ok place → tree.item? place = some .directory →
      ∃ (found : List (FileName × DiscoveredModule)) (leftOut : List (FileName × Diagnostic)),
        (tree.host.discoverInto directory excluded extensions).run.run prior =
          (.ok (found.map Prod.snd), prior ++ leftOut.map Prod.snd) ∧
        (found.Pairwise fun a b => a.1.text < b.1.text) ∧
        (∀ name module, (name, module) ∈ found ↔
          tree.ModuleFile place extensions name module.name ∧
            (∀ start ∈ excluded, ¬start.toList <+: module.name.toList) ∧
            module.path = Path.join directory name.text) ∧
        (leftOut.Pairwise fun a b => a.1.text < b.1.text) ∧
        ∀ name record, (name, record) ∈ leftOut ↔
          tree.LeftOut place extensions directory excluded name record) ∧
    ((∀ place, tree.locate directory = .ok place → tree.item? place ≠ some .directory) →
      (tree.host.discoverInto directory excluded extensions).run.run prior =
        (.error (.notDirectory directory), prior)) := by
  refine ⟨fun name stem extension => Path.divide_eq_some_iff, ?_, ?_⟩
  · intro place located inside
    obtain ⟨found, leftOut, discovered, rest⟩ :=
      exists_discovered excluded extensions located inside
    refine ⟨found, leftOut, ?_, rest⟩
    rw [run_host_discoverInto, discovered]
  · intro outside
    rw [run_host_discoverInto, discover_eq_error excluded extensions outside]

end FileTree

/-- Files with several dots, with one that comes first and with an excluded text, a package and a
directory that is none. -/
def dottedFiles : FileTree :=
  (((((FileTree.empty.build "pkg/.py" (.text "")).build "pkg/__init__.py" (.text "")).build
    "pkg/_own.pyi" (.text "")).build "pkg/a.b.py" (.text "")).build "pkg/parts/__init__.pyi"
      .binary).build "pkg/plain.py/x.py" (.text "")

/-- One file is a module, one is left out and so is the package. -/
theorem discoverInto_exact_dotted :
    let prior : Diagnostic := ⟨.error, .extractionFailure, "before"⟩
    ∃ (place : Place) (found : List (FileName × DiscoveredModule))
        (leftOut : List (FileName × Diagnostic)),
      dottedFiles.locate "pkg" = .ok place ∧ dottedFiles.item? place = some .directory ∧
      found.map Prod.snd = [⟨"a.b", "pkg/a.b.py"⟩] ∧
      (∀ name module, (name, module) ∈ found ↔
        dottedFiles.ModuleFile place ["pyi", "py"] name module.name ∧
          (∀ start ∈ ["x", "_"], ¬start.toList <+: module.name.toList) ∧
          module.path = Path.join "pkg" name.text) ∧
      prior :: leftOut.map Prod.snd =
        [prior, excludedRecord "_own" "_", packageRecord "pkg" "parts"] ∧
      ∀ name record, (name, record) ∈ leftOut ↔
        dottedFiles.LeftOut place ["pyi", "py"] "pkg" ["x", "_"] name record := by
  intro prior
  have located : dottedFiles.locate "pkg" = .ok [⟨"pkg", rfl⟩] := rfl
  have inside : dottedFiles.item? [⟨"pkg", rfl⟩] = some .directory := rfl
  have value : dottedFiles.host.discover "pkg" ["x", "_"] ["pyi", "py"] =
      .ok ([⟨"a.b", "pkg/a.b.py"⟩], [excludedRecord "_own" "_", packageRecord "pkg" "parts"]) := by
    refine FileTree.discover_eq_ok_iff.mpr ⟨_, rfl, ?_⟩
    unfold discover
    rw [List.mergeSort_of_pairwise (by decide)]
    rfl
  obtain ⟨found, leftOut, run, -, modules, -, records⟩ :=
    (FileTree.discoverInto_exact dottedFiles "pkg" ["x", "_"] ["pyi", "py"] [prior]).2.1 _ located
      inside
  rw [run_host_discoverInto, value] at run
  obtain ⟨same, same'⟩ := Prod.mk.inj run
  exact ⟨_, found, leftOut, located, inside, (Except.ok.inj same).symm, modules, same'.symm, records⟩

end Respell
