import Respell.Package.Host
import Respell.Proofs.Path

/-!
What discovery finds. Each module comes from a file of the directory that bears its name, and with
one extension no two modules have the same name. The records are about what was left out, and
nothing above the debug level is recorded exactly if no directory inside is a package.
-/

set_option autoImplicit false

namespace Respell

theorem FileName.text_injective : Function.Injective FileName.text := by
  intro first second same
  cases first
  cases second
  congr

/-- A module is named for a file name without one of the extensions. -/
theorem moduleName?_eq_some_iff {extensions : List String} {fileName stem : String} :
    moduleName? extensions fileName = some stem ↔
      ∃ extension ∈ extensions, Path.Splits fileName stem extension := by
  simp only [← Path.divide_eq_some_iff]
  unfold moduleName?
  generalize Path.divide fileName = divided
  obtain ⟨before, _ | extension⟩ := divided
  · simp
  · by_cases listed : extension ∈ extensions <;> simp [listed]

/-- A file name that is a module's, apart from excluded texts. -/
structure NamesModule (extensions : List String) (fileName stem : String) : Prop where
  splits : ∃ extension ∈ extensions, Path.Splits fileName stem extension
  unmarked : stem ≠ packageMarker

theorem NamesModule.unique {extensions : List String} {fileName first second : String}
    (named : NamesModule extensions fileName first)
    (named' : NamesModule extensions fileName second) : first = second := by
  obtain ⟨extension, -, splits⟩ := named.splits
  obtain ⟨extension', -, splits'⟩ := named'.splits
  exact (splits.unique splits').1

/-- The first excluded text that comes first in another one. -/
def FirstExcluded (excluded : List String) (text start : String) : Prop :=
  ∃ before after, excluded = before ++ start :: after ∧ start.toList <+: text.toList ∧
    ∀ other ∈ before, ¬other.toList <+: text.toList

theorem find?_eq_some_iff_firstExcluded {excluded : List String} {text start : String} :
    (excluded.find? fun start => start.toList.isPrefixOf text.toList) = some start ↔
      FirstExcluded excluded text start := by
  simp only [List.find?_eq_some_iff_append, List.isPrefixOf_iff_prefix, Bool.not_eq_true',
    ← Bool.not_eq_true, FirstExcluded]
  tauto

namespace FirstExcluded

variable {excluded : List String} {text first second : String}

theorem mem (found : FirstExcluded excluded text first) : first ∈ excluded := by
  obtain ⟨before, after, rfl, -, -⟩ := found
  simp

theorem starts (found : FirstExcluded excluded text first) : first.toList <+: text.toList := by
  obtain ⟨-, -, -, starts, -⟩ := found
  exact starts

theorem unique (found : FirstExcluded excluded text first)
    (found' : FirstExcluded excluded text second) : first = second :=
  Option.some.inj ((find?_eq_some_iff_firstExcluded.mpr found).symm.trans
    (find?_eq_some_iff_firstExcluded.mpr found'))

end FirstExcluded

/-- The record about a package inside a directory. -/
def packageRecord (directory fileName : String) : Diagnostic :=
  ⟨.warning, .skippedModule, "sub-package " ++ Path.join directory fileName ++ " skipped"⟩

/-- The record about a module with an excluded text. -/
def excludedRecord (stem start : String) : Diagnostic :=
  ⟨.debug, .skippedModule, "module " ++ stem ++ " skipped (excluded prefix " ++ Text.quoted start ++
    ")"⟩

section Entry

variable (directory : String) (excluded extensions : List String)

/-- What an entry can give: a warning if it is a package, a note if it is a module with an excluded
text, a module, or nothing. -/
inductive Classified (fileName : FileName) : EntryKind → List DiscoveredModule × Diagnostics → Prop
  | package {files : List String} : isPackage extensions files = true →
      Classified fileName (.directory files) ([], [packageRecord directory fileName.text])
  | folder {files : List String} : isPackage extensions files = false →
      Classified fileName (.directory files) ([], [])
  | other : (∀ stem, ¬NamesModule extensions fileName.text stem) → Classified fileName .file ([], [])
  | excluded {stem start : String} : NamesModule extensions fileName.text stem →
      FirstExcluded excluded stem start →
      Classified fileName .file ([], [excludedRecord stem start])
  | module {stem : String} : NamesModule extensions fileName.text stem →
      (∀ start ∈ excluded, ¬start.toList <+: stem.toList) →
      Classified fileName .file ([⟨stem, Path.join directory fileName.text⟩], [])

theorem discoverEntry_classified (entry : Entry) :
    Classified directory excluded extensions entry.name entry.kind
      (discoverEntry directory excluded extensions entry) := by
  obtain ⟨fileName, kind⟩ := entry
  cases kind with
  | directory files =>
      unfold discoverEntry
      dsimp only
      split
      next package => exact .package package
      next folder => exact .folder (by simpa using folder)
  | file =>
      unfold discoverEntry
      dsimp only
      split
      next none =>
        refine .other fun stem named => ?_
        rw [moduleName?_eq_some_iff.mpr named.splits] at none
        cases none
      next stem found =>
        have splits := moduleName?_eq_some_iff.mp found
        split
        next marker =>
          refine .other fun other named => ?_
          obtain rfl := Option.some.inj (found.symm.trans (moduleName?_eq_some_iff.mpr named.splits))
          exact named.unmarked (beq_iff_eq.mp marker)
        next unmarked =>
          have named : NamesModule extensions fileName.text stem := ⟨splits, by simpa using unmarked⟩
          split
          next start first => exact .excluded named (find?_eq_some_iff_firstExcluded.mp first)
          next none => exact .module named (by simpa using List.find?_eq_none.mp none)

variable {directory excluded extensions}

theorem of_mem_discoverEntry {entry : Entry} {module : DiscoveredModule}
    (member : module ∈ (discoverEntry directory excluded extensions entry).1) :
    moduleName? extensions entry.name.text = some module.name ∧
      module.path = Path.join directory entry.name.text := by
  obtain ⟨fileName, kind⟩ := entry
  have classified := discoverEntry_classified directory excluded extensions ⟨fileName, kind⟩
  generalize discoverEntry directory excluded extensions ⟨fileName, kind⟩ = given at member classified
  cases classified with
  | package | folder | other | excluded => cases member
  | module named =>
      obtain rfl := List.mem_singleton.mp member
      exact ⟨moduleName?_eq_some_iff.mpr named.splits, rfl⟩

end Entry

theorem mem_discover_iff {directory : String} {excluded extensions : List String}
    {entries : List Entry} {module : DiscoveredModule} :
    module ∈ (discover directory excluded extensions entries).1 ↔
      ∃ entry ∈ entries, module ∈ (discoverEntry directory excluded extensions entry).1 := by
  simp [discover, List.mem_mergeSort]

theorem mem_discover_records_iff {directory : String} {excluded extensions : List String}
    {entries : List Entry} {record : Diagnostic} :
    record ∈ (discover directory excluded extensions entries).2 ↔
      ∃ entry ∈ entries, record ∈ (discoverEntry directory excluded extensions entry).2 := by
  simp [discover, List.mem_mergeSort]

/-- With one extension, different files give modules of different names. -/
theorem nodup_discover (directory : String) (excluded : List String) (extension : String)
    {entries : List Entry} (distinct : (entries.map Entry.name).Nodup) :
    ((discover directory excluded [extension] entries).1.map DiscoveredModule.name).Nodup := by
  -- the one extension gives the file name back from the module name
  have fileName {entry : Entry} {module : DiscoveredModule}
      (member : module ∈ (discoverEntry directory excluded [extension] entry).1) :
      entry.name.text = module.name ++ "." ++ extension := by
    obtain ⟨found, among, splits⟩ := moduleName?_eq_some_iff.mp (of_mem_discoverEntry member).1
    rw [List.mem_singleton.mp among] at splits
    exact splits.joined
  have sorted : ((entries.mergeSort fun a b => a.name.text ≤ b.name.text).map Entry.name).Nodup :=
    ((List.mergeSort_perm entries _).map Entry.name).nodup_iff.mpr distinct
  unfold discover
  dsimp only
  rw [List.flatMap_map]
  refine List.pairwise_map.mpr (List.pairwise_flatMap.mpr ⟨?_, ?_⟩)
  · rintro ⟨name, kind⟩ _
    have classified := discoverEntry_classified directory excluded [extension] ⟨name, kind⟩
    generalize discoverEntry directory excluded [extension] ⟨name, kind⟩ = given at classified
    cases classified <;> simp
  · refine (List.pairwise_map.mp sorted).imp ?_
    intro entry other differs module member second further same
    refine differs (FileName.text_injective ?_)
    rw [fileName member, fileName further, same]

theorem kind_of_mem_discover {directory : String} {excluded extensions : List String}
    {entries : List Entry} {record : Diagnostic}
    (member : record ∈ (discover directory excluded extensions entries).2) :
    record.kind = .skippedModule := by
  obtain ⟨⟨name, kind⟩, -, made⟩ := mem_discover_records_iff.mp member
  have classified := discoverEntry_classified directory excluded extensions ⟨name, kind⟩
  generalize discoverEntry directory excluded extensions ⟨name, kind⟩ = given at made classified
  cases classified with
  | package | excluded =>
      rw [List.mem_singleton.mp made]
      rfl
  | folder | other | module => cases made

/-- An item below a place lies there under its name. -/
theorem FileTree.place_of_child? {place : Place} {item : Place × FileItem}
    {child : FileName × FileItem} (found : child? place item = some child) :
    item.1 = place ++ [child.1] := by
  unfold child? at found
  split at found
  next name last =>
    split at found
    next above =>
      obtain rfl := Option.some.inj found
      obtain ⟨before, whole⟩ := List.getLast?_eq_some_iff.mp last
      rw [whole, List.dropLast_concat] at above
      rw [whole, beq_iff_eq.mp above]
    next => cases found
  next => cases found

/-- Things in one directory have different names. -/
theorem FileTree.nodup_children (tree : FileTree) (place : Place) :
    ((tree.children place).map Prod.fst).Nodup := by
  refine List.pairwise_map.mpr (List.pairwise_filterMap.mpr (tree.distinct.imp ?_))
  intro item other differs child found second further same
  refine differs ?_
  rw [place_of_child? found, place_of_child? further, same]

theorem FileTree.entry_name (tree : FileTree) (place : Place) (child : FileName × FileItem) :
    (tree.entry place child).name = child.1 := by
  unfold entry
  split <;> rfl

theorem FileTree.nodup_list {tree : FileTree} {path : String} {entries : List Entry}
    (listed : tree.list path = .ok entries) : (entries.map Entry.name).Nodup := by
  unfold list at listed
  split at listed
  next place _ =>
    split at listed
    next =>
      obtain rfl := Except.ok.inj listed
      rw [List.map_map]
      have names : Entry.name ∘ tree.entry place = Prod.fst := funext (tree.entry_name place)
      rw [names]
      exact tree.nodup_children place
    next => cases listed
  next => cases listed

theorem FileTree.discover_eq_ok_iff {tree : FileTree} {directory : String}
    {excluded extensions : List String} {found : List DiscoveredModule × Diagnostics} :
    tree.host.discover directory excluded extensions = .ok found ↔
      ∃ entries, tree.list directory = .ok entries ∧
        discover directory excluded extensions entries = found := by
  change (tree.list directory).map (discover directory excluded extensions) = .ok found ↔ _
  cases tree.list directory <;> simp [Except.map]

/-- With one extension, the modules found in a directory have different names. -/
theorem FileTree.nodup_of_discover {tree : FileTree} {directory extension : String}
    {excluded : List String} {modules : List DiscoveredModule} {skipped : Diagnostics}
    (found : tree.host.discover directory excluded [extension] = .ok (modules, skipped)) :
    (modules.map DiscoveredModule.name).Nodup := by
  obtain ⟨entries, listed, given⟩ := FileTree.discover_eq_ok_iff.mp found
  have distinct := nodup_discover directory excluded extension (FileTree.nodup_list listed)
  rw [given] at distinct
  exact distinct

end Respell
