import Respell.Proofs.DiscoveredEntries

/-!
The order of discovered modules. Modules come in the order of their file names, which is not always
the order of their own names: the stem of a file may continue the stem of another one with a text that
comes before the dot, or with the dot itself.
-/

set_option autoImplicit false

namespace Respell

/-- A file whose stem continues that of another one, and whose name comes before the other's. -/
def Overtakes (longer shorter : String) : Prop :=
  ∃ stem rest extension other, rest ≠ "" ∧ Path.Splits longer (stem ++ rest) extension ∧
    Path.Splits shorter stem other ∧ rest ++ "." ++ extension < "." ++ other

theorem append_lt_append_iff {start first second : List Char} :
    start ++ first < start ++ second ↔ first < second := by
  induction start with
  | nil => rfl
  | cons c start ih => simp [ih]

/-- A text that comes after another one, and with an ending before it, continues it. -/
theorem exists_rest_of_lt {longer shorter ending other : List Char} (less : shorter < longer)
    (before : longer ++ ending < shorter ++ other) :
    ∃ rest, rest ≠ [] ∧ longer = shorter ++ rest ∧ rest ++ ending < other := by
  induction shorter generalizing longer with
  | nil =>
      refine ⟨longer, ?_, rfl, before⟩
      rintro rfl
      exact lt_irrefl _ less
  | cons c shorter ih =>
      cases longer with
      | nil => cases less
      | cons d longer =>
          rw [List.cons_append, List.cons_append] at before
          rcases List.cons_lt_cons_iff.mp less with first | ⟨rfl, further⟩
          · rcases List.cons_lt_cons_iff.mp before with second | ⟨rfl, -⟩
            · exact absurd first second.asymm
            · exact absurd first (lt_irrefl _)
          · have after : longer ++ ending < shorter ++ other := by simpa using before
            obtain ⟨rest, some_rest, rfl, tail⟩ := ih further after
            exact ⟨rest, some_rest, rfl, tail⟩

section Names

variable {first second stem stem' extension extension' : String}

/-- A file overtakes another one if the order of their names is not that of their stems. -/
theorem overtakes_iff (splits : Path.Splits first stem extension)
    (splits' : Path.Splits second stem' extension') :
    Overtakes first second ↔ first < second ∧ stem' < stem := by
  constructor
  · rintro ⟨start, rest, _, _, some_rest, longer, shorter, before⟩
    obtain ⟨rfl, rfl⟩ := splits.unique longer
    obtain ⟨rfl, rfl⟩ := splits'.unique shorter
    constructor
    · rw [longer.joined, shorter.joined, String.lt_iff]
      rw [String.lt_iff] at before
      simpa only [String.toList_append, List.append_assoc, append_lt_append_iff] using before
    · have continued : [] < rest.toList := by
        cases shape : rest.toList with
        | nil => exact absurd (String.toList_inj.mp shape) some_rest
        | cons => exact List.nil_lt_cons ..
      rw [String.lt_iff, String.toList_append]
      simpa using append_lt_append_iff.mpr continued
  · rintro ⟨before, less⟩
    rw [splits.joined, splits'.joined, String.lt_iff] at before
    simp only [String.toList_append, List.append_assoc] at before
    obtain ⟨rest, some_rest, same, tail⟩ := exists_rest_of_lt (String.lt_iff.mp less) before
    have whole : stem = stem' ++ String.ofList rest := String.toList_inj.mp (by simpa using same)
    refine ⟨stem', String.ofList rest, extension, extension', ?_, whole ▸ splits, splits', ?_⟩
    · simpa using some_rest
    · rw [String.lt_iff]
      simpa using tail

/-- A file that overtakes another one has the dot, or a character before it, in its stem. -/
theorem exists_le_dot (overtakes : Overtakes first second)
    (splits : Path.Splits first stem extension) : ∃ c ∈ stem.toList, c ≤ '.' := by
  obtain ⟨start, rest, _, other, some_rest, longer, -, before⟩ := overtakes
  obtain ⟨rfl, rfl⟩ := splits.unique longer
  rw [String.lt_iff] at before
  simp only [String.toList_append] at before
  cases shape : rest.toList with
  | nil => exact absurd (String.toList_inj.mp shape) some_rest
  | cons c more =>
      refine ⟨c, by simp [shape], ?_⟩
      rw [shape] at before
      rcases List.cons_lt_cons_iff.mp before with less | ⟨same, -⟩
      · exact less.le
      · exact same.le

end Names

theorem sorted_iff_of_increasing {found : List (FileName × DiscoveredModule)}
    (increasing : found.Pairwise fun a b => a.1.text < b.1.text)
    (splits : ∀ pair ∈ found, ∃ extension, Path.Splits pair.1.text pair.2.name extension) :
    (found.Pairwise fun a b => a.2.name ≤ b.2.name) ↔
      ¬∃ longer ∈ found, ∃ shorter ∈ found, Overtakes longer.1.text shorter.1.text := by
  constructor
  · rintro sorted ⟨longer, member, shorter, member', overtakes⟩
    obtain ⟨_, parts⟩ := splits longer member
    obtain ⟨_, parts'⟩ := splits shorter member'
    obtain ⟨before, less⟩ := (overtakes_iff parts parts').mp overtakes
    -- two files of the list stand in it in the order of their names
    have forward : found.Pairwise fun a b => a.1.text < b.1.text → a.2.name ≤ b.2.name :=
      sorted.imp (by tauto)
    have backward : found.Pairwise fun a b => b.1.text < a.1.text → b.2.name ≤ a.2.name :=
      increasing.imp fun less greater => absurd less greater.asymm
    have ordered := List.Pairwise.forall_of_forall_of_flip (fun _ _ _ => le_rfl) forward backward
      member member' before
    exact absurd less ordered.not_gt
  · intro none
    refine increasing.imp_of_mem fun {first second} member member' before => ?_
    obtain ⟨_, parts⟩ := splits first member
    obtain ⟨_, parts'⟩ := splits second member'
    by_contra greater
    exact none ⟨first, member, second, member',
      (overtakes_iff parts parts').mpr ⟨before, not_le.mp greater⟩⟩

/-- Discovered modules come in the order of their file names. Their own names are in order exactly if
no file overtakes another one, so they are if all characters of the names come after the dot. -/
theorem FileTree.discover_sorted_iff {tree : FileTree} {directory : String}
    {excluded extensions : List String} {modules : List DiscoveredModule} {records : Diagnostics}
    (discovered : tree.host.discover directory excluded extensions = .ok (modules, records)) :
    ∃ found : List (FileName × DiscoveredModule), modules = found.map Prod.snd ∧
      (found.Pairwise fun a b => a.1.text < b.1.text) ∧
      (∀ pair ∈ found, ∃ extension ∈ extensions,
        Path.Splits pair.1.text pair.2.name extension) ∧
      ((modules.map DiscoveredModule.name).Pairwise (· ≤ ·) ↔
        ¬∃ longer ∈ found, ∃ shorter ∈ found, Overtakes longer.1.text shorter.1.text) ∧
      ((∀ module ∈ modules, ∀ c ∈ module.name.toList, '.' < c) →
        (modules.map DiscoveredModule.name).Pairwise (· ≤ ·)) := by
  obtain ⟨place, located, inside⟩ := exists_place_of_discover discovered
  obtain ⟨found, leftOut, same, increasing, member, -, -⟩ :=
    exists_discovered excluded extensions located inside
  obtain ⟨rfl, rfl⟩ := Prod.mk.inj (Except.ok.inj (discovered.symm.trans same))
  have splits : ∀ pair ∈ found, ∃ extension ∈ extensions,
      Path.Splits pair.1.text pair.2.name extension := fun pair listed =>
    ((member pair.1 pair.2).mp listed).1.named.splits
  have sorted_iff := sorted_iff_of_increasing increasing fun pair listed => by
    obtain ⟨extension, -, parts⟩ := splits pair listed
    exact ⟨extension, parts⟩
  have names : ((found.map Prod.snd).map DiscoveredModule.name).Pairwise (· ≤ ·) ↔
      ¬∃ longer ∈ found, ∃ shorter ∈ found, Overtakes longer.1.text shorter.1.text := by
    rw [List.map_map, List.pairwise_map]
    exact sorted_iff
  refine ⟨found, rfl, increasing, splits, names, fun plain => names.mpr ?_⟩
  rintro ⟨longer, listed, shorter, -, overtakes⟩
  obtain ⟨extension, -, parts⟩ := splits longer listed
  obtain ⟨c, inside, le⟩ := exists_le_dot overtakes parts
  exact absurd (plain _ (List.mem_map_of_mem listed) c inside) le.not_gt

/-- A file whose stem continues another one with a hyphen. -/
def hyphenatedFiles : FileTree :=
  (FileTree.empty.build "pkg/a-b.py" (.text "")).build "pkg/a.py" (.text "")

theorem discover_hyphenatedFiles :
    hyphenatedFiles.host.discover "pkg" [] ["py"] =
      .ok ([⟨"a-b", "pkg/a-b.py"⟩, ⟨"a", "pkg/a.py"⟩], []) := by
  refine FileTree.discover_eq_ok_iff.mpr ⟨_, rfl, ?_⟩
  unfold discover
  rw [List.mergeSort_of_pairwise (by decide)]
  rfl

/-- The names of discovered modules are not always in order. -/
theorem discover_unsorted :
    ∃ modules, hyphenatedFiles.host.discover "pkg" [] ["py"] = .ok (modules, []) ∧
      ¬(modules.map DiscoveredModule.name).Pairwise (· ≤ ·) :=
  ⟨_, discover_hyphenatedFiles, by decide⟩

/-- One of the two files overtakes the other one. -/
theorem discover_sorted_iff_hyphenated :
    hyphenatedFiles.host.discover "pkg" [] ["py"] =
        .ok ([⟨"a-b", "pkg/a-b.py"⟩, ⟨"a", "pkg/a.py"⟩], []) ∧
      ∃ found : List (FileName × DiscoveredModule),
        found.map Prod.snd = [⟨"a-b", "pkg/a-b.py"⟩, ⟨"a", "pkg/a.py"⟩] ∧
        (found.Pairwise fun a b => a.1.text < b.1.text) ∧
        ∃ longer ∈ found, ∃ shorter ∈ found, Overtakes longer.1.text shorter.1.text := by
  obtain ⟨found, modules, increasing, -, sorted, -⟩ :=
    FileTree.discover_sorted_iff discover_hyphenatedFiles
  exact ⟨discover_hyphenatedFiles, found, modules.symm, increasing,
    not_not.mp fun none => absurd (sorted.mpr none) (by decide)⟩

end Respell
