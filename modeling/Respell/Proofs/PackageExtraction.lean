import Respell.Proofs.ModuleExtraction

/-!
What extraction makes of a package. Each name belongs to the last source of that name whose members can
be listed, whatever comes after it under the name and cannot; the client module stands apart and is
cut by a policy of its own. The collector keeps what it has, and gains for each source, in order, what
its extraction tells or that it is left out, and one record at the end if no client could be listed.
-/

set_option autoImplicit false

namespace Respell

/-- Whether the members of a source can be listed. -/
def Reader.lists (reader : Reader) (source : ModuleSource) : Bool :=
  (reader.members source.source).isOk

/-- The last of some sources that has a name and whose members can be listed, and its members. -/
def LastListed (reader : Reader) (name : String) (sources : List ModuleSource)
    (members : List Syntax.Member) : Prop :=
  ∃ source, IsLast (fun source => source.name = name ∧ reader.lists source = true) sources source ∧
    reader.members source.source = .ok members

/-- A package with the units of sources, and nothing else. -/
structure PackageUnits.HoldsExactly (units : PackageUnits) (reader : Reader)
    (sources : List ModuleSource) : Prop where
  /-- The last client that can be listed is cut by the client's policy. -/
  client : ∀ unit, units.client = some unit ↔ ∃ members,
    LastListed reader clientModule sources members ∧
      unit = ((extractModuleInto reader .client clientModule members).run []).1
  /-- There is no client if none can be listed. -/
  noClient : units.client = none ↔
    ∀ source ∈ sources, source.name = clientModule → reader.lists source = false
  /-- The last module of any other name that can be listed is cut by the uniform policy. -/
  module : ∀ name, name ≠ clientModule → ∀ unit, units.modules.get? name = some unit ↔ ∃ members,
    LastListed reader name sources members ∧
      unit = ((extractModuleInto reader .uniform name members).run []).1
  /-- There is no module of a name if none can be listed. -/
  noModule : ∀ name, name ≠ clientModule → (units.modules.get? name = none ↔
    ∀ source ∈ sources, source.name = name → reader.lists source = false)
  /-- The client stands nowhere else. -/
  apart : units.modules.get? clientModule = none

/-- What is told about one source. -/
def toldAbout (reader : Reader) (source : ModuleSource) : Diagnostics :=
  match reader.members source.source with
  | .ok members =>
    ((extractModuleInto reader (Policy.forModule source.name) source.name members).run []).2
  | .error cause => [⟨.error, .extractionFailure,
      "Skipping module " ++ source.name ++ ": " ++ cause.message⟩]

section Sources

variable (reader : Reader)

theorem unit_run_extractModuleInto (policy : Policy) (name : String) (members : List Syntax.Member)
    (records : Diagnostics) :
    ((extractModuleInto reader policy name members).run records).1 =
      (extractModule reader policy name members).1 := by
  rw [run_extractModuleInto]

theorem toldAbout_eq (source : ModuleSource) : toldAbout reader source = sourceRecords reader source := by
  unfold toldAbout sourceRecords extractSource
  cases reader.members source.source with
  | ok members =>
      dsimp only
      rw [run_extractModuleInto, List.nil_append]
  | error cause => rfl

theorem isSome_module?_eq_lists (source : ModuleSource) :
    (reader.module? source).isSome = reader.lists source := by
  unfold Reader.module? Reader.lists
  cases reader.members source.source <;> rfl

/-- A source gives a unit of a name exactly if it has that name and can be listed. -/
theorem gives_unit_iff (source : ModuleSource) (name : String) :
    (∃ unit, reader.module? source = some unit ∧ (unit.name == name) = true) ↔
      source.name = name ∧ reader.lists source = true := by
  rw [← isSome_module?_eq_lists, Option.isSome_iff_exists]
  constructor
  · rintro ⟨unit, found, same⟩
    have named := Reader.name_of_module? found
    exact ⟨named.symm.trans (beq_iff_eq.mp same), unit, found⟩
  · rintro ⟨same, unit, found⟩
    have named := Reader.name_of_module? found
    exact ⟨unit, found, beq_iff_eq.mpr (named.trans same)⟩

/-- Under each name stands the unit of the last source of that name that can be listed. -/
theorem module?_extractPackage_eq_some_iff (sources : List ModuleSource) (name : String)
    (unit : ModuleUnit) :
    (extractPackage reader sources).1.module? name = some unit ↔ ∃ members,
      LastListed reader name sources members ∧
        unit = (extractModule reader (Policy.forModule name) name members).1 := by
  rw [extractPackage_units_eq, PackageUnits.module?_foldl_add, PackageUnits.module?_empty,
    Option.or_none, find?_reverse_filterMap_eq_some_iff]
  simp only [gives_unit_iff]
  constructor
  · rintro ⟨source, last, found⟩
    obtain ⟨members, listed, rfl⟩ := Option.map_eq_some_iff.mp found
    have ok : reader.members source.source = .ok members := by
      cases read : reader.members source.source with
      | ok other =>
          rw [read] at listed
          rw [Option.some.inj listed]
      | error cause =>
          rw [read] at listed
          cases listed
    have named : source.name = name := last.holds.1
    exact ⟨members, ⟨source, last, ok⟩, by rw [named]⟩
  · rintro ⟨members, ⟨source, last, ok⟩, rfl⟩
    have named : source.name = name := last.holds.1
    refine ⟨source, last, ?_⟩
    rw [Reader.module?, ok, named]
    rfl

theorem module?_extractPackage_eq_none_iff (sources : List ModuleSource) (name : String) :
    (extractPackage reader sources).1.module? name = none ↔
      ∀ source ∈ sources, source.name = name → reader.lists source = false := by
  rw [extractPackage_units_eq, PackageUnits.module?_foldl_add, PackageUnits.module?_empty,
    Option.or_none, find?_reverse_filterMap_eq_none_iff]
  refine forall₂_congr fun source _ => ?_
  have given := gives_unit_iff reader source name
  constructor
  · intro none same
    by_contra listed
    have found := given.mpr ⟨same, by simpa using listed⟩
    obtain ⟨unit, made, named⟩ := found
    rw [none unit made] at named
    cases named
  · intro none unit made
    by_contra named
    obtain ⟨same, listed⟩ := given.mp ⟨unit, made, by simpa using named⟩
    rw [none same] at listed
    cases listed

theorem holdsExactly_extractPackage (sources : List ModuleSource) :
    (extractPackage reader sources).1.HoldsExactly reader sources := by
  have client : (extractPackage reader sources).1.module? clientModule =
      (extractPackage reader sources).1.client := if_pos rfl
  have others {name : String} (other : name ≠ clientModule) :
      (extractPackage reader sources).1.module? name =
        (extractPackage reader sources).1.modules.get? name := if_neg other
  have policy {name : String} (other : name ≠ clientModule) : Policy.forModule name = .uniform := by
    simp [Policy.forModule, other]
  refine ⟨fun unit => ?_, ?_, fun name other unit => ?_, fun name other => ?_,
    (keyed_extractPackage reader sources).apart⟩
  · simp only [unit_run_extractModuleInto]
    rw [← client]
    exact module?_extractPackage_eq_some_iff reader sources clientModule unit
  · rw [← client]
    exact module?_extractPackage_eq_none_iff reader sources clientModule
  · simp only [unit_run_extractModuleInto]
    rw [← others other, ← policy other]
    exact module?_extractPackage_eq_some_iff reader sources name unit
  · rw [← others other]
    exact module?_extractPackage_eq_none_iff reader sources name

/-- A source that cannot be listed leaves no unit, and none of an earlier one gives way. -/
theorem extractPackage_skip (before after : List ModuleSource) {failing : ModuleSource}
    {cause : ReadError} (unlisted : reader.members failing.source = .error cause) :
    (extractPackage reader (before ++ failing :: after)).1 =
      (extractPackage reader (before ++ after)).1 := by
  have none : reader.module? failing = none := by
    rw [Reader.module?, unlisted]
    rfl
  rw [extractPackage_units_eq, extractPackage_units_eq, List.filterMap_append, List.filterMap_append,
    List.filterMap_cons_none none]

/-! ### The collector -/

theorem run_extractSourceInto (units : PackageUnits) (source : ModuleSource) (records : Diagnostics) :
    (extractSourceInto reader units source).run records =
      ((extractSource reader units source).1,
        records ++ (extractSource reader units source).2) := by
  unfold extractSourceInto extractSource
  cases reader.members source.source with
  | ok members =>
      dsimp only
      rw [StateT.run_bind, run_extractModuleInto]
      rfl
  | error cause => rfl

theorem run_foldlM_extractSourceInto (units : PackageUnits) (sources : List ModuleSource)
    (records : Diagnostics) :
    (sources.foldlM (extractSourceInto reader) units).run records =
      ((extractSources reader units sources).1,
        records ++ (extractSources reader units sources).2) := by
  induction sources generalizing units records with
  | nil =>
      change (units, records) = (units, records ++ [])
      rw [List.append_nil]
  | cons source rest ih =>
      rw [List.foldlM_cons, StateT.run_bind, run_extractSourceInto]
      change (rest.foldlM (extractSourceInto reader) (extractSource reader units source).1).run
        (records ++ (extractSource reader units source).2) = _
      rw [ih, List.append_assoc]
      rfl

theorem run_extractPackageInto (sources : List ModuleSource) (records : Diagnostics) :
    (extractPackageInto reader sources).run records =
      ((extractPackage reader sources).1, records ++ (extractPackage reader sources).2) := by
  unfold extractPackageInto
  rw [StateT.run_bind, run_foldlM_extractSourceInto, extractPackage]
  generalize extractSources reader .empty sources = extracted
  obtain ⟨⟨client, modules⟩, made⟩ := extracted
  cases client with
  | some unit => rfl
  | none =>
      change (PackageUnits.mk none modules, (records ++ made) ++ [_]) =
        (PackageUnits.mk none modules, records ++ (made ++ [_]))
      rw [List.append_assoc]

/-- Extraction of a package is exact, whatever names repeat among its sources. Under each name stands
the unit of the last source of that name that can be listed, the client by the client's policy and any
other module by the uniform one, and there is nothing else. The collector keeps what was there; then
comes for each source in order that it is left out, or what the extraction of the module tells, and
last one error exactly if no source named for the client could be listed. A source that cannot be
listed changes nothing of the units. -/
theorem extractPackageInto_exact (sources : List ModuleSource) (prior : Diagnostics) :
    let extracted := (extractPackageInto reader sources).run prior
    extracted.1.HoldsExactly reader sources ∧
      extracted.2 = prior ++ sources.flatMap (toldAbout reader) ++
        (if sources.any fun source => source.name == clientModule && reader.lists source then []
          else [⟨.error, .missingCollaborator, "no client module in package"⟩]) ∧
      ∀ before failing after cause, sources = before ++ failing :: after →
        reader.members failing.source = .error cause →
          extracted.1 = ((extractPackageInto reader (before ++ after)).run prior).1 := by
  rw [run_extractPackageInto]
  refine ⟨holdsExactly_extractPackage reader sources, ?_, ?_⟩
  · have told : sources.flatMap (toldAbout reader) = sources.flatMap (sourceRecords reader) :=
      congrArg (fun told => sources.flatMap told) (funext (toldAbout_eq reader))
    -- a client is kept exactly if one was listed
    have kept : (extractPackage reader sources).1.client.isSome =
        sources.any fun source => source.name == clientModule && reader.lists source := by
      have none := (holdsExactly_extractPackage reader sources).noClient
      rw [Bool.eq_iff_iff, ← not_iff_not, Bool.not_eq_true, Option.isSome_eq_false_iff,
        Option.isNone_iff_eq_none, none]
      simp
    dsimp only
    rw [extractPackage_records, told, kept, List.append_assoc]
    rfl
  · rintro before failing after cause rfl unlisted
    rw [run_extractPackageInto]
    exact extractPackage_skip reader before after unlisted

end Sources

/-- A reader that lists one function for each text but the empty one, which it cannot list. -/
def wordReader : Reader :=
  { letterReader with
    members := fun text =>
      if text.isEmpty then .error (.parse "nothing to list") else .ok [⟨"_" ++ text, .callable text⟩] }

/-- Two clients, of which the second cannot be listed, and a module of another name. -/
def repeatedSources : List ModuleSource :=
  [⟨"client", "first"⟩, ⟨"tools", "gear"⟩, ⟨"client", ""⟩]

/-- The second client is reported and leaves the unit of the first, with its private function. -/
theorem extractPackageInto_exact_repeated :
    let prior : Diagnostic := ⟨.debug, .skippedModule, "before"⟩
    let extracted := (extractPackageInto wordReader repeatedSources).run [prior]
    extracted.1.client = some
        ((extractModuleInto wordReader .client "client" [⟨"_first", .callable "first"⟩]).run []).1 ∧
      extracted.2 = [prior, ⟨.error, .extractionFailure,
        "Skipping module client: parse error: nothing to list"⟩] ∧
      wordReader.members "" = .error (.parse "nothing to list") ∧
      extracted.1 =
        ((extractPackageInto wordReader (repeatedSources.take 2)).run [prior]).1 := by
  intro prior extracted
  obtain ⟨exact, records, skip⟩ := extractPackageInto_exact wordReader repeatedSources [prior]
  have unlisted : wordReader.members "" = .error (.parse "nothing to list") := rfl
  have unchanged := skip (repeatedSources.take 2) ⟨"client", ""⟩ [] _ rfl unlisted
  refine ⟨?_, records.trans (by decide +kernel), unlisted, unchanged⟩
  refine (exact.client _).mpr ⟨_, ⟨⟨"client", "first"⟩, ⟨[], _, rfl, ⟨rfl, rfl⟩, ?_⟩, rfl⟩, rfl⟩
  intro other later
  have cases : other = ⟨"tools", "gear"⟩ ∨ other = ⟨"client", ""⟩ := by simpa using later
  rcases cases with rfl | rfl
  · decide
  · decide

end Respell
