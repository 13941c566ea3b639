import Respell.Proofs.Extraction

/-!
Rendering a package. Whatever the order in which functions are respelled, each function of each module
gets its text under the two names, nothing else is in the result, and the records stand in the order
of module and function names.
-/

set_option autoImplicit false

namespace Respell

/-! ### Work in any order -/

section Work

variable {α β : Type}

/-- After work in some order a place holds the result of its job if the order came to it. -/
theorem getElem?_foldl_set (jobs : List α) (work : α → β) (order : List Nat)
    (done : List (Option β)) (index : Nat) :
    (order.foldl (fun done index => done.set index (jobs[index]?.map work)) done)[index]? =
      if index ∈ order ∧ index < done.length then some (jobs[index]?.map work)
      else done[index]? := by
  induction order generalizing done with
  | nil => simp
  | cons first rest ih =>
      rw [List.foldl_cons, ih, List.length_set, List.getElem?_set]
      by_cases same : index = first
      · subst same
        by_cases within : index < done.length <;> simp [within]
      · simp [same, Ne.symm same]

/-- All jobs done, each place holds the result of its job. -/
theorem workIn_eq_map (work : α → β) (jobs : List α) {order : List Nat}
    (all : order.Perm (List.range jobs.length)) :
    workIn order work jobs = jobs.map fun job => some (work job) := by
  refine List.ext_getElem? fun index => ?_
  rw [workIn, getElem?_foldl_set, List.getElem?_map]
  simp only [all.mem_iff, List.mem_range, List.length_replicate, and_self]
  by_cases within : index < jobs.length <;> simp [within]

theorem filterMap_workIn (work : α → β) (jobs : List α) {order : List Nat}
    (all : order.Perm (List.range jobs.length)) :
    (workIn order work jobs).filterMap id = jobs.map work := by
  rw [workIn_eq_map work jobs all, List.filterMap_map]
  simp

end Work

/-- Things with different names are sorted by name in strictly increasing order. -/
theorem increasing_mergeSort {α : Type} (name : α → String) {items : List α}
    (distinct : (items.map name).Nodup) :
    (items.mergeSort fun a b => name a ≤ name b).Pairwise fun a b => name a < name b := by
  have sorted := @List.pairwise_mergeSort _ (fun a b : α => name a ≤ name b)
    (fun a b c first second => by
      simp only [decide_eq_true_eq] at *
      exact String.le_trans first second)
    (fun a b => by simpa using String.le_total (name a) (name b)) items
  have apart : (items.mergeSort fun a b => name a ≤ name b).Pairwise fun a b => name a ≠ name b :=
    List.pairwise_map.mp (((List.mergeSort_perm items _).map name).nodup_iff.mpr distinct)
  refine (sorted.and apart).imp fun both => ?_
  by_contra notLess
  exact both.2 (String.le_antisymm (of_decide_eq_true both.1) notLess)

namespace PackageUnits

/-! ### Modules in order -/

theorem perm_allModules (units : PackageUnits) :
    units.allModules.Perm (units.client.toList ++ units.modules.values) :=
  List.mergeSort_perm _ _

theorem Keyed.of_mem_allModules {units : PackageUnits} (keyed : units.Keyed) {module : ModuleUnit}
    (member : module ∈ units.allModules) : module.Keyed := by
  rcases List.mem_append.mp (units.perm_allModules.mem_iff.mp member) with isClient | isOther
  · exact keyed.inClient module (Option.mem_toList.mp isClient)
  · obtain ⟨name, found⟩ := (NameMap.mem_values_iff _ _).mp isOther
    exact keyed.inModules name module found

/-- Modules have different names, since each stands under its own. -/
theorem Keyed.nodup_names {units : PackageUnits} (keyed : units.Keyed) :
    ((units.client.toList ++ units.modules.values).map ModuleUnit.name).Nodup := by
  have values : units.modules.values.map ModuleUnit.name = units.modules.names := by
    rw [NameMap.values, NameMap.names, List.map_map]
    refine List.map_congr_left fun entry member => ?_
    exact keyed.modules entry.1 entry.2 ((NameMap.mem_entries_iff _ _ _).mp member)
  have increasing : units.modules.names.Nodup :=
    (List.pairwise_map.mpr units.modules.increasing).imp fun less => String.ne_of_lt less
  rw [List.map_append, values]
  refine List.nodup_append.mpr ⟨?_, increasing, ?_⟩
  · cases units.client <;> simp
  · intro name isClient other isOther same
    obtain ⟨module, member, rfl⟩ := List.mem_map.mp isClient
    obtain ⟨entry, among, rfl⟩ := List.mem_map.mp isOther
    have found := (NameMap.mem_entries_iff units.modules entry.1 entry.2).mp among
    have named := keyed.client module (Option.mem_toList.mp member)
    rw [← same, named, keyed.apart] at found
    cases found

/-- All modules are listed in strictly increasing order of their names. -/
theorem Keyed.increasing_allModules {units : PackageUnits} (keyed : units.Keyed) :
    units.allModules.Pairwise fun a b => a.name < b.name :=
  increasing_mergeSort ModuleUnit.name keyed.nodup_names

end PackageUnits

/-! ### Texts by module and name -/

namespace RespelledFunction

/-- Functions of one module are put into one map of texts. -/
theorem foldl_place_own {module : String} (functions : NameMap (NameMap String))
    {all : List RespelledFunction} (own : ∀ done ∈ all, done.module = module)
    (nonempty : all ≠ []) :
    all.foldl place functions = functions.insert module
      (all.foldl (fun texts done => texts.insert done.name done.text)
        ((functions.get? module).getD .empty)) := by
  induction all generalizing functions with
  | nil => exact absurd rfl nonempty
  | cons first rest ih =>
      have placed : place functions first = functions.insert module
          (((functions.get? module).getD .empty).insert first.name first.text) := by
        rw [place, own first (List.mem_cons_self ..)]
      rw [List.foldl_cons, List.foldl_cons, placed]
      cases rest with
      | nil => rfl
      | cons second more =>
          rw [ih _ (fun done member => own done (List.mem_cons_of_mem first member))
            (List.cons_ne_nil second more), NameMap.get?_insert, if_pos rfl, Option.getD_some,
            NameMap.insert_insert]

/-- The functions of a module are respelled to the texts that the module gives by itself; a module
without functions leaves no trace. -/
theorem foldl_place_module (table : TokenTable) {module : ModuleUnit} (keyed : module.Keyed)
    {functions : NameMap (NameMap String)} (fresh : functions.get? module.name = none) :
    ((module.functions.values.map fun unit => (module.name, unit)).map (ofJob table)).foldl place
        functions =
      if 0 < module.functions.size then
        functions.insert module.name (module.respellFunctions table).1
      else functions := by
  split
  next nonempty =>
    have own : ∀ done ∈ (module.functions.values.map fun unit => (module.name, unit)).map
        (ofJob table), done.module = module.name := by simp [ofJob]
    rw [foldl_place_own functions own
      (by simpa [NameMap.size, NameMap.values, List.length_pos_iff] using nonempty), fresh]
    congr 1
    have texts : module.functions.values.map (fun unit =>
        (unit.name, (unit.respell table).1.text)) = (module.respellFunctions table).1.entries := by
      rw [NameMap.values, List.map_map]
      refine List.map_congr_left fun entry member => ?_
      have named := keyed.functions entry.1 entry.2 ((NameMap.mem_entries_iff _ _ _).mp member)
      simp [named]
    rw [← NameMap.ofList_entries (module.respellFunctions table).1, ← texts, NameMap.ofList]
    simp only [List.foldl_map, ofJob, Option.getD_none]
  next isEmpty =>
    have none : module.functions.values = [] := by
      simpa [NameMap.size, NameMap.values] using isEmpty
    simp [none]

/-- Modules with different names, none of them there before, are put one after the other. -/
theorem foldl_place_modules (table : TokenTable) {modules : List ModuleUnit}
    (keyed : ∀ module ∈ modules, module.Keyed)
    (increasing : modules.Pairwise fun a b => a.name < b.name)
    {functions : NameMap (NameMap String)}
    (fresh : ∀ module ∈ modules, functions.get? module.name = none) :
    ((modules.flatMap fun module => module.functions.values.map fun unit =>
        (module.name, unit)).map (ofJob table)).foldl place functions =
      ((modules.filter fun module => 0 < module.functions.size).map fun module =>
        (module.name, (module.respellFunctions table).1)).foldl
          (fun map (name, value) => map.insert name value) functions := by
  induction modules generalizing functions with
  | nil => rfl
  | cons first rest ih =>
      obtain ⟨before, tail⟩ := List.pairwise_cons.mp increasing
      rw [List.flatMap_cons, List.map_append, List.foldl_append,
        foldl_place_module table (keyed first (List.mem_cons_self ..))
          (fresh first (List.mem_cons_self ..)),
        ih (fun module member => keyed module (List.mem_cons_of_mem first member)) tail]
      · by_cases nonempty : 0 < first.functions.size <;> simp [nonempty]
      · intro module member
        have old := fresh module (List.mem_cons_of_mem first member)
        split
        · rw [NameMap.get?_insert, if_neg (String.ne_of_lt (before module member)).symm]
          exact old
        · exact old

end RespelledFunction

namespace PackageUnits

/-- The result of respelling holds one entry for each module with functions, in order. -/
theorem Keyed.entries_respell {units : PackageUnits} (keyed : units.Keyed) (table : TokenTable) :
    (units.respell table).1.entries =
      (units.allModules.filter fun module => 0 < module.functions.size).map fun module =>
        (module.name, (module.respellFunctions table).1) := by
  have increasing := keyed.increasing_allModules
  have gathered : (units.respell table).1 = NameMap.ofList
      ((units.allModules.filter fun module => 0 < module.functions.size).map fun module =>
        (module.name, (module.respellFunctions table).1)) :=
    RespelledFunction.foldl_place_modules table
      (fun module member => keyed.of_mem_allModules member) increasing (by simp)
  rw [gathered]
  exact NameMap.entries_ofList (List.pairwise_map.mpr (increasing.filter _))

/-- A module is found exactly if it has functions, with the texts that it gives by itself. -/
theorem Keyed.get?_respell {units : PackageUnits} (keyed : units.Keyed) (table : TokenTable)
    (name : String) (texts : NameMap String) :
    (units.respell table).1.get? name = some texts ↔
      ∃ module ∈ units.allModules, module.name = name ∧ 0 < module.functions.size ∧
        texts = (module.respellFunctions table).1 := by
  rw [← NameMap.mem_entries_iff, keyed.entries_respell]
  simp only [List.mem_map, List.mem_filter, decide_eq_true_eq, Prod.mk.injEq]
  constructor
  · rintro ⟨module, ⟨member, nonempty⟩, named, same⟩
    exact ⟨module, member, named, nonempty, same.symm⟩
  · rintro ⟨module, member, named, nonempty, same⟩
    exact ⟨module, ⟨member, nonempty⟩, named, same.symm⟩

theorem get?_respellFunctions (table : TokenTable) (module : ModuleUnit) (name text : String) :
    (module.respellFunctions table).1.get? name = some text ↔
      ∃ unit, module.functions.get? name = some unit ∧
        text = (respellFunction table unit.definition).1.text := by
  simp only [← NameMap.mem_entries_iff, ModuleUnit.respellFunctions, NameMap.map, List.mem_map,
    Prod.mk.injEq, Prod.exists]
  constructor
  · rintro ⟨other, unit, member, rfl, rfl⟩
    exact ⟨unit, member, rfl⟩
  · rintro ⟨unit, member, rfl⟩
    exact ⟨name, unit, member, rfl, rfl⟩

/-- A text is found exactly for the functions of modules, and it is the text of the function. -/
theorem Keyed.text_respell {units : PackageUnits} (keyed : units.Keyed) (table : TokenTable)
    (name function text : String) :
    (∃ texts, (units.respell table).1.get? name = some texts ∧ texts.get? function = some text) ↔
      ∃ module ∈ units.allModules, module.name = name ∧
        ∃ unit, module.functions.get? function = some unit ∧
          text = (respellFunction table unit.definition).1.text := by
  constructor
  · rintro ⟨texts, found, inner⟩
    obtain ⟨module, member, named, -, rfl⟩ := (keyed.get?_respell table name texts).mp found
    exact ⟨module, member, named, (get?_respellFunctions table module function text).mp inner⟩
  · rintro ⟨module, member, named, unit, found, spelled⟩
    have nonempty : 0 < module.functions.size :=
      List.length_pos_of_mem ((NameMap.mem_entries_iff _ _ _).mpr found)
    exact ⟨(module.respellFunctions table).1,
      (keyed.get?_respell table name _).mpr ⟨module, member, named, nonempty, rfl⟩,
      (get?_respellFunctions table module function text).mpr ⟨unit, found, spelled⟩⟩

theorem Keyed.size_respell {units : PackageUnits} (keyed : units.Keyed) (table : TokenTable) :
    ((units.respell table).1.values.map NameMap.size).sum = units.functionCount := by
  have sizes (modules : List ModuleUnit) :
      ((modules.filter fun module => 0 < module.functions.size).map fun module =>
        module.functions.size).sum = (modules.map fun module => module.functions.size).sum := by
    induction modules with
    | nil => rfl
    | cons first rest ih =>
        by_cases nonempty : 0 < first.functions.size
        · simp [nonempty, ih]
        · have zero : first.functions.size = 0 := Nat.eq_zero_of_not_pos nonempty
          simp [zero, ih]
  have count : units.functionCount =
      (units.allModules.map fun module => module.functions.size).sum := by
    rw [functionCount, List.sum_eq_foldl, List.foldl_map]
  rw [count, ← sizes, NameMap.values, keyed.entries_respell, List.map_map, List.map_map]
  simp [Function.comp_def, ModuleUnit.respellFunctions, NameMap.map, NameMap.size]

/-- A job comes before another one if its module does, or within a module its function does. -/
def JobBefore (first second : String × FunctionUnit) : Prop :=
  first.1 < second.1 ∨ first.1 = second.1 ∧ first.2.name < second.2.name

theorem Keyed.increasing_jobs {units : PackageUnits} (keyed : units.Keyed) :
    units.jobs.Pairwise JobBefore := by
  refine List.pairwise_flatMap.mpr ⟨fun module member => ?_, ?_⟩
  · have named := (keyed.of_mem_allModules member).functions
    refine List.pairwise_map.mpr (List.pairwise_map.mpr ?_)
    refine module.functions.increasing.imp_of_mem fun {first second} left right less => ?_
    refine .inr ⟨rfl, ?_⟩
    rw [named first.1 first.2 ((NameMap.mem_entries_iff _ _ _).mp left),
      named second.1 second.2 ((NameMap.mem_entries_iff _ _ _).mp right)]
    exact less
  · refine keyed.increasing_allModules.imp fun {first second} less => ?_
    intro job member other further
    obtain ⟨unit, -, rfl⟩ := List.mem_map.mp member
    obtain ⟨unit', -, rfl⟩ := List.mem_map.mp further
    exact .inl less

theorem Keyed.mem_jobs_iff {units : PackageUnits} (keyed : units.Keyed) (name : String)
    (unit : FunctionUnit) :
    (name, unit) ∈ units.jobs ↔ ∃ module ∈ units.allModules, module.name = name ∧
      module.functions.get? unit.name = some unit := by
  simp only [jobs, List.mem_flatMap, List.mem_map, Prod.mk.injEq]
  constructor
  · rintro ⟨module, member, other, among, named, rfl⟩
    obtain ⟨key, found⟩ := (NameMap.mem_values_iff _ _).mp among
    have same := (keyed.of_mem_allModules member).functions key other found
    exact ⟨module, member, named, same ▸ found⟩
  · rintro ⟨module, member, named, found⟩
    exact ⟨module, member, unit, (NameMap.mem_values_iff _ _).mpr ⟨unit.name, found⟩, named, rfl⟩

theorem records_respell (units : PackageUnits) (table : TokenTable) :
    (units.respell table).2 =
      units.jobs.flatMap fun job => (respellFunction table job.2.definition).2 := by
  simp only [respell, RespelledFunction.gather, List.flatMap_map]
  rfl

theorem respellIn_eq {units : PackageUnits} {order : List Nat}
    (all : order.Perm (List.range units.jobs.length)) (table : TokenTable) :
    units.respellIn order table = units.respell table := by
  rw [respellIn, filterMap_workIn _ _ all, respell]

/-- What respelling a package gives: every text of every function once, and all that was recorded. -/
structure Renders (units : PackageUnits) (table : TokenTable)
    (result : NameMap (NameMap String) × Diagnostics) : Prop where
  /-- There is a text under two names exactly if the module has that function, and it is the text of
  the function. -/
  texts : ∀ name function text,
    (∃ texts, result.1.get? name = some texts ∧ texts.get? function = some text) ↔
      ∃ module ∈ units.allModules, module.name = name ∧
        ∃ unit, module.functions.get? function = some unit ∧
          text = (respellFunction table unit.definition).1.text
  /-- The modules found are those with functions, each with the texts that it gives by itself. -/
  modules : ∀ name texts, result.1.get? name = some texts ↔
    ∃ module ∈ units.allModules, module.name = name ∧ 0 < module.functions.size ∧
      texts = (module.respellFunctions table).1
  /-- There are as many texts as functions. -/
  count : (result.1.values.map NameMap.size).sum = units.functionCount
  /-- The records are those of one function after the other. -/
  records : result.2 = units.jobs.flatMap fun job => (respellFunction table job.2.definition).2

theorem Keyed.renders_respell {units : PackageUnits} (keyed : units.Keyed) (table : TokenTable) :
    units.Renders table (units.respell table) :=
  ⟨keyed.text_respell table, keyed.get?_respell table, keyed.size_respell table,
    units.records_respell table⟩

end PackageUnits

/-- Rendering an extracted package loses, repeats and reorders nothing. All units stand under their
own names, the client module apart from the others; all modules are listed, in increasing order; the
jobs are the functions of all modules, in increasing order of module and function names; and whatever
the order in which the jobs are done, the result is that of the functions one by one. -/
theorem respellIn_extractPackage (reader : Reader) (sources : List ModuleSource)
    (table : TokenTable) :
    let units := (extractPackage reader sources).1
    units.Keyed ∧
    units.allModules.Perm (units.client.toList ++ units.modules.values) ∧
    units.allModules.Pairwise (fun a b => a.name < b.name) ∧
    units.jobs.Pairwise PackageUnits.JobBefore ∧
    (∀ name unit, (name, unit) ∈ units.jobs ↔ ∃ module ∈ units.allModules, module.name = name ∧
      module.functions.get? unit.name = some unit) ∧
    ∀ order : List Nat, order.Perm (List.range units.jobs.length) →
      units.Renders table (units.respellIn order table) := by
  intro units
  have keyed : units.Keyed := keyed_extractPackage reader sources
  refine ⟨keyed, units.perm_allModules, keyed.increasing_allModules, keyed.increasing_jobs,
    keyed.mem_jobs_iff, fun order all => ?_⟩
  rw [PackageUnits.respellIn_eq all]
  exact keyed.renders_respell table

/-- A reader of texts that name one function without a body. -/
def nameReader : Reader where
  language := "names"
  extensions := []
  read text := .ok ⟨[.functionDef (.mk text [] [])]⟩
  members text := .ok [⟨text, .callable text⟩]

/-- Two modules, given against the order of their names. -/
def twoModules : PackageUnits :=
  (extractPackage nameReader [⟨"tools", "run"⟩, ⟨"client", "main"⟩]).1

/-- The function of the later module is respelled first. -/
theorem respellIn_extractPackage_two_modules :
    [1, 0].Perm (List.range twoModules.jobs.length) ∧
      twoModules.Renders .empty (twoModules.respellIn [1, 0] .empty) := by
  have all : [1, 0].Perm (List.range twoModules.jobs.length) := by
    have count : twoModules.jobs.length = 2 := by cbv
    rw [count]
    decide
  exact ⟨all, (respellIn_extractPackage nameReader _ .empty).2.2.2.2.2 [1, 0] all⟩

end Respell
