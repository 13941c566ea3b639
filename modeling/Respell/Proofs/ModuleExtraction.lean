import Respell.Proofs.Extracted

/-!
What extraction makes of a module. Each name of a function belongs to the last admitted member that is
read as a function of that name, whatever the member itself is called, and each name of a reference to
the last admitted member that refers under it. There is nothing else. The collector keeps what it has,
and gains one record for each admitted function that cannot be read; such a member leaves no other
trace.
-/

set_option autoImplicit false

namespace Respell

open Syntax (FunctionDef Member)

/-- The last of some items with a property. -/
def IsLast {α : Type} (property : α → Prop) (items : List α) (item : α) : Prop :=
  ∃ before after, items = before ++ item :: after ∧ property item ∧ ∀ other ∈ after, ¬ property other

theorem IsLast.holds {α : Type} {property : α → Prop} {items : List α} {item : α}
    (last : IsLast property items item) : property item := by
  obtain ⟨_, _, _, holds, _⟩ := last
  exact holds

theorem find?_reverse_eq_some_iff {α : Type} {property : α → Bool} {items : List α} {item : α} :
    items.reverse.find? property = some item ↔
      IsLast (fun item => property item = true) items item := by
  rw [List.find?_eq_some_iff_append]
  constructor
  · rintro ⟨holds, before, after, cut, passed⟩
    refine ⟨after.reverse, before.reverse, ?_, holds, ?_⟩
    · have turned := congrArg List.reverse cut
      simpa using turned
    · intro other member
      have failed := passed other (List.mem_reverse.mp member)
      simpa using failed
  · rintro ⟨before, after, rfl, holds, failed⟩
    refine ⟨holds, after.reverse, before.reverse, by simp, ?_⟩
    intro other member
    have passed := failed other (List.mem_reverse.mp member)
    simpa using passed

/-- Among the values that some items give, the last one with a property is given by the last item that
gives such a value. -/
theorem find?_reverse_filterMap_eq_some_iff {α β : Type} {value? : α → Option β} {holds : β → Bool}
    {items : List α} {value : β} :
    (items.filterMap value?).reverse.find? holds = some value ↔
      ∃ item, IsLast (fun item => ∃ value, value? item = some value ∧ holds value = true) items item ∧
        value? item = some value := by
  rw [← List.filterMap_reverse, List.find?_filterMap, Option.bind_eq_some_iff]
  simp only [find?_reverse_eq_some_iff, Option.any_eq_true]

theorem find?_reverse_filterMap_eq_none_iff {α β : Type} {value? : α → Option β} {holds : β → Bool}
    {items : List α} :
    (items.filterMap value?).reverse.find? holds = none ↔
      ∀ item ∈ items, ∀ value, value? item = some value → holds value = false := by
  simp only [List.find?_eq_none, List.mem_reverse, List.mem_filterMap, Bool.not_eq_true]
  constructor
  · intro none item member value found
    exact none value ⟨item, member, found⟩
  · rintro none value ⟨item, member, found⟩
    exact none item member value found

/-- A member that a policy admits, and the function that its source is read as. -/
def Defines (reader : Reader) (policy : Policy) (member : Member) (definition : FunctionDef) : Prop :=
  policy.admits member = true ∧
    ∃ source, member.kind = .callable source ∧ reader.readFunction source = .ok definition

/-- A member that a policy admits, and the path that it refers to. -/
def Refers (policy : Policy) (member : Member) (path : String) : Prop :=
  policy.admits member = true ∧ member.kind = .submodule path

/-- A unit with the functions and references of members, and nothing else. -/
structure ModuleUnit.HoldsExactly (unit : ModuleUnit) (reader : Reader) (policy : Policy)
    (members : List Member) : Prop where
  /-- The last function of a name stays. -/
  function : ∀ name function, unit.functions.get? name = some function ↔
    ∃ member, IsLast (fun member => ∃ definition, Defines reader policy member definition ∧
      definition.name = name) members member ∧ Defines reader policy member function.definition
  /-- A name of no function has none. -/
  noFunction : ∀ name, unit.functions.get? name = none ↔
    ∀ member ∈ members, ∀ definition, Defines reader policy member definition →
      definition.name ≠ name
  /-- The last reference of a name stays. -/
  reference : ∀ name reference, unit.imports.get? name = some reference ↔
    reference.name = name ∧ ∃ member, IsLast (fun member => member.name = name ∧
      ∃ path, Refers policy member path) members member ∧ Refers policy member reference.path
  /-- A name of no reference has none. -/
  noReference : ∀ name, unit.imports.get? name = none ↔
    ∀ member ∈ members, ∀ path, Refers policy member path → member.name ≠ name

/-- The record about a member that a policy admits and that cannot be read as a function. -/
def rejection? (reader : Reader) (policy : Policy) (module : String) (member : Member) :
    Option Diagnostic :=
  if policy.admits member then
    match member.kind with
    | .callable source =>
      match reader.readFunction source with
      | .ok _ => none
      | .error cause => some ⟨.error, .extractionFailure, "Skipping function " ++ member.name ++
          " of module " ++ module ++ ": " ++ cause.message⟩
    | _ => none
  else none

section Members

variable (reader : Reader) (policy : Policy)

theorem function?_eq_some_iff (member : Member) (unit : FunctionUnit) :
    (if policy.admits member = true then reader.function? member else none) = some unit ↔
      Defines reader policy member unit.definition := by
  obtain ⟨definition⟩ := unit
  unfold Defines Reader.function?
  by_cases admitted : policy.admits member = true
  · rw [if_pos admitted]
    cases kind : member.kind with
    | callable source =>
        cases read : reader.readFunction source <;>
          simp [admitted, read, FunctionUnit.ofSource, Except.map, Except.toOption]
    | submodule path => simp
    | other shape => simp
  · simp [admitted]

theorem ofMember?_eq_some_iff (member : Member) (unit : ImportUnit) :
    (if policy.admits member = true then ImportUnit.ofMember? member else none) = some unit ↔
      unit.name = member.name ∧ Refers policy member unit.path := by
  obtain ⟨name, path⟩ := unit
  unfold Refers ImportUnit.ofMember?
  by_cases admitted : policy.admits member = true
  · rw [if_pos admitted]
    cases kind : member.kind <;> simp [admitted, eq_comm]
  · simp [admitted]

theorem rejection?_toList (module : String) (member : Member) :
    (if policy.admits member = true then memberRecords reader module member else []) =
      (rejection? reader policy module member).toList := by
  unfold rejection? memberRecords extractMember
  by_cases admitted : policy.admits member = true
  · rw [if_pos admitted, if_pos admitted]
    cases member.kind with
    | callable source =>
        cases read : reader.readFunction source <;>
          simp [read, FunctionUnit.ofSource, Except.map, Diagnostic.report, ModuleUnit.new,
            DiagnosticKind.defaultLevel]
    | submodule path => rfl
    | other shape => rfl
  · rw [if_neg admitted, if_neg admitted]
    rfl

end Members

section Extraction

variable (reader : Reader) (policy : Policy) (name : String)

theorem holdsExactly_extractModule (members : List Member) :
    (extractModule reader policy name members).1.HoldsExactly reader policy members := by
  rw [extractModule_eq]
  refine ⟨fun sought function => ?_, fun sought => ?_, fun sought reference => ?_, fun sought => ?_⟩
  · have given (member : Member) : (∃ unit : FunctionUnit,
        Defines reader policy member unit.definition ∧ unit.name = sought) ↔
          ∃ definition, Defines reader policy member definition ∧ definition.name = sought :=
      ⟨fun ⟨unit, found⟩ => ⟨unit.definition, found⟩, fun ⟨definition, found⟩ => ⟨⟨definition⟩, found⟩⟩
    rw [NameMap.get?_ofValues, List.filterMap_filter, find?_reverse_filterMap_eq_some_iff]
    simp only [function?_eq_some_iff, beq_iff_eq, given]
  · rw [NameMap.get?_ofValues, List.filterMap_filter, find?_reverse_filterMap_eq_none_iff]
    simp only [function?_eq_some_iff, beq_eq_false_iff_ne]
    exact ⟨fun none member among definition => none member among ⟨definition⟩,
      fun none member among unit => none member among unit.definition⟩
  · have given (member : Member) : (∃ unit : ImportUnit,
        (unit.name = member.name ∧ Refers policy member unit.path) ∧ unit.name = sought) ↔
          member.name = sought ∧ ∃ path, Refers policy member path := by
      constructor
      · rintro ⟨unit, ⟨same, refers⟩, found⟩
        exact ⟨same.symm.trans found, unit.path, refers⟩
      · rintro ⟨found, path, refers⟩
        exact ⟨⟨member.name, path⟩, ⟨rfl, refers⟩, found⟩
    rw [NameMap.get?_ofValues, List.filterMap_filter, find?_reverse_filterMap_eq_some_iff]
    simp only [ofMember?_eq_some_iff, beq_iff_eq, given]
    constructor
    · rintro ⟨member, last, same, refers⟩
      exact ⟨same.trans last.holds.1, member, last, refers⟩
    · rintro ⟨same, member, last, refers⟩
      exact ⟨member, last, same.trans last.holds.1.symm, refers⟩
  · rw [NameMap.get?_ofValues, List.filterMap_filter, find?_reverse_filterMap_eq_none_iff]
    simp only [ofMember?_eq_some_iff, beq_eq_false_iff_ne]
    constructor
    · intro none member among path refers
      exact none member among ⟨member.name, path⟩ ⟨rfl, refers⟩
    · rintro none member among unit ⟨same, refers⟩
      rw [same]
      exact none member among unit.path refers

theorem records_extractModule (members : List Member) :
    (extractModule reader policy name members).2 =
      members.filterMap (rejection? reader policy name) := by
  rw [extractModule_eq, List.filterMap_eq_flatMap_toList (rejection? reader policy name)]
  simp only [← rejection?_toList]
  induction members with
  | nil => rfl
  | cons member rest ih =>
      rw [List.flatMap_cons, ← ih]
      by_cases admitted : policy.admits member = true <;> simp [admitted]

/-- A member that cannot be read as a function might as well not be there. -/
theorem extractModule_skip (before after : List Member) {failing : Member} {source : String}
    {cause : ReadError} (callable : failing.kind = .callable source)
    (rejected : reader.readFunction source = .error cause) :
    (extractModule reader policy name (before ++ failing :: after)).1 =
      (extractModule reader policy name (before ++ after)).1 := by
  have function : reader.function? failing = none := by
    simp [Reader.function?, callable, FunctionUnit.ofSource, rejected, Except.map, Except.toOption]
  have reference : ImportUnit.ofMember? failing = none := by
    simp [ImportUnit.ofMember?, callable]
  rw [extractModule_eq, extractModule_eq]
  by_cases admitted : policy.admits failing = true <;> simp [admitted, function, reference]

/-- A step adds to the collector what it records, and changes nothing of what is there. -/
theorem run_extractMemberInto (module : ModuleUnit) (member : Member) (records : Diagnostics) :
    (extractMemberInto reader module member).run records =
      ((extractMember reader module member).1,
        records ++ (extractMember reader module member).2) := rfl

theorem run_foldlM_extractMemberInto (module : ModuleUnit) (members : List Member)
    (records : Diagnostics) :
    (members.foldlM (extractMemberInto reader) module).run records =
      ((extractMembers reader module members).1,
        records ++ (extractMembers reader module members).2) := by
  induction members generalizing module records with
  | nil =>
      change (module, records) = (module, records ++ [])
      rw [List.append_nil]
  | cons member rest ih =>
      rw [List.foldlM_cons, StateT.run_bind, run_extractMemberInto]
      change (rest.foldlM (extractMemberInto reader) (extractMember reader module member).1).run
        (records ++ (extractMember reader module member).2) = _
      rw [ih, List.append_assoc]
      rfl

theorem run_extractModuleInto (members : List Member) (records : Diagnostics) :
    (extractModuleInto reader policy name members).run records =
      ((extractModule reader policy name members).1,
        records ++ (extractModule reader policy name members).2) :=
  run_foldlM_extractMemberInto reader _ _ records

/-- Extraction of a module is exact: its unit has the name of the module and holds, for each name, the
last admitted function and the last admitted reference of that name and nothing else; the collector
keeps what was there, followed by one error for each admitted function that cannot be read, in the
order of the members. A member that cannot be read as a function changes nothing of the unit. -/
theorem extractModuleInto_exact (members : List Member) (prior : Diagnostics) :
    let extracted := (extractModuleInto reader policy name members).run prior
    extracted.1.name = name ∧ extracted.1.HoldsExactly reader policy members ∧
      extracted.2 = prior ++ members.filterMap (rejection? reader policy name) ∧
      ∀ before failing after source cause, members = before ++ failing :: after →
        failing.kind = .callable source → reader.readFunction source = .error cause →
          extracted.1 = ((extractModuleInto reader policy name (before ++ after)).run prior).1 := by
  rw [run_extractModuleInto]
  refine ⟨extractModule_name reader policy name members,
    holdsExactly_extractModule reader policy name members, ?_, ?_⟩
  · dsimp only
    rw [records_extractModule]
  · rintro before failing after source cause rfl callable rejected
    rw [run_extractModuleInto]
    exact extractModule_skip reader policy name before after callable rejected

end Extraction

/-- A reader that takes a text for a function named by its first letter. -/
def letterReader : Reader where
  language := "letters"
  extensions := []
  read text := match text.toList with
    | [] => .error (.parse "nothing to read")
    | letter :: _ => .ok ⟨[.functionDef (.mk (String.singleton letter) [text] [])]⟩
  members _ := .ok []

/-- Two members that are read as functions of one name, which is neither's own, two references of one
name, a member that cannot be read, and a private reference. -/
def mixedMembers : List Member :=
  [⟨"one", .callable "ga"⟩, ⟨"net", .submodule "a.net"⟩, ⟨"two", .callable ""⟩,
    ⟨"net", .submodule "b.net"⟩, ⟨"_own", .callable "gb"⟩, ⟨"_lib", .submodule "c.lib"⟩]

/-- Of the two functions and the two references the later ones stay, and the member that cannot be
read is reported after what was collected before. -/
theorem extractModuleInto_exact_mixed :
    let prior : Diagnostic := ⟨.debug, .skippedModule, "before"⟩
    let extracted := (extractModuleInto letterReader .client "client" mixedMembers).run [prior]
    extracted.1.functions.get? "g" = some ⟨.mk "g" ["gb"] []⟩ ∧
      extracted.1.imports.get? "net" = some ⟨"net", "b.net"⟩ ∧
      extracted.1.imports.get? "_lib" = none ∧
      extracted.2 = [prior, ⟨.error, .extractionFailure,
        "Skipping function two of module client: parse error: nothing to read"⟩] ∧
      letterReader.readFunction "" = .error (.parse "nothing to read") ∧
      extracted.1 = ((extractModuleInto letterReader .client "client"
        (mixedMembers.take 2 ++ mixedMembers.drop 3)).run [prior]).1 := by
  intro prior extracted
  obtain ⟨-, exact, records, skip⟩ :=
    extractModuleInto_exact letterReader .client "client" mixedMembers [prior]
  have rejected : letterReader.readFunction "" = .error (.parse "nothing to read") := by rfl
  have rejections : mixedMembers.filterMap (rejection? letterReader .client "client") =
      [⟨.error, .extractionFailure,
        "Skipping function two of module client: parse error: nothing to read"⟩] := by
    decide +kernel
  have unchanged := skip (mixedMembers.take 2) ⟨"two", .callable ""⟩ (mixedMembers.drop 3) "" _ rfl
    rfl rejected
  refine ⟨?_, ?_, ?_, records.trans (by rw [rejections]; rfl), rejected, unchanged⟩
  · have own : Defines letterReader .client ⟨"_own", .callable "gb"⟩ (.mk "g" ["gb"] []) :=
      ⟨rfl, "gb", rfl, by rfl⟩
    refine (exact.function "g" ⟨.mk "g" ["gb"] []⟩).mpr
      ⟨_, ⟨mixedMembers.take 4, [_], rfl, ⟨_, own, rfl⟩, ?_⟩, own⟩
    simp [Defines]
  · have net : Refers .client ⟨"net", .submodule "b.net"⟩ "b.net" := ⟨rfl, rfl⟩
    refine (exact.reference "net" ⟨"net", "b.net"⟩).mpr
      ⟨rfl, _, ⟨mixedMembers.take 3, [_, _], rfl, ⟨rfl, _, net⟩, ?_⟩, net⟩
    simp
  · refine (exact.noReference "_lib").mpr ?_
    simp [mixedMembers, Refers, Policy.admits, Member.isPublic]

end Respell
