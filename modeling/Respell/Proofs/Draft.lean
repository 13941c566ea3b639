import Mathlib
import Respell.Render.Draft

/-!
Drafts under their operations. A draft is intact if it has a result and no records; the value of an
intact draft is what the drafts it is made of give when each of them is intact. A draft is candid if
all it records are errors and warnings about dropped parts, of kinds that are about rendering, and its
fault is of such a kind.
What a draft spends at a level is the number of its records there, which does not depend on texts.
-/

set_option autoImplicit false

namespace Respell

/-- Whether a kind is about rendering, and not about the files and modules of a package. -/
def DiagnosticKind.isRendering : DiagnosticKind → Bool
  | .extractionFailure | .missingCollaborator | .skippedModule => false
  | _ => true

theorem DiagnosticKind.defaultLevel_of_isRendering {kind : DiagnosticKind}
    (own : kind.isRendering = true) : kind.defaultLevel = .error := by
  cases kind <;> first | rfl | cases own

namespace Render.Draft

variable {α β : Type}

/-- The value of a draft that has one and recorded nothing. -/
def intact? (draft : Draft α) : Option α :=
  match draft.result, draft.records with
  | .ok value, [] => some value
  | _, _ => none

@[simp]
theorem pure_eq (value : α) : (Pure.pure value : Draft α) = pure value := rfl

@[simp]
theorem bind_eq (draft : Draft α) (next : α → Draft β) : (draft >>= next) = draft.bind next := rfl

@[simp]
theorem intact?_pure (value : α) : (pure value).intact? = some value := rfl

@[simp]
theorem intact?_fail (fault : Fault) : (fail fault : Draft α).intact? = none := rfl

@[simp]
theorem intact?_record (diagnostic : Diagnostic) : (record diagnostic).intact? = none := rfl

/-- A chain of drafts is intact exactly if every link is. -/
@[simp]
theorem intact?_bind (draft : Draft α) (next : α → Draft β) :
    (draft.bind next).intact? = draft.intact?.bind fun value => (next value).intact? := by
  obtain ⟨result, records⟩ := draft
  cases result with
  | error fault => rfl
  | ok value =>
      cases records with
      | nil => simp [bind, intact?]
      | cons first rest => cases h : (next value).result <;> simp [bind, intact?, h]

/-- Settling keeps an intact draft and makes no other one intact. -/
@[simp]
theorem intact?_settled (draft : Draft String) : draft.settled.intact? = draft.intact? := by
  obtain ⟨result, records⟩ := draft
  cases result with
  | error fault => simp [settled, settle, intact?]
  | ok text => rfl

theorem settle_of_intact {draft : Draft String} {text : String}
    (whole : draft.intact? = some text) : draft.settle = (.rendered text, []) := by
  obtain ⟨result, records⟩ := draft
  cases result with
  | error fault => simp [intact?] at whole
  | ok value =>
      cases records with
      | nil => simpa [intact?, settle] using whole
      | cons first rest => simp [intact?] at whole

theorem settle_records_ne_nil {draft : Draft String} (broken : draft.intact? = none) :
    draft.settle.2 ≠ [] := by
  obtain ⟨result, records⟩ := draft
  cases result with
  | error fault => simp [settle]
  | ok value =>
      cases records with
      | nil => simp [intact?] at broken
      | cons first rest => simp [settle]

/-- A record that rendering may make: an error, or a warning that a part was dropped. -/
def Telling (record : Diagnostic) : Prop :=
  record.level = .error ∨ record.level = .warning ∧ record.kind = .unsupportedConstruct

/-- All records are telling, and they and a fault are about rendering. -/
structure Candid (draft : Draft α) : Prop where
  /-- Each record is telling. -/
  telling : ∀ record ∈ draft.records, Telling record
  /-- Each record is about rendering. -/
  own : ∀ record ∈ draft.records, record.kind.isRendering = true
  /-- A fault is about rendering. -/
  fault : ∀ fault, draft.result = .error fault → fault.kind.isRendering = true

namespace Candid

/-- A fault is reported as an error. -/
theorem grave {draft : Draft α} (candid : Candid draft) (fault : Fault)
    (failed : draft.result = .error fault) : fault.kind.defaultLevel = .error :=
  DiagnosticKind.defaultLevel_of_isRendering (candid.fault fault failed)

theorem pure (value : α) : Candid (Draft.pure value) :=
  ⟨by simp [Draft.pure], by simp [Draft.pure], by simp [Draft.pure]⟩

theorem fail {fault : Fault} (own : fault.kind.isRendering = true) :
    Candid (Draft.fail fault : Draft α) := by
  refine ⟨by simp [Draft.fail], by simp [Draft.fail], ?_⟩
  intro other same
  have equal : fault = other := by simpa [Draft.fail] using same
  exact equal ▸ own

theorem record {diagnostic : Diagnostic} (told : Telling diagnostic)
    (own : diagnostic.kind.isRendering = true) : Candid (Draft.record diagnostic) :=
  ⟨by simpa [Draft.record] using told, by simpa [Draft.record] using own, by simp [Draft.record]⟩

theorem bind {draft : Draft α} {next : α → Draft β} (first : Candid draft)
    (more : ∀ value, Candid (next value)) : Candid (draft.bind next) := by
  obtain ⟨result, records⟩ := draft
  cases result with
  | error fault =>
      refine ⟨first.telling, first.own, ?_⟩
      intro other same
      rw [← Except.error.inj same]
      exact first.fault fault rfl
  | ok value =>
      refine ⟨?_, ?_, (more value).fault⟩
      · intro record member
        rcases List.mem_append.mp member with before | after
        · exact first.telling record before
        · exact (more value).telling record after
      · intro record member
        rcases List.mem_append.mp member with before | after
        · exact first.own record before
        · exact (more value).own record after

/-- What is settled is telling too: the report of a fault is an error. -/
theorem telling_settle {draft : Draft String} (candid : Candid draft) :
    ∀ record ∈ draft.settle.2, Telling record := by
  obtain ⟨result, records⟩ := draft
  cases result with
  | ok text => exact candid.telling
  | error fault =>
      intro record member
      rcases List.mem_append.mp member with before | last
      · exact candid.telling record before
      · rw [List.mem_singleton.mp last]
        exact .inl (candid.grave fault rfl)

/-- What is settled is about rendering too. -/
theorem own_settle {draft : Draft String} (candid : Candid draft) :
    ∀ record ∈ draft.settle.2, record.kind.isRendering = true := by
  obtain ⟨result, records⟩ := draft
  cases result with
  | ok text => exact candid.own
  | error fault =>
      intro record member
      rcases List.mem_append.mp member with before | last
      · exact candid.own record before
      · rw [List.mem_singleton.mp last]
        exact candid.fault fault rfl

theorem settled {draft : Draft String} (candid : Candid draft) : Candid draft.settled :=
  ⟨candid.telling_settle, candid.own_settle, by simp [Draft.settled]⟩

end Candid

/-- Telling records are clean only if there are none. -/
theorem isClean_iff_eq_nil {records : Diagnostics} (telling : ∀ record ∈ records, Telling record) :
    records.isClean = true ↔ records = [] := by
  cases records with
  | nil => simp [Diagnostics.isClean]
  | cons first rest =>
      have level : first.level ≠ .debug := by
        rcases telling first (List.mem_cons_self ..) with error | ⟨warning, -⟩ <;> simp [*]
      simp [Diagnostics.isClean, level]

/-- Whether a draft has a result. -/
def succeeds (draft : Draft α) : Bool :=
  match draft.result with
  | .ok _ => true
  | .error _ => false

/-- The records of a draft at a level, and whether it has a result. -/
structure Spends (level : Level) (draft : Draft α) (cost : Nat) (done : Bool) : Prop where
  /-- The number of records at the level. -/
  cost : draft.records.countAt level = cost
  /-- Whether there is a result. -/
  done : draft.succeeds = done

/-- What a report of an error costs at a level. -/
def errorCost (level : Level) : Nat := if level = .error then 1 else 0

/-- What a warning costs at a level. -/
def warningCost (level : Level) : Nat := if level = .warning then 1 else 0

theorem countAt_append (first second : Diagnostics) (level : Level) :
    (first ++ second : Diagnostics).countAt level = first.countAt level + second.countAt level := by
  simp [Diagnostics.countAt]

theorem countAt_error {record : Diagnostic} (grave : record.level = .error) (level : Level) :
    Diagnostics.countAt [record] level = errorCost level := by
  simp only [Diagnostics.countAt, errorCost, grave, List.filter_cons, List.filter_nil, eq_comm]
  by_cases same : level = .error <;> simp [same]

theorem countAt_warning {record : Diagnostic} (mild : record.level = .warning) (level : Level) :
    Diagnostics.countAt [record] level = warningCost level := by
  simp only [Diagnostics.countAt, warningCost, mild, List.filter_cons, List.filter_nil, eq_comm]
  by_cases same : level = .warning <;> simp [same]

namespace Spends

variable {level : Level}

theorem of_eq {draft : Draft α} {cost cost' : Nat} {done done' : Bool}
    (spends : Spends level draft cost done) (same : cost = cost') (agree : done = done') :
    Spends level draft cost' done' := same ▸ agree ▸ spends

theorem pure (value : α) : Spends level (Draft.pure value) 0 true := ⟨rfl, rfl⟩

theorem fail (fault : Fault) : Spends level (Draft.fail fault : Draft α) 0 false := ⟨rfl, rfl⟩

theorem error {record : Diagnostic} (grave : record.level = .error) :
    Spends level (Draft.record record) (errorCost level) true :=
  ⟨countAt_error grave level, rfl⟩

theorem warning {record : Diagnostic} (mild : record.level = .warning) :
    Spends level (Draft.record record) (warningCost level) true :=
  ⟨countAt_warning mild level, rfl⟩

/-- The costs of a chain add up until a link fails. -/
theorem bind {draft : Draft α} {next : α → Draft β} {cost more : Nat} {done last : Bool}
    (first : Spends level draft cost done)
    (rest : ∀ value, draft.result = .ok value → Spends level (next value) more last) :
    Spends level (draft.bind next) (cost + if done then more else 0) (done && last) := by
  obtain ⟨result, records⟩ := draft
  obtain ⟨cost_eq, done_eq⟩ := first
  subst done_eq
  cases result with
  | error fault => exact ⟨by simpa [Draft.bind, succeeds] using cost_eq, rfl⟩
  | ok value =>
      have second := rest value rfl
      refine ⟨?_, second.done⟩
      change Diagnostics.countAt (records ++ (next value).records) level = _
      rw [countAt_append, second.cost]
      exact congrArg (· + more) cost_eq

theorem settled (draft : Draft String) :
    Spends level draft.settled (draft.settle.2.countAt level) true := ⟨rfl, rfl⟩

/-- A draft that is settled costs an error more if it has no result. -/
theorem countAt_settle {draft : Draft String} {cost : Nat} {done : Bool}
    (spends : Spends level draft cost done) (candid : draft.Candid) :
    draft.settle.2.countAt level = cost + if done then 0 else errorCost level := by
  obtain ⟨result, records⟩ := draft
  obtain ⟨cost_eq, done_eq⟩ := spends
  subst done_eq
  cases result with
  | ok text => exact cost_eq
  | error fault =>
      have last := @countAt_error (.report fault.kind fault.message) (candid.grave fault rfl) level
      change Diagnostics.countAt (records ++ [_]) level = _
      rw [countAt_append, last]
      exact congrArg (· + errorCost level) cost_eq

end Spends

theorem isRendered_settle (draft : Draft String) : draft.settle.1.isRendered = draft.succeeds := by
  obtain ⟨result, records⟩ := draft
  cases result <;> rfl

end Render.Draft

end Respell
