import Respell.Proofs.ModuleExtraction
import Respell.Proofs.TableLoading

/-!
Tables from pairs of qualified names and texts. Pairs are loaded exactly if all names resolve to
tokens, and each token then has the text of its last pair. The first name that does not resolve is
reported. Pairs for different tokens may come in any order.
-/

set_option autoImplicit false

namespace Respell.TokenTable

/-! ### Names -/

/-- A qualified name of a token: a name of its category, the first dot, and its key. -/
def Resolves (name : String) (token : Token) : Prop :=
  ∃ group, '.' ∉ group.toList ∧ name = group ++ "." ++ token.key ∧ token.category.Named group

/-- A name has no dot, or is split at its first one. -/
theorem splitName_cases (name : String) :
    ('.' ∉ name.toList ∧ splitName name = none) ∨ ∃ group key, '.' ∉ group.toList ∧
      name = group ++ "." ++ key ∧ splitName name = some (group, key) := by
  by_cases dotted : '.' ∈ name.toList
  · obtain ⟨group, key, text, single⟩ := List.eq_append_cons_of_mem dotted
    have whole : name = String.ofList group ++ "." ++ String.ofList key := by
      apply String.toList_inj.mp
      simp [text]
    have before : '.' ∉ (String.ofList group).toList := by simpa using single
    exact .inr ⟨_, _, before, whole, whole ▸ splitName_join before _⟩
  · have taken : name.toList.takeWhile (· != '.') = name.toList := by
      rw [List.takeWhile_eq_self_iff]
      intro c member
      have other : c ≠ '.' := fun same => dotted (same ▸ member)
      simpa using other
    exact .inl ⟨dotted, by simp [splitName, taken]⟩

/-- A name resolves to the token whose qualified name it is. -/
theorem resolve_eq_ok_iff {name : String} {token : Token} :
    resolve name = .ok token ↔ Resolves name token := by
  constructor
  · intro found
    rcases splitName_cases name with ⟨-, whole⟩ | ⟨group, key, single, joined, cut⟩
    · simp [resolve, whole] at found
    · rw [resolve, cut] at found
      dsimp only at found
      split at found
      next => cases found
      next category known =>
        split at found
        next other listed =>
          obtain rfl := Except.ok.inj found
          obtain ⟨rfl, rfl⟩ := Category.token?_eq_some_iff.mp listed
          exact ⟨group, single, joined, Category.ofKey?_eq_some_iff.mp known⟩
        next => cases found
  · rintro ⟨group, -, rfl, named⟩
    exact resolve_join named

instance (name : String) (token : Token) : Decidable (Resolves name token) :=
  decidable_of_iff _ resolve_eq_ok_iff

/-- A name that does not resolve is reported as it is written, but under the first name of
assignments. -/
theorem resolve_eq_error {name : String} {cause : ConfigError}
    (failed : resolve name = .error cause) :
    (∀ key, name = "assignement." ++ key → cause = .unknownToken ("assignment." ++ key)) ∧
      ((∀ key, name ≠ "assignement." ++ key) → cause = .unknownToken name) := by
  have second (key : String) : splitName ("assignement." ++ key) = some ("assignement", key) :=
    @splitName_join "assignement" (by decide) key
  rcases splitName_cases name with ⟨-, whole⟩ | ⟨group, key, -, rfl, cut⟩
  · rw [resolve, whole] at failed
    obtain rfl := Except.error.inj failed
    refine ⟨fun key same => ?_, fun _ => rfl⟩
    rw [same, second] at whole
    cases whole
  · rw [resolve, cut] at failed
    dsimp only at failed
    split at failed
    next unknown =>
      obtain rfl := Except.error.inj failed
      refine ⟨fun other same => ?_, fun _ => rfl⟩
      rw [same, second] at cut
      obtain ⟨rfl, -⟩ := Prod.mk.inj (Option.some.inj cut)
      cases unknown
    next category known =>
      split at failed
      next => cases failed
      next =>
        obtain rfl := Except.error.inj failed
        rcases Category.ofKey?_eq_some_iff.mp known with rfl | ⟨rfl, rfl⟩
        · refine ⟨fun other same => ?_, fun _ => rfl⟩
          rw [same, second] at cut
          obtain ⟨first, -⟩ := Prod.mk.inj (Option.some.inj cut)
          exact absurd first (by cases category <;> decide)
        · refine ⟨fun other same => ?_, fun differs => absurd rfl (differs key)⟩
          rw [same, second] at cut
          obtain ⟨-, rfl⟩ := Prod.mk.inj (Option.some.inj cut)
          rfl

/-! ### Pairs -/

/-- The token and the text that a pair stands for. -/
def resolved? (pair : String × String) : Option (Token × String) :=
  (resolve pair.1).toOption.map fun token => (token, pair.2)

theorem resolved?_eq_some_iff {pair : String × String} {entry : Token × String} :
    resolved? pair = some entry ↔ Resolves pair.1 entry.1 ∧ pair.2 = entry.2 := by
  rw [← resolve_eq_ok_iff, resolved?]
  cases resolve pair.1 with
  | error => simp [Except.toOption]
  | ok token => simp [Except.toOption, Prod.ext_iff]

section Resolved

variable {pairs : List (String × String)} (resolved : ∀ pair ∈ pairs, ∃ token, Resolves pair.1 token)
include resolved

theorem forall₂_resolved :
    List.Forall₂ (fun pair entry => resolve pair.1 = .ok entry.1 ∧ pair.2 = entry.2) pairs
      (pairs.filterMap resolved?) := by
  induction pairs with
  | nil => exact .nil
  | cons pair rest ih =>
      obtain ⟨⟨token, found⟩, others⟩ := List.forall_mem_cons.mp resolved
      have entry : resolved? pair = some (token, pair.2) := resolved?_eq_some_iff.mpr ⟨found, rfl⟩
      rw [List.filterMap_cons_some entry]
      exact .cons ⟨resolve_eq_ok_iff.mpr found, rfl⟩ (ih others)

/-- Pairs that all resolve are added to any table. -/
theorem ofPairs_append (before : List (String × String)) :
    ofPairs (before ++ pairs) =
      (ofPairs before).map fun table => table.setAll (pairs.filterMap resolved?) := by
  rw [ofPairs, List.foldlM_append]
  change (ofPairs before >>= fun table => _) = _
  cases ofPairs before with
  | error cause => rfl
  | ok table => exact foldlM_setNamed_eq_ok (forall₂_resolved resolved) table

/-- The first name that does not resolve ends the loading. -/
theorem ofPairs_eq_error {name text : String} {cause : ConfigError}
    (failed : resolve name = .error cause) (after : List (String × String)) :
    ofPairs (pairs ++ (name, text) :: after) = .error cause := by
  rw [ofPairs, List.foldlM_append]
  change (ofPairs pairs >>= fun table => _) = _
  rw [ofPairs_eq_ok (forall₂_resolved resolved)]
  change List.foldlM _ _ _ = _
  simp only [List.foldlM_cons, setNamed, failed]
  rfl

end Resolved

/-- Pairs all resolve and are loaded, or there is a first one that does not and is reported. -/
theorem ofPairs_cases (pairs : List (String × String)) :
    ((∀ pair ∈ pairs, ∃ token, Resolves pair.1 token) ∧
      ofPairs pairs = .ok (ofList (pairs.filterMap resolved?))) ∨
    ∃ before name text after cause, pairs = before ++ (name, text) :: after ∧
      (∀ pair ∈ before, ∃ token, Resolves pair.1 token) ∧ (∀ token, ¬Resolves name token) ∧
      resolve name = .error cause ∧ ofPairs pairs = .error cause := by
  have first : (∀ pair ∈ pairs, ∃ token, Resolves pair.1 token) ∨
      ∃ before name text after cause, pairs = before ++ (name, text) :: after ∧
        (∀ pair ∈ before, ∃ token, Resolves pair.1 token) ∧ resolve name = .error cause := by
    induction pairs with
    | nil => exact .inl (by simp)
    | cons pair rest ih =>
        cases found : resolve pair.1 with
        | error cause => exact .inr ⟨[], pair.1, pair.2, rest, cause, rfl, by simp, found⟩
        | ok token =>
            have here : ∃ token, Resolves pair.1 token := ⟨token, resolve_eq_ok_iff.mp found⟩
            rcases ih with all | ⟨before, name, text, after, cause, rfl, resolved, failed⟩
            · exact .inl (List.forall_mem_cons.mpr ⟨here, all⟩)
            · exact .inr ⟨pair :: before, name, text, after, cause, rfl,
                List.forall_mem_cons.mpr ⟨here, resolved⟩, failed⟩
  rcases first with resolved | ⟨before, name, text, after, cause, rfl, resolved, failed⟩
  · exact .inl ⟨resolved, ofPairs_eq_ok (forall₂_resolved resolved)⟩
  · refine .inr ⟨before, name, text, after, cause, rfl, resolved, fun token found => ?_, failed,
      ofPairs_eq_error resolved failed after⟩
    rw [resolve_eq_ok_iff.mpr found] at failed
    cases failed

/-! ### Texts of tokens -/

theorem lookup_eq_some_iff_find? {entries : List (Token × String)} {token : Token} {text : String} :
    entries.lookup token = some text ↔
      entries.find? (fun entry => entry.1 == token) = some (token, text) := by
  induction entries with
  | nil => simp
  | cons entry rest ih =>
      by_cases same : token = entry.1
      · simp [List.lookup, same, Prod.ext_iff]
      · have differs : (token == entry.1) = false := by simpa using same
        have differs' : (entry.1 == token) = false := by simpa using Ne.symm same
        simp [List.lookup, differs, differs', ih]

/-- A token has the text of the last pair whose name resolves to it. -/
theorem get?_filterMap_eq_some_iff {pairs : List (String × String)} {token : Token} {text : String} :
    (ofList (pairs.filterMap resolved?)).get? token = some text ↔
      ∃ name, IsLast (fun pair => Resolves pair.1 token) pairs (name, text) := by
  have resolves : (fun pair => ∃ entry, resolved? pair = some entry ∧ (entry.1 == token) = true) =
      fun pair => Resolves pair.1 token := by
    ext pair
    simp only [resolved?_eq_some_iff, beq_iff_eq]
    constructor
    · rintro ⟨entry, ⟨found, -⟩, rfl⟩
      exact found
    · intro found
      exact ⟨(token, pair.2), ⟨found, rfl⟩, rfl⟩
  rw [get?_ofList, lookup_eq_some_iff_find?, find?_reverse_filterMap_eq_some_iff, resolves]
  constructor
  · rintro ⟨⟨name, other⟩, last, given⟩
    obtain rfl : other = text := (resolved?_eq_some_iff.mp given).2
    exact ⟨name, last⟩
  · rintro ⟨name, last⟩
    exact ⟨_, last, resolved?_eq_some_iff.mpr ⟨last.holds, rfl⟩⟩

theorem get?_filterMap_eq_none_iff {pairs : List (String × String)} {token : Token} :
    (ofList (pairs.filterMap resolved?)).get? token = none ↔
      ∀ pair ∈ pairs, ¬Resolves pair.1 token := by
  simp only [get?_ofList, List.lookup_eq_none_iff, List.mem_reverse, List.mem_filterMap]
  constructor
  · intro none pair member found
    have differs := none (token, pair.2) ⟨pair, member, resolved?_eq_some_iff.mpr ⟨found, rfl⟩⟩
    simp at differs
  · rintro none entry ⟨pair, member, given⟩
    have differs : token ≠ entry.1 := by
      rintro rfl
      exact none pair member (resolved?_eq_some_iff.mp given).1
    simpa using differs

theorem pairwise_resolved {pairs : List (String × String)}
    (distinct : pairs.Pairwise fun a b => ∀ token, Resolves a.1 token → ¬Resolves b.1 token) :
    (pairs.filterMap resolved?).Pairwise fun a b => a.1 ≠ b.1 := by
  refine List.pairwise_filterMap.mpr (distinct.imp ?_)
  intro a b apart entry given other given' same
  have found := (resolved?_eq_some_iff.mp given).1
  rw [same] at found
  exact apart _ found (resolved?_eq_some_iff.mp given').1

/-- Texts for different tokens may be given in any order. -/
theorem setAll_perm {first second : List (Token × String)} (order : first.Perm second)
    (distinct : first.Pairwise fun a b => a.1 ≠ b.1) (table : TokenTable) :
    table.setAll first = table.setAll second := by
  refine order.foldl_eq' (fun a member b member' table => ?_) table
  have keys : (first.map Prod.fst).Nodup := List.pairwise_map.mpr distinct
  by_cases same : a.1 = b.1
  · rw [List.inj_on_of_nodup_map keys member member' same]
  · apply TokenTable.ext
    funext token
    simp only [set]
    by_cases here : token = b.1
    · simp [here, Ne.symm same]
    · simp [here]

/-- Loading pairs is exact. It succeeds exactly if every name is a qualified name of a token, and then
each token has the text of its last pair, if there is one. Otherwise the first other name is reported,
as it is written but under the first name of assignments. Pairs for different tokens may be added in
any order. -/
theorem ofPairs_exact (pairs : List (String × String)) :
    ((∃ table, ofPairs pairs = .ok table) ↔ ∀ pair ∈ pairs, ∃ token, Resolves pair.1 token) ∧
    (∀ table, ofPairs pairs = .ok table → ∀ token,
      (∀ text, table.get? token = some text ↔
        ∃ name, IsLast (fun pair => Resolves pair.1 token) pairs (name, text)) ∧
      (table.get? token = none ↔ ∀ pair ∈ pairs, ¬Resolves pair.1 token)) ∧
    (∀ cause, ofPairs pairs = .error cause → ∃ before name text after,
      pairs = before ++ (name, text) :: after ∧
      (∀ pair ∈ before, ∃ token, Resolves pair.1 token) ∧ (∀ token, ¬Resolves name token) ∧
      (∀ key, name = "assignement." ++ key → cause = .unknownToken ("assignment." ++ key)) ∧
      ((∀ key, name ≠ "assignement." ++ key) → cause = .unknownToken name)) ∧
    (∀ first second, first.Perm second → (∀ pair ∈ first, ∃ token, Resolves pair.1 token) →
      (first.Pairwise fun a b => ∀ token, Resolves a.1 token → ¬Resolves b.1 token) →
      ofPairs (pairs ++ first) = ofPairs (pairs ++ second)) := by
  refine ⟨?_, ?_, ?_, ?_⟩
  · rcases ofPairs_cases pairs with
      ⟨resolved, loaded⟩ | ⟨before, name, text, after, cause, same, -, none, -, failed⟩
    · exact iff_of_true ⟨_, loaded⟩ resolved
    · refine iff_of_false (fun ⟨table, loaded⟩ => ?_) fun resolved => ?_
      · rw [failed] at loaded
        cases loaded
      · obtain ⟨token, found⟩ := resolved (name, text) (by simp [same])
        exact none token found
  · intro table loaded token
    rcases ofPairs_cases pairs with ⟨-, same⟩ | ⟨_, _, _, _, _, -, -, -, -, failed⟩
    · obtain rfl := Except.ok.inj (loaded.symm.trans same)
      exact ⟨fun text => get?_filterMap_eq_some_iff, get?_filterMap_eq_none_iff⟩
    · rw [failed] at loaded
      cases loaded
  · intro cause failed
    rcases ofPairs_cases pairs with
      ⟨-, loaded⟩ | ⟨before, name, text, after, reported, cut, resolved, none, unknown, same⟩
    · rw [failed] at loaded
      cases loaded
    · obtain rfl := Except.error.inj (failed.symm.trans same)
      exact ⟨before, name, text, after, cut, resolved, none, resolve_eq_error unknown⟩
  · intro first second order resolved distinct
    have resolved' : ∀ pair ∈ second, ∃ token, Resolves pair.1 token := fun pair member =>
      resolved pair (order.mem_iff.mpr member)
    rw [ofPairs_append resolved, ofPairs_append resolved']
    congr 1
    funext table
    exact setAll_perm (order.filterMap resolved?) (pairwise_resolved distinct) table

/-- A token under both names of its category, one with an empty text, and a name that does not
resolve because the dots after the first one belong to the key. -/
theorem ofPairs_exact_assignment :
    (∃ table, ofPairs [("assignment.assign_key", ":="), ("flow.if_key", ""),
        ("assignement.assign_key", "=")] = .ok table ∧
      table.get? (.assignment .assignKey) = some "=" ∧ table.get? (.flow .ifKey) = some "" ∧
      table.get? (.flow .whileKey) = none) ∧
    (∃ before name text after,
      [("flow.if_key", "if"), ("assignement.assign.key", "="), ("flow", "")] =
        before ++ (name, text) :: after ∧ (∀ pair ∈ before, ∃ token, Resolves pair.1 token) ∧
      (∀ token, ¬Resolves name token) ∧
      ofPairs [("flow.if_key", "if"), ("assignement.assign.key", "="), ("flow", "")] =
        .error (.unknownToken "assignment.assign.key")) ∧
    ofPairs ([("flow.if_key", "")] ++ [("flow.if_key", "if"), ("assignment.assign_key", "=")]) =
      ofPairs ([("flow.if_key", "")] ++ [("assignment.assign_key", "="), ("flow.if_key", "if")]) := by
  have assign : Resolves "assignment.assign_key" (.assignment .assignKey) := by decide
  have assign' : Resolves "assignement.assign_key" (.assignment .assignKey) := by decide
  have branch : Resolves "flow.if_key" (.flow .ifKey) := by decide
  refine ⟨?_, ?_, ?_⟩
  · obtain ⟨loads, texts, -, -⟩ := ofPairs_exact [("assignment.assign_key", ":="),
      ("flow.if_key", ""), ("assignement.assign_key", "=")]
    obtain ⟨table, loaded⟩ := loads.mpr (by simpa using ⟨⟨_, assign⟩, ⟨_, branch⟩, ⟨_, assign'⟩⟩)
    exact ⟨table, loaded,
      ((texts table loaded _).1 _).mpr ⟨_, [_, _], [], rfl, assign', by simp⟩,
      ((texts table loaded _).1 _).mpr ⟨_, [_], [_], rfl, branch, by decide⟩,
      (texts table loaded _).2.mpr (by decide)⟩
  · have failed : ofPairs [("flow.if_key", "if"), ("assignement.assign.key", "="), ("flow", "")] =
        .error (.unknownToken "assignment.assign.key") := rfl
    obtain ⟨before, name, text, after, cut, resolved, none, -⟩ := (ofPairs_exact _).2.2.1 _ failed
    exact ⟨before, name, text, after, cut, resolved, none, failed⟩
  · refine (ofPairs_exact _).2.2.2 _ _ (.swap ..) (by simpa using ⟨⟨_, branch⟩, ⟨_, assign⟩⟩) ?_
    have apart (token : Token) (found : Resolves "flow.if_key" token) :
        ¬Resolves "assignment.assign_key" token := by
      obtain rfl := Except.ok.inj
        ((resolve_eq_ok_iff.mpr branch).symm.trans (resolve_eq_ok_iff.mpr found))
      decide
    simpa using apart

end Respell.TokenTable
