import Mathlib
import Respell.NameMap

/-!
Look-ups and entries of maps by name. Inserting changes one look-up and nothing else, and inserting
entries in the order of their names appends them. A map is known by its look-ups, so inserts under
different names may change places.
-/

set_option autoImplicit false

namespace Respell.NameMap

variable {α β : Type}

theorem find?_insertEntry (name other : String) (value : α) (entries : List (String × α)) :
    (insertEntry name value entries).find? (fun entry => entry.1 == other) =
      if other = name then some (name, value)
      else entries.find? fun entry => entry.1 == other := by
  have passed {entry : String × α} (rest : List (String × α)) (distinct : entry.1 ≠ other) :
      (entry :: rest).find? (fun entry => entry.1 == other) =
        rest.find? fun entry => entry.1 == other :=
    List.find?_cons_of_neg (by simpa using distinct)
  split
  next same =>
    subst same
    induction entries with
    | nil => simp [insertEntry]
    | cons first rest ih =>
        unfold insertEntry
        split
        next below => rw [passed _ (String.ne_of_lt below), ih]
        next => split <;> simp
  next distinct =>
    induction entries with
    | nil => exact passed [] (Ne.symm distinct)
    | cons first rest ih =>
        unfold insertEntry
        split
        next below => rw [List.find?_cons, List.find?_cons, ih]
        next notBelow =>
          split
          next above => exact passed _ (Ne.symm distinct)
          next notAbove =>
            have same : name = first.1 := String.le_antisymm notBelow notAbove
            rw [passed _ (Ne.symm distinct), passed _ (same ▸ Ne.symm distinct)]

@[simp]
theorem get?_empty (name : String) : (empty : NameMap α).get? name = none := rfl

/-- Inserting changes the look-up of its own name and no other. -/
theorem get?_insert (map : NameMap α) (name other : String) (value : α) :
    (map.insert name value).get? other = if other = name then some value else map.get? other := by
  rw [get?, insert, find?_insertEntry]
  split <;> rfl

/-- A name is looked up to the value of its entry. -/
theorem mem_entries_iff (map : NameMap α) (name : String) (value : α) :
    (name, value) ∈ map.entries ↔ map.get? name = some value := by
  obtain ⟨entries, increasing⟩ := map
  simp only [get?, Option.map_eq_some_iff]
  constructor
  · intro member
    have found : entries.find? (fun entry => entry.1 == name) = some (name, value) := by
      induction entries with
      | nil => simp at member
      | cons first rest ih =>
          obtain ⟨before, tail⟩ := List.pairwise_cons.mp increasing
          rcases List.mem_cons.mp member with rfl | later
          · simp
          · have distinct : first.1 ≠ name := by
              intro same
              have less := before (name, value) later
              exact String.lt_irrefl name (same ▸ less)
            simp [distinct, ih tail later]
    exact ⟨(name, value), found, rfl⟩
  · rintro ⟨⟨found, other⟩, look, rfl⟩
    have same : found = name := by simpa using List.find?_some look
    exact same ▸ List.mem_of_find?_eq_some look

theorem mem_values_iff (map : NameMap α) (value : α) :
    value ∈ map.values ↔ ∃ name, map.get? name = some value := by
  simp only [values, List.mem_map, Prod.exists, exists_eq_right, mem_entries_iff]

/-- The entry that was inserted last under a name stays. -/
theorem insert_insert (map : NameMap α) (name : String) (first second : α) :
    (map.insert name first).insert name second = map.insert name second := by
  have entries (list : List (String × α)) :
      insertEntry name second (insertEntry name first list) = insertEntry name second list := by
    induction list with
    | nil => simp [insertEntry]
    | cons head rest ih =>
        by_cases below : head.1 < name
        · simp [insertEntry, below, ih]
        · by_cases above : name < head.1 <;> simp [insertEntry, below, above]
  exact NameMap.ext (entries map.entries)

/-- An entry beyond all others is appended. -/
theorem entries_insert_of_lt (map : NameMap α) {name : String} (value : α)
    (beyond : ∀ entry ∈ map.entries, entry.1 < name) :
    (map.insert name value).entries = map.entries ++ [(name, value)] := by
  change insertEntry name value map.entries = _
  generalize map.entries = entries at beyond
  induction entries with
  | nil => rfl
  | cons first rest ih =>
      have below := beyond first (List.mem_cons_self ..)
      have more := ih fun entry member => beyond entry (List.mem_cons_of_mem first member)
      rw [insertEntry, if_pos below, more, List.cons_append]

/-- Entries inserted in the order of their names are the entries of the map. -/
theorem entries_ofList {pairs : List (String × α)}
    (increasing : pairs.Pairwise fun a b => a.1 < b.1) : (ofList pairs).entries = pairs := by
  have from_map (map : NameMap α)
      (beyond : ∀ entry ∈ map.entries, ∀ pair ∈ pairs, entry.1 < pair.1) :
      (pairs.foldl (fun map pair => map.insert pair.1 pair.2) map).entries =
        map.entries ++ pairs := by
    induction pairs generalizing map with
    | nil => simp
    | cons pair rest ih =>
        obtain ⟨before, tail⟩ := List.pairwise_cons.mp increasing
        have appended := map.entries_insert_of_lt pair.2
          fun entry member => beyond entry member pair (List.mem_cons_self ..)
        rw [List.foldl_cons, ih tail, appended]
        · simp
        · intro entry member other later
          rw [appended] at member
          rcases List.mem_append.mp member with old | new
          · exact beyond entry old other (List.mem_cons_of_mem pair later)
          · rw [List.mem_singleton.mp new]
            exact before other later
  have start := from_map empty (by simp [empty])
  rwa [empty, List.nil_append] at start

theorem ofList_entries (map : NameMap α) : ofList map.entries = map :=
  NameMap.ext (entries_ofList map.increasing)

/-- Maps with the same look-ups are the same. -/
theorem ext_get? {first second : NameMap α} (same : ∀ name, first.get? name = second.get? name) :
    first = second := by
  have nodup (map : NameMap α) : map.entries.Nodup := by
    refine map.increasing.imp ?_
    intro entry other less equal
    exact String.lt_irrefl other.1 (equal ▸ less)
  have members : first.entries.Perm second.entries := by
    refine (List.perm_ext_iff_of_nodup (nodup first) (nodup second)).mpr ?_
    intro entry
    rw [mem_entries_iff, mem_entries_iff, same]
  have asymmetric : ∀ entry other : String × α, entry ∈ first.entries → other ∈ second.entries →
      entry.1 < other.1 → other.1 < entry.1 → entry = other := by
    intro entry other _ _ less more
    exact absurd (String.lt_trans less more) (String.lt_irrefl entry.1)
  exact NameMap.ext (members.eq_of_pairwise asymmetric first.increasing second.increasing)

/-- Inserts under different names may change places. -/
theorem insert_comm (map : NameMap α) {name other : String} (distinct : name ≠ other)
    (value value' : α) :
    (map.insert name value).insert other value' = (map.insert other value').insert name value := by
  apply ext_get?
  intro sought
  simp only [get?_insert]
  by_cases isName : sought = name
  · subst isName
    simp [distinct]
  · simp [isName]

/-- The last value that pairs give to a name stays. -/
theorem get?_ofList (pairs : List (String × α)) (name : String) :
    (ofList pairs).get? name = pairs.reverse.lookup name := by
  have from_map (map : NameMap α) :
      (pairs.foldl (fun map pair => map.insert pair.1 pair.2) map).get? name =
        (pairs.reverse.lookup name).or (map.get? name) := by
    induction pairs generalizing map with
    | nil => simp
    | cons pair rest ih =>
        rw [List.foldl_cons, ih, get?_insert, List.reverse_cons, List.lookup_append, Option.or_assoc]
        by_cases same : name = pair.1
        · simp [same, List.lookup]
        · have differs : (name == pair.1) = false := by simpa using same
          simp [same, List.lookup, differs]
  have start := from_map empty
  rwa [get?_empty, Option.or_none] at start

/-- The order of pairs with different names does not matter. -/
theorem ofList_perm {first second : List (String × α)} (perm : first.Perm second)
    (distinct : (first.map Prod.fst).Nodup) : ofList first = ofList second := by
  refine perm.foldl_eq' ?_ empty
  intro pair member other among map
  by_cases same : pair.1 = other.1
  · rw [List.inj_on_of_nodup_map distinct member among same]
  · exact insert_comm map same pair.2 other.2

end Respell.NameMap
