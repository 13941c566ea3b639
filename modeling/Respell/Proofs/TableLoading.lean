import Mathlib
import Respell.Token.Loading

/-!
Loading of token tables from pairs and from sections. A name is that of one category and one token at
most. A table that is loaded gives each token the last text under its name, and sections are loaded
exactly if each is that of a category of its own and all their keys are tokens of it.
-/

set_option autoImplicit false

namespace Respell

/-! ### Names of categories and tokens -/

namespace Category

/-- Whether a category goes by a name: its own, or the second one of assignments. -/
def Named (category : Category) (name : String) : Prop :=
  name = category.key ∨ category = .assignment ∧ name = "assignement"

theorem ofKey?_eq_some_iff {name : String} {category : Category} :
    ofKey? name = some category ↔ category.Named name := by
  constructor
  · intro found
    unfold ofKey? at found
    split at found
    next second =>
      obtain rfl := Option.some.inj found
      exact .inr ⟨rfl, by simpa using second⟩
    next =>
      have same : category.key = name := by simpa using List.find?_some found
      exact .inl same.symm
  · rintro (rfl | ⟨rfl, rfl⟩)
    · cases category <;> decide
    · decide

theorem Named.unique {first second : Category} {name : String} (one : first.Named name)
    (other : second.Named name) : first = second := by
  rw [← ofKey?_eq_some_iff] at one other
  exact Option.some.inj (one.symm.trans other)

theorem named_key (category : Category) : category.Named category.key := .inl rfl

theorem Named.dot_notMem {category : Category} {name : String} (named : category.Named name) :
    '.' ∉ name.toList := by
  rcases named with rfl | ⟨-, rfl⟩
  · cases category <;> decide
  · decide

theorem mem_tokens_iff {category : Category} {token : Token} :
    token ∈ category.tokens ↔ token.category = category := by
  constructor
  · intro member
    cases category <;>
      · obtain ⟨inner, -, rfl⟩ := List.mem_map.mp member
        rfl
  · rintro rfl
    cases token with
    | function token => exact List.mem_map_of_mem (by cases token <;> decide)
    | assignment token => exact List.mem_map_of_mem (by cases token <;> decide)
    | operator token => exact List.mem_map_of_mem (by cases token <;> decide)
    | access token => exact List.mem_map_of_mem (by cases token <;> decide)
    | literal token => exact List.mem_map_of_mem (by cases token <;> decide)
    | flow token => exact List.mem_map_of_mem (by cases token <;> decide)

theorem nodup_keys (category : Category) : (category.tokens.map Token.key).Nodup := by
  cases category <;> decide

/-- A key is found as the one token of the category that has it. -/
theorem token?_eq_some_iff {category : Category} {key : String} {token : Token} :
    category.token? key = some token ↔ token.category = category ∧ token.key = key := by
  constructor
  · intro found
    exact ⟨mem_tokens_iff.mp (List.mem_of_find?_eq_some found), by simpa using List.find?_some found⟩
  · rintro ⟨within, rfl⟩
    have member := mem_tokens_iff.mpr within
    cases found : category.token? token.key with
    | none =>
        have differs := List.find?_eq_none.mp found token member
        simp at differs
    | some other =>
        have among := List.mem_of_find?_eq_some found
        have same : other.key = token.key := by simpa using List.find?_some found
        rw [List.inj_on_of_nodup_map category.nodup_keys among member same]

end Category

/-- A token is known by its category and its key. -/
theorem Token.eq_of_key {first second : Token} (category : first.category = second.category)
    (key : first.key = second.key) : first = second := by
  have found : second.category.token? second.key = some first :=
    Category.token?_eq_some_iff.mpr ⟨category, key⟩
  exact Option.some.inj (found.symm.trans (Category.token?_eq_some_iff.mpr ⟨rfl, rfl⟩))

namespace TokenTable

/-! ### Tables from lists -/

/-- The last text that pairs give to a token stays. -/
theorem get?_setAll (table : TokenTable) (pairs : List (Token × String)) (token : Token) :
    (table.setAll pairs).get? token = (pairs.reverse.lookup token).or (table.get? token) := by
  induction pairs generalizing table with
  | nil => rfl
  | cons pair rest ih =>
      rw [setAll, List.foldl_cons, ← setAll, ih, List.reverse_cons, List.lookup_append,
        Option.or_assoc]
      congr 1
      by_cases same : token = pair.1
      · simp [set, same, List.lookup]
      · have differs : (token == pair.1) = false := by simpa using same
        simp [set, same, List.lookup, differs]

theorem get?_ofList (pairs : List (Token × String)) (token : Token) :
    (ofList pairs).get? token = pairs.reverse.lookup token := by
  rw [ofList, get?_setAll]
  exact Option.or_none

/-- Pairs whose names all resolve give the texts to the tokens in order. -/
theorem foldlM_setNamed_eq_ok {pairs : List (String × String)} {tokens : List (Token × String)}
    (resolved : List.Forall₂ (fun pair entry => resolve pair.1 = .ok entry.1 ∧ pair.2 = entry.2)
      pairs tokens) (table : TokenTable) :
    pairs.foldlM (fun table pair => table.setNamed pair.1 pair.2) table =
      (.ok (table.setAll tokens) : Except ConfigError TokenTable) := by
  induction resolved generalizing table with
  | nil => rfl
  | @cons pair entry _ rest found _ ih =>
      obtain ⟨name, text⟩ := found
      rw [List.foldlM_cons]
      simp only [setNamed, name, text]
      exact ih (table.set entry.1 entry.2)

theorem ofPairs_eq_ok {pairs : List (String × String)} {tokens : List (Token × String)}
    (resolved : List.Forall₂ (fun pair entry => resolve pair.1 = .ok entry.1 ∧ pair.2 = entry.2)
      pairs tokens) : ofPairs pairs = .ok (ofList tokens) :=
  foldlM_setNamed_eq_ok resolved empty

theorem splitName_join {group : String} (whole : '.' ∉ group.toList) (key : String) :
    splitName (group ++ "." ++ key) = some (group, key) := by
  have letters : (group ++ "." ++ key).toList = group.toList ++ '.' :: key.toList := by simp
  have before : (group.toList ++ '.' :: key.toList).takeWhile (· != '.') = group.toList := by
    rw [List.takeWhile_append_of_pos]
    · simp
    · intro c member
      have differs : c ≠ '.' := fun same => whole (same ▸ member)
      simpa using differs
  rw [splitName, letters, before]
  simp

/-- A token is found under its key after any name of its category. -/
theorem resolve_join {group : String} {token : Token} (named : token.category.Named group) :
    resolve (group ++ "." ++ token.key) = .ok token := by
  have category := Category.ofKey?_eq_some_iff.mpr named
  have found : token.category.token? token.key = some token :=
    Category.token?_eq_some_iff.mpr ⟨rfl, rfl⟩
  simp only [resolve, splitName_join named.dot_notMem, category, found]

/-! ### Sections -/

/-- A group of a document: texts for tokens of one category, under a name of the category. -/
structure Group where
  /-- The name it stands under. -/
  name : String
  /-- The category. -/
  category : Category
  /-- Tokens with their texts, in order. -/
  entries : List (Token × String)
  /-- The name is one of the category. -/
  named : category.Named name
  /-- Every token is one of the category. -/
  placed : ∀ entry ∈ entries, entry.1.category = category

/-- The texts of a group by key. -/
def Group.pairs (group : Group) : List (String × String) :=
  group.entries.map fun entry => (entry.1.key, entry.2)

/-- The texts of all groups by token. -/
def entriesOf (groups : List Group) : List (Token × String) := groups.flatMap Group.entries

/-- A token has no text in the group of another category. -/
theorem Group.lookup_eq_none {group : Group} {token : Token}
    (other : token.category ≠ group.category) : group.entries.reverse.lookup token = none := by
  rw [List.lookup_eq_none_iff]
  intro entry member
  have within := group.placed entry (List.mem_reverse.mp member)
  have differs : token ≠ entry.1 := fun same => other (same ▸ within)
  simpa using differs

/-- Where no group is that of its category, a token has no text. -/
theorem get?_entriesOf_eq_none {groups : List Group} {token : Token}
    (absent : token.category ∉ groups.map Group.category) :
    (ofList (entriesOf groups)).get? token = none := by
  rw [get?_ofList, List.lookup_eq_none_iff]
  intro entry member
  obtain ⟨group, among, within⟩ := List.mem_flatMap.mp (List.mem_reverse.mp member)
  have differs : token ≠ entry.1 := by
    rintro rfl
    exact absent (group.placed entry within ▸ List.mem_map_of_mem among)
  simpa using differs

/-- A token has the last text that the group of its category gives it. -/
theorem get?_entriesOf {groups : List Group} (once : (groups.map Group.category).Nodup)
    {group : Group} (member : group ∈ groups) {token : Token}
    (within : token.category = group.category) :
    (ofList (entriesOf groups)).get? token = group.entries.reverse.lookup token := by
  rw [get?_ofList]
  induction groups with
  | nil => cases member
  | cons first rest ih =>
      obtain ⟨distinct, others⟩ := List.nodup_cons.mp once
      rw [entriesOf, List.flatMap_cons, List.reverse_append, List.lookup_append, ← entriesOf]
      rcases List.mem_cons.mp member with rfl | later
      · have absent := get?_entriesOf_eq_none (within ▸ distinct)
        rw [get?_ofList] at absent
        rw [absent, Option.none_or]
      · have other : token.category ≠ first.category := by
          rw [within]
          exact fun same => distinct (same ▸ List.mem_map_of_mem later)
        rw [first.lookup_eq_none other, Option.or_none]
        exact ih others later

theorem mapM_eq_some_iff {α β : Type} {read : α → Option β} {items : List α} {values : List β} :
    items.mapM read = some values ↔
      List.Forall₂ (fun item value => read item = some value) items values := by
  induction items generalizing values with
  | nil => simp [eq_comm]
  | cons item rest ih =>
      rw [List.mapM_cons, List.forall₂_cons_left_iff]
      simp only [Option.bind_eq_bind, Option.bind_eq_some_iff, ih, Option.pure_def, Option.some.injEq]
      constructor
      · rintro ⟨value, found, others, more, rfl⟩
        exact ⟨value, others, found, more, rfl⟩
      · rintro ⟨value, others, found, more, rfl⟩
        exact ⟨value, found, others, more, rfl⟩

/-- The tokens of a section are found exactly if its keys are those of tokens of the category. -/
theorem tokensOf?_eq_some_iff {category : Category} {pairs : List (String × String)}
    {entries : List (Token × String)} :
    tokensOf? category pairs = some entries ↔
      (∀ entry ∈ entries, entry.1.category = category) ∧
        pairs = entries.map fun entry => (entry.1.key, entry.2) := by
  rw [tokensOf?, mapM_eq_some_iff]
  constructor
  · intro found
    induction found with
    | nil => simp
    | cons head _ ih =>
        obtain ⟨token, key, rfl⟩ := Option.map_eq_some_iff.mp head
        obtain ⟨within, same⟩ := Category.token?_eq_some_iff.mp key
        exact ⟨List.forall_mem_cons.mpr ⟨within, ih.1⟩, by rw [List.map_cons, same, ← ih.2]⟩
  · rintro ⟨placed, rfl⟩
    rw [List.forall₂_map_left_iff, List.forall₂_same]
    intro entry member
    have found := Category.token?_eq_some_iff.mpr ⟨placed entry member, rfl⟩
    simp [found]

/-- Sections are loaded exactly if they are groups of different categories. -/
theorem ofSections?_eq_some_iff {sections : List (String × List (String × String))}
    {table : TokenTable} :
    ofSections? sections = some table ↔
      ∃ groups : List Group, (groups.map Group.category).Nodup ∧
        sections = groups.map (fun group => (group.name, group.pairs)) ∧
        table = ofList (entriesOf groups) := by
  simp only [ofSections?, Option.bind_eq_bind, Option.bind_eq_some_iff, mapM_eq_some_iff]
  constructor
  · rintro ⟨categories, named, loaded⟩
    split at loaded
    next once =>
      simp only [Option.bind_eq_some_iff, mapM_eq_some_iff, Option.some.injEq] at loaded
      obtain ⟨texts, read, rfl⟩ := loaded
      have grouped : ∃ groups : List Group, groups.map Group.category = categories ∧
          groups.map Group.entries = texts ∧
          sections = groups.map fun group => (group.name, group.pairs) := by
        clear once
        induction named generalizing texts with
        | nil =>
            cases read
            exact ⟨[], rfl, rfl, rfl⟩
        | @cons header category _ _ name _ ih =>
            obtain ⟨entries, others, ⟨_, same, found⟩, later, rfl⟩ :=
              List.forall₂_cons_left_iff.mp read
            obtain rfl := Option.some.inj (name.symm.trans same)
            obtain ⟨placed, pairs⟩ := tokensOf?_eq_some_iff.mp found
            obtain ⟨groups, rfl, rfl, rfl⟩ := ih others later
            have known := Category.ofKey?_eq_some_iff.mp name
            exact ⟨⟨header.1, category, entries, known, placed⟩ :: groups, rfl, rfl,
              by rw [List.map_cons, Group.pairs, ← pairs]⟩
      obtain ⟨groups, rfl, rfl, same⟩ := grouped
      exact ⟨groups, once, same, by rw [entriesOf, List.flatMap_def]⟩
    next => cases loaded
  · rintro ⟨groups, once, rfl, rfl⟩
    refine ⟨groups.map Group.category, ?_, ?_⟩
    · rw [List.forall₂_map_left_iff, List.forall₂_map_right_iff, List.forall₂_same]
      exact fun group _ => Category.ofKey?_eq_some_iff.mpr group.named
    · rw [if_pos once]
      simp only [Option.bind_eq_some_iff, mapM_eq_some_iff]
      refine ⟨groups.map Group.entries, ?_, by rw [entriesOf, List.flatMap_def]⟩
      rw [List.forall₂_map_left_iff, List.forall₂_map_right_iff, List.forall₂_same]
      exact fun group _ => ⟨group.category, Category.ofKey?_eq_some_iff.mpr group.named,
        tokensOf?_eq_some_iff.mpr ⟨group.placed, rfl⟩⟩

/-- The pairs of qualified names and texts of groups give the table of the groups. -/
theorem ofPairs_groups (groups : List Group) :
    ofPairs (groups.flatMap fun group =>
        group.entries.map fun entry => (group.name ++ "." ++ entry.1.key, entry.2)) =
      .ok (ofList (entriesOf groups)) := by
  apply ofPairs_eq_ok
  rw [entriesOf]
  induction groups with
  | nil => exact .nil
  | cons group rest ih =>
      rw [List.flatMap_cons, List.flatMap_cons]
      refine List.rel_append ?_ ih
      rw [List.forall₂_map_left_iff, List.forall₂_same]
      intro entry member
      have named : entry.1.category.Named group.name := group.placed entry member ▸ group.named
      exact ⟨resolve_join named, rfl⟩

end TokenTable

end Respell
