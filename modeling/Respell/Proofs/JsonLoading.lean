import Respell.Proofs.TableLoading

/-!
Token tables in JSON documents. An object is a table exactly if it is tabular: each member is an
object of texts for tokens of a category, and no category stands twice. Its table is that of its
qualified names and texts in document order, so the last text of a token stays.
-/

set_option autoImplicit false

namespace Respell.TokenTable

/-- Members of an object that make up a table. -/
structure Tabular (members : List (String × Json)) : Prop where
  /-- Every member stands under a name of a category. -/
  known : ∀ member ∈ members, ∃ category : Category, category.Named member.1
  /-- No two members stand under names of one category. -/
  once : members.Pairwise fun first second =>
    ∀ category : Category, category.Named first.1 → ¬ category.Named second.1
  /-- Every member is an object whose keys are those of tokens of its category, all with texts. -/
  texts : ∀ member ∈ members, ∀ category : Category, category.Named member.1 →
    ∃ entries, member.2 = .object entries ∧ ∀ entry ∈ entries,
      (∃ token : Token, token.category = category ∧ token.key = entry.1) ∧
        ∃ text, entry.2 = .string text

/-- The texts of members by qualified name, in document order. -/
def documentPairs (members : List (String × Json)) : List (String × String) :=
  members.flatMap fun (name, value) =>
    (value.object?.getD []).filterMap fun (key, item) =>
      item.string?.map fun text => (name ++ "." ++ key, text)

/-- Texts by key as a JSON object. -/
def textsToJson (pairs : List (String × String)) : Json :=
  .object (pairs.map fun pair => (pair.1, .string pair.2))

theorem mapM_eq_some_iff_eq_map {α β : Type} {read : α → Option β} {write : β → α}
    (inverse : ∀ item value, read item = some value ↔ item = write value) {items : List α}
    {values : List β} : items.mapM read = some values ↔ items = values.map write := by
  simp only [mapM_eq_some_iff, inverse]
  rw [← List.forall₂_map_right_iff, List.forall₂_eq_eq_eq]

theorem textMembers?_eq_some_iff {json : Json} {pairs : List (String × String)} :
    textMembers? json = some pairs ↔ json = textsToJson pairs := by
  have member (item : String × Json) (pair : String × String) :
      (item.2.string?.map fun text => (item.1, text)) = some pair ↔
        item = (pair.1, .string pair.2) := by
    obtain ⟨key, value⟩ := item
    cases value <;> simp [Json.string?, Prod.ext_iff, eq_comm]
  cases json with
  | object members =>
      change members.mapM _ = some pairs ↔ _
      rw [mapM_eq_some_iff_eq_map member, textsToJson, Json.object.injEq]
  | _ => simp [textMembers?, Json.object?, textsToJson]

/-- A JSON object is loaded exactly if its members are groups of different categories. -/
theorem ofJson?_object_eq_some_iff {members : List (String × Json)} {table : TokenTable} :
    ofJson? (.object members) = some table ↔
      ∃ groups : List Group, (groups.map Group.category).Nodup ∧
        members = groups.map (fun group => (group.name, textsToJson group.pairs)) ∧
        table = ofList (entriesOf groups) := by
  have member (item : String × Json) (group : String × List (String × String)) :
      ((textMembers? item.2).map fun pairs => (item.1, pairs)) = some group ↔
        item = (group.1, textsToJson group.2) := by
    obtain ⟨name, value⟩ := item
    obtain ⟨other, pairs⟩ := group
    simp only [Option.map_eq_some_iff, textMembers?_eq_some_iff, Prod.mk.injEq]
    constructor
    · rintro ⟨_, rfl, rfl, rfl⟩
      exact ⟨rfl, rfl⟩
    · rintro ⟨rfl, rfl⟩
      exact ⟨pairs, rfl, rfl, rfl⟩
  change Option.bind (members.mapM _) ofSections? = some table ↔ _
  rw [Option.bind_eq_some_iff]
  simp only [mapM_eq_some_iff_eq_map member, ofSections?_eq_some_iff]
  constructor
  · rintro ⟨_, rfl, groups, once, rfl, rfl⟩
    exact ⟨groups, once, by rw [List.map_map]; rfl, rfl⟩
  · rintro ⟨groups, once, rfl, rfl⟩
    exact ⟨_, by rw [List.map_map]; rfl, groups, once, rfl, rfl⟩

/-- An object of texts for tokens of a category is that of a group. -/
theorem exists_entries {category : Category} {entries : List (String × Json)}
    (texts : ∀ entry ∈ entries,
      (∃ token : Token, token.category = category ∧ token.key = entry.1) ∧
        ∃ text, entry.2 = .string text) :
    ∃ tokens : List (Token × String), (∀ token ∈ tokens, token.1.category = category) ∧
      entries = tokens.map fun token => (token.1.key, .string token.2) := by
  induction entries with
  | nil => exact ⟨[], by simp, rfl⟩
  | cons entry rest ih =>
      obtain ⟨⟨⟨token, within, key⟩, text, value⟩, others⟩ := List.forall_mem_cons.mp texts
      obtain ⟨tokens, placed, rfl⟩ := ih others
      refine ⟨(token, text) :: tokens, List.forall_mem_cons.mpr ⟨within, placed⟩, ?_⟩
      rw [List.map_cons, ← value, key]

theorem tabular_iff {members : List (String × Json)} :
    Tabular members ↔ ∃ groups : List Group, (groups.map Group.category).Nodup ∧
      members = groups.map fun group => (group.name, textsToJson group.pairs) := by
  constructor
  · rintro ⟨known, once, texts⟩
    have grouped : members ∈
        Set.range (List.map fun group : Group => (group.name, textsToJson group.pairs)) := by
      rw [Set.range_list_map]
      intro member among
      obtain ⟨category, named⟩ := known member among
      obtain ⟨entries, object, found⟩ := texts member among category named
      obtain ⟨tokens, placed, rfl⟩ := exists_entries found
      exact ⟨⟨member.1, category, tokens, named, placed⟩, by
        simp [textsToJson, Group.pairs, Prod.ext_iff, object]⟩
    obtain ⟨groups, rfl⟩ := grouped
    refine ⟨groups, ?_, rfl⟩
    rw [List.pairwise_map] at once
    rw [List.Nodup, List.pairwise_map]
    refine once.imp fun {first second} apart same => ?_
    exact apart first.category first.named (same ▸ second.named)
  · rintro ⟨groups, once, rfl⟩
    rw [List.Nodup, List.pairwise_map] at once
    refine ⟨?_, ?_, ?_⟩
    · intro member among
      obtain ⟨group, -, rfl⟩ := List.mem_map.mp among
      exact ⟨group.category, group.named⟩
    · rw [List.pairwise_map]
      refine once.imp fun {first second} apart category one other => ?_
      exact apart ((one.unique first.named).symm.trans (other.unique second.named))
    · intro member among category named
      obtain ⟨group, -, rfl⟩ := List.mem_map.mp among
      obtain rfl := named.unique group.named
      refine ⟨_, rfl, fun entry present => ?_⟩
      obtain ⟨pair, inside, rfl⟩ := List.mem_map.mp present
      obtain ⟨token, placed, rfl⟩ := List.mem_map.mp inside
      exact ⟨⟨token.1, group.placed token placed, rfl⟩, token.2, rfl⟩

theorem documentPairs_groups (groups : List Group) :
    documentPairs (groups.map fun group => (group.name, textsToJson group.pairs)) =
      groups.flatMap fun group =>
        group.entries.map fun entry => (group.name ++ "." ++ entry.1.key, entry.2) := by
  rw [documentPairs, List.flatMap_map]
  refine List.flatMap_congr fun group _ => ?_
  simp [textsToJson, Group.pairs, Json.object?, Json.string?, Function.comp_def]

/-- The last text under a key is that of the token with the key. -/
theorem lookup_key {token : Token} {entries : List (Token × String)}
    (placed : ∀ entry ∈ entries, entry.1.category = token.category) :
    Json.lookup token.key (entries.map fun entry => (entry.1.key, .string entry.2)) =
      (entries.reverse.lookup token).map .string := by
  induction entries with
  | nil => rfl
  | cons entry rest ih =>
      obtain ⟨here, others⟩ := List.forall_mem_cons.mp placed
      rw [List.map_cons, Json.lookup, ih others, List.reverse_cons, List.lookup_append]
      by_cases same : entry.1 = token
      · subst same
        cases rest.reverse.lookup entry.1 <;> simp [List.lookup]
      · have key : entry.1.key ≠ token.key := fun key => same (Token.eq_of_key here key)
        have differs : (token == entry.1) = false := by simpa using Ne.symm same
        simp [List.lookup, key, differs]

/-- A text that holds a JSON object is loaded exactly if the object is tabular, and then to the table
of its qualified names and texts in document order. -/
theorem ofJsonText_object {text : String} {members : List (String × Json)}
    (document : Json.parse? text = some (.object members)) :
    ((∃ table, ofJsonText text = .ok table) ↔ Tabular members) ∧
      ∀ table, ofJsonText text = .ok table →
        ofPairs (documentPairs members) = .ok table ∧
        ∀ name entries, (name, Json.object entries) ∈ members →
          ∀ token : Token, token.category.Named name →
            Json.lookup token.key entries = (table.get? token).map .string := by
  have loaded (table : TokenTable) :
      ofJsonText text = .ok table ↔ ofJson? (.object members) = some table := by
    rw [ofJsonText, document, Option.bind_some]
    cases ofJson? (.object members) <;> simp
  simp only [loaded, ofJson?_object_eq_some_iff]
  refine ⟨?_, ?_⟩
  · rw [tabular_iff]
    constructor
    · rintro ⟨table, groups, once, same, -⟩
      exact ⟨groups, once, same⟩
    · rintro ⟨groups, once, same⟩
      exact ⟨_, groups, once, same, rfl⟩
  · rintro table ⟨groups, once, rfl, rfl⟩
    refine ⟨by rw [documentPairs_groups, ofPairs_groups], fun name entries member token named => ?_⟩
    obtain ⟨group, among, same⟩ := List.mem_map.mp member
    obtain ⟨rfl, object⟩ := Prod.mk.inj same
    obtain rfl := Json.object.inj object
    have within := named.unique group.named
    rw [get?_entriesOf once among within, Group.pairs, List.map_map]
    exact lookup_key fun entry present => (group.placed entry present).trans within.symm

/-- A document with the second name of assignments and a token that stands twice. -/
def repeatedText : String :=
  "\x7b\"assignement\": \x7b\"assign_key\": \"=\", \"assign_key\": \":=\\n\"\x7d, \"flow\": \x7b\x7d\x7d"

/-- The members of that document. -/
def repeatedMembers : List (String × Json) :=
  [("assignement", .object [("assign_key", .string "="), ("assign_key", .string ":=\n")]),
    ("flow", .object [])]

/-- The second text of the token stays. -/
theorem ofJsonText_object_repeated :
    Json.parse? repeatedText = some (.object repeatedMembers) ∧ Tabular repeatedMembers ∧
      ∃ table, ofJsonText repeatedText = .ok table ∧
        ofPairs [("assignement.assign_key", "="), ("assignement.assign_key", ":=\n")] = .ok table ∧
        table.get? (.assignment .assignKey) = some ":=\n" := by
  have document : Json.parse? repeatedText = some (.object repeatedMembers) := by cbv
  have loaded : ofJsonText repeatedText =
      .ok (ofList [(.assignment .assignKey, "="), (.assignment .assignKey, ":=\n")]) := by cbv
  obtain ⟨accepted, faithful⟩ := ofJsonText_object document
  exact ⟨document, accepted.mp ⟨_, loaded⟩, _, loaded, (faithful _ loaded).1, rfl⟩

/-- The two names of assignments are names of one category. -/
example : ofJson? (.object [("assignment", .object []), ("assignement", .object [])]) = none := by cbv

end Respell.TokenTable
