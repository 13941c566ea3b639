import Respell.Proofs.JsonLoading
import Respell.Proofs.JsonText
import Respell.Proofs.TomlText
import Respell.Proofs.YamlText
import Respell.Token.Format

/-!
Writing and loading of token tables. A table may be arranged in groups of categories in any order, and
the groups be written in each format, with texts in any spelling. Every text of a table is loaded as
the table, and so are its qualified names and texts in any order.
-/

set_option autoImplicit false

namespace Respell

open Respell.Yaml (IsKey)

/-! ### Names are words -/

theorem isKey_of_all {name : String} (some : name.toList ≠ [])
    (letters : name.toList.all Text.isLetter = true) (near : name.toList.length ≤ 1024) : IsKey name :=
  ⟨⟨some, List.all_eq_true.mp letters⟩, near⟩

theorem Category.Named.isKey {category : Category} {name : String} (named : category.Named name) :
    IsKey name := by
  rcases named with rfl | ⟨-, rfl⟩
  · cases category <;> exact isKey_of_all (by decide) (by decide) (by decide)
  · exact isKey_of_all (by decide) (by decide) (by decide)

theorem Token.isKey_key (token : Token) : IsKey token.key := by
  cases token with
  | function token => cases token <;> exact isKey_of_all (by decide) (by decide) (by decide)
  | assignment token => cases token <;> exact isKey_of_all (by decide) (by decide) (by decide)
  | operator token => cases token <;> exact isKey_of_all (by decide) (by decide) (by decide)
  | access token => cases token <;> exact isKey_of_all (by decide) (by decide) (by decide)
  | literal token => cases token <;> exact isKey_of_all (by decide) (by decide) (by decide)
  | flow token => cases token <;> exact isKey_of_all (by decide) (by decide) (by decide)

namespace TokenTable

/-! ### Arrangements -/

theorem mem_entries {table : TokenTable} {category : Category} {entry : Token × String} :
    entry ∈ table.entries category ↔
      entry.1.category = category ∧ table.get? entry.1 = some entry.2 := by
  rw [entries, List.mem_filterMap]
  constructor
  · rintro ⟨token, member, found⟩
    obtain ⟨text, get, rfl⟩ := Option.map_eq_some_iff.mp found
    exact ⟨Category.mem_tokens_iff.mp member, get⟩
  · rintro ⟨within, get⟩
    exact ⟨entry.1, Category.mem_tokens_iff.mpr within, by rw [get]; rfl⟩

/-- No key stands twice among the entries of a category. -/
theorem nodup_keys_entries (table : TokenTable) (category : Category) :
    ((table.entries category).map fun entry => entry.1.key).Nodup := by
  have keys := category.nodup_keys
  rw [List.Nodup, List.pairwise_map] at keys
  rw [List.Nodup, List.pairwise_map, entries, List.pairwise_filterMap]
  refine keys.imp fun {first second} apart => ?_
  simp only [Option.map_eq_some_iff]
  rintro _ ⟨_, -, rfl⟩ _ ⟨_, -, rfl⟩
  exact apart

/-- Pairs that are exactly the texts of a table give the table. -/
theorem ofList_eq {table : TokenTable} {pairs : List (Token × String)}
    (exact : ∀ entry, entry ∈ pairs ↔ table.get? entry.1 = some entry.2) : ofList pairs = table := by
  refine TokenTable.ext (funext fun token => ?_)
  rw [get?_ofList]
  cases found : pairs.reverse.lookup token with
  | none =>
      rw [List.lookup_eq_none_iff] at found
      cases get : table.get? token with
      | none => rfl
      | some text =>
          have member := List.mem_reverse.mpr ((exact (token, text)).mpr get)
          simpa using found _ member
  | some text =>
      obtain ⟨before, after, same, -⟩ := List.lookup_eq_some_iff.mp found
      have member : (token, text) ∈ pairs := List.mem_reverse.mp (by simp [same])
      exact ((exact _).mp member).symm

/-- Groups that hold the texts of a table: each category at most once, with all its texts in any
order, and no category left out that has a text. -/
structure Arranges (table : TokenTable) (groups : List Group) : Prop where
  /-- No category stands twice. -/
  once : (groups.map Group.category).Nodup
  /-- A group holds the texts of its category. -/
  texts : ∀ group ∈ groups, group.entries.Perm (table.entries group.category)
  /-- A category that is left out has no texts. -/
  others : ∀ category, category ∉ groups.map Group.category → table.lacks category = true

namespace Arranges

variable {table : TokenTable} {groups : List Group}

theorem ofList_entriesOf (arranges : table.Arranges groups) : ofList (entriesOf groups) = table := by
  refine ofList_eq fun entry => ?_
  rw [entriesOf, List.mem_flatMap]
  constructor
  · rintro ⟨group, member, among⟩
    exact (mem_entries.mp ((arranges.texts group member).mem_iff.mp among)).2
  · intro get
    have present : entry ∈ table.entries entry.1.category := mem_entries.mpr ⟨rfl, get⟩
    by_cases known : entry.1.category ∈ groups.map Group.category
    · obtain ⟨group, member, same⟩ := List.mem_map.mp known
      rw [← same] at present
      exact ⟨group, member, (arranges.texts group member).mem_iff.mpr present⟩
    · have missing := arranges.others _ known
      rw [lacks, List.isEmpty_iff] at missing
      rw [missing] at present
      cases present

/-- Groups of different categories have different names. -/
theorem nodup_names (arranges : table.Arranges groups) : (groups.map Group.name).Nodup := by
  have once := arranges.once
  rw [List.Nodup, List.pairwise_map] at once ⊢
  refine once.imp fun {first second} apart same => apart (first.named.unique ?_)
  rw [same]
  exact second.named

theorem nodup_keys (arranges : table.Arranges groups) {group : Group} (member : group ∈ groups) :
    (group.pairs.map Prod.fst).Nodup := by
  rw [Group.pairs, List.map_map]
  exact ((arranges.texts group member).map _).nodup_iff.mpr (table.nodup_keys_entries _)

end Arranges

/-! ### Texts of a table -/

/-- The sections of a document of groups. -/
def sectionsOf (groups : List Group) : List (String × List (String × String)) :=
  groups.map fun group => (group.name, group.pairs)

def membersOf (groups : List Group) : List (String × Json) :=
  groups.map fun group => (group.name, textsToJson group.pairs)

theorem textual_membersOf (groups : List Group) : Json.Textual 2 (.object (membersOf groups)) := by
  intro member among
  obtain ⟨group, -, rfl⟩ := List.mem_map.mp among
  intro entry within
  obtain ⟨pair, -, rfl⟩ := List.mem_map.mp within
  trivial

end TokenTable

open TokenTable (Group sectionsOf membersOf)

/-- Texts of groups in a format. -/
def TableFormat.Writes : TableFormat → List Group → String → Prop
  | .toml, groups, text => Toml.Written (sectionsOf groups) text.toList
  | .json, groups, text => Json.Written 2 (.object (membersOf groups)) text.toList
  | .yaml, groups, text => Yaml.Written (sectionsOf groups) text.toList

/-- Groups have a text in each format, whatever their texts are. -/
theorem TableFormat.exists_writes (format : TableFormat) (groups : List Group) :
    ∃ text, format.Writes groups text := by
  have names : ∀ table ∈ sectionsOf groups, IsKey table.1 := by
    intro table member
    obtain ⟨group, -, rfl⟩ := List.mem_map.mp member
    exact group.named.isKey
  have keys : ∀ table ∈ sectionsOf groups, ∀ pair ∈ table.2, IsKey pair.1 := by
    intro table member pair within
    obtain ⟨group, -, rfl⟩ := List.mem_map.mp member
    obtain ⟨entry, -, rfl⟩ := List.mem_map.mp within
    exact entry.1.isKey_key
  cases format with
  | toml =>
      obtain ⟨text, written⟩ := Toml.exists_written (fun table member => (names table member).word)
        fun table member pair within => (keys table member pair within).word
      exact ⟨String.ofList text, by rwa [Writes, String.toList_ofList]⟩
  | json => exact ⟨_, Json.written_compact (TokenTable.textual_membersOf groups)⟩
  | yaml =>
      obtain ⟨text, written⟩ := Yaml.exists_written names keys
      exact ⟨String.ofList text, by rwa [Writes, String.toList_ofList]⟩

namespace TokenTable

theorem mapM_map_eq_some {α β γ : Type} {read : β → Option γ} {write : α → β} {value : α → γ}
    (inverse : ∀ item, read (write item) = some (value item)) (items : List α) :
    (items.map write).mapM read = some (items.map value) := by
  rw [mapM_eq_some_iff, List.forall₂_map_left_iff, List.forall₂_map_right_iff, List.forall₂_same]
  exact fun item _ => inverse item

theorem entriesOf?_mapping {α : Type} (name : α → String) (value : α → Yaml.Node) (items : List α) :
    entriesOf? (.mapping (items.map fun item => (.scalar (name item) true, value item))) =
      some (items.map fun item => (name item, value item)) :=
  mapM_map_eq_some (by intro item; rfl) items

/-- The node of a section is read as the texts of the section. -/
theorem textsOf?_node (body : Yaml.Body) : textsOf? body.node = some body.pairs := by
  cases body with
  | absent => rfl
  | braces => rfl
  | block pairs =>
      have entries := entriesOf?_mapping Prod.fst (fun pair => .scalar pair.2 false) pairs
      have texts : (pairs.map fun pair => (pair.1, Yaml.Node.scalar pair.2 false)).mapM
          (fun item => (textOf? item.2).map fun text => (item.1, text)) = some (pairs.map id) :=
        mapM_map_eq_some (by intro pair; rfl) pairs
      rw [List.map_id] at texts
      rw [Yaml.Body.node, textsOf?, entries]
      exact texts

theorem ofYaml?_sections (entries : List (String × Yaml.Body)) :
    ofYaml? (.mapping (entries.map fun entry => (.scalar entry.1 true, entry.2.node))) =
      ofSections? (entries.map fun entry => (entry.1, entry.2.pairs)) := by
  have sections : (entries.map fun entry => (entry.1, entry.2.node)).mapM
      (fun item => (textsOf? item.2).map fun texts => (item.1, texts)) =
        some (entries.map fun entry => (entry.1, entry.2.pairs)) :=
    mapM_map_eq_some (by intro entry; simp [textsOf?_node]) entries
  rw [ofYaml?, entriesOf?_mapping Prod.fst]
  exact congrArg (Option.bind · ofSections?) sections

namespace Arranges

variable {table : TokenTable} {groups : List Group} {text : String}

theorem ofSections?_eq (arranges : table.Arranges groups) :
    ofSections? (sectionsOf groups) = some table :=
  ofSections?_eq_some_iff.mpr ⟨groups, arranges.once, rfl, arranges.ofList_entriesOf.symm⟩

theorem ofTomlText_eq (arranges : table.Arranges groups)
    (written : Toml.Written (sectionsOf groups) text.toList) : ofTomlText text = .ok table := by
  have parsed : Toml.parse? text = some (sectionsOf groups) := by
    refine Toml.parse?_written ?_ ?_ written
    · rw [sectionsOf, List.map_map]
      exact arranges.nodup_names
    · intro table member
      obtain ⟨group, among, rfl⟩ := List.mem_map.mp member
      exact arranges.nodup_keys among
  rw [ofTomlText, parsed, Option.bind_some, arranges.ofSections?_eq]

theorem ofJsonText_eq (arranges : table.Arranges groups)
    (written : Json.Written 2 (.object (membersOf groups)) text.toList) :
    ofJsonText text = .ok table := by
  have object : ofJson? (.object (membersOf groups)) = some table :=
    ofJson?_object_eq_some_iff.mpr ⟨groups, arranges.once, rfl, arranges.ofList_entriesOf.symm⟩
  rw [ofJsonText, Json.parse?_written written (by decide), Option.bind_some, object]

theorem ofYamlText_eq (arranges : table.Arranges groups)
    (written : Yaml.Written (sectionsOf groups) text.toList) : ofYamlText text = .ok table := by
  obtain ⟨entries, lines, same⟩ := written
  have node : (Yaml.parse? text).bind ofYaml? = ofSections? (sectionsOf groups) := by
    rw [Yaml.parse?_written lines, Option.bind_some, ← same]
    cases entries with
    | nil => rfl
    | cons entry others => exact ofYaml?_sections (entry :: others)
  rw [ofYamlText, node, arranges.ofSections?_eq]

/-- Every text of groups that arrange a table is loaded as the table. -/
theorem load_eq (arranges : table.Arranges groups) (format : TableFormat)
    (written : format.Writes groups text) : format.load text = .ok table := by
  cases format with
  | toml => exact arranges.ofTomlText_eq written
  | json => exact arranges.ofJsonText_eq written
  | yaml => exact arranges.ofYamlText_eq written

end Arranges

/-- The groups of all categories in order, each with its texts in order. -/
def groups (table : TokenTable) : List Group :=
  Category.all.map fun category =>
    ⟨category.key, category, table.entries category, category.named_key, fun _ member =>
      (mem_entries.mp member).1⟩

theorem map_category_groups (table : TokenTable) :
    table.groups.map Group.category = Category.all := by
  simp [groups, Function.comp_def]

theorem arranges_groups (table : TokenTable) : table.Arranges table.groups where
  once := by
    rw [map_category_groups]
    decide
  texts := by
    intro group member
    obtain ⟨category, -, rfl⟩ := List.mem_map.mp member
    exact .refl _
  others := by
    intro category missing
    rw [map_category_groups] at missing
    exact absurd (by cases category <;> decide) missing

/-- The serialized form of a table: an object of all categories in order, each with its texts. -/
def toJson (table : TokenTable) : Json :=
  .object (Category.all.map fun category =>
    (category.key, textsToJson ((table.entries category).map fun entry => (entry.1.key, entry.2))))

theorem toJson_eq (table : TokenTable) : table.toJson = .object (membersOf table.groups) := by
  simp [toJson, membersOf, groups, Group.pairs, Function.comp_def]

/-- The texts of a table by qualified name. -/
def namedTexts (table : TokenTable) : List (String × String) :=
  Category.all.flatMap fun category =>
    (table.entries category).map fun entry => (category.key ++ "." ++ entry.1.key, entry.2)

def named (entry : Token × String) : String × String :=
  (entry.1.category.key ++ "." ++ entry.1.key, entry.2)

theorem resolve_named (entry : Token × String) : resolve (named entry).1 = .ok entry.1 :=
  resolve_join entry.1.category.named_key

theorem named_injective : Function.Injective named := by
  intro first second same
  have token : (.ok first.1 : Except ConfigError Token) = .ok second.1 := by
    rw [← resolve_named first, same, resolve_named]
  have text : (named first).2 = (named second).2 := by rw [same]
  exact Prod.ext (Except.ok.inj token) text

theorem namedTexts_eq (table : TokenTable) :
    table.namedTexts = (Category.all.flatMap table.entries).map named := by
  rw [namedTexts, List.map_flatMap]
  refine List.flatMap_congr fun category _ => List.map_congr_left fun entry member => ?_
  rw [named, (mem_entries.mp member).1]

/-- Qualified names and texts are loaded in any order. -/
theorem ofPairs_perm {table : TokenTable} {pairs : List (String × String)}
    (order : pairs.Perm table.namedTexts) : ofPairs pairs = .ok table := by
  rw [namedTexts_eq] at order
  have known : pairs ∈ Set.range (List.map named) := by
    rw [Set.range_list_map]
    intro pair member
    obtain ⟨entry, -, same⟩ := List.mem_map.mp (order.mem_iff.mp member)
    exact ⟨entry, same⟩
  -- Names are those of one token each, so the order is one of the entries themselves.
  obtain ⟨entries, rfl⟩ := known
  rw [List.map_perm_map_iff named_injective] at order
  have resolved : List.Forall₂ (fun pair entry => resolve pair.1 = .ok entry.1 ∧ pair.2 = entry.2)
      (entries.map named) entries := by
    rw [List.forall₂_map_left_iff, List.forall₂_same]
    exact fun entry _ => ⟨resolve_named entry, rfl⟩
  rw [ofPairs_eq_ok resolved, ofList_eq fun entry => ?_]
  rw [order.mem_iff, List.mem_flatMap]
  constructor
  · rintro ⟨category, -, member⟩
    exact (mem_entries.mp member).2
  · intro get
    exact ⟨entry.1.category, by cases entry.1.category <;> decide, mem_entries.mpr ⟨rfl, get⟩⟩

/-- Every table survives being written and loaded: as the JSON text of its serialized form on one line
or on several, as any text of its groups in any format, of which there is one for any groups, and as
its qualified names and texts in any order. -/
theorem load_written (table : TokenTable) :
    ofJsonText table.toJson.compact = .ok table ∧ ofJsonText table.toJson.pretty = .ok table ∧
      (∀ (format : TableFormat) (groups : List Group), table.Arranges groups →
        (∃ text, format.Writes groups text) ∧
          ∀ text, format.Writes groups text → format.load text = .ok table) ∧
      table.Arranges table.groups ∧
      ∀ pairs : List (String × String), pairs.Perm table.namedTexts → ofPairs pairs = .ok table := by
  have arranged := table.arranges_groups
  have textual := textual_membersOf table.groups
  refine ⟨?_, ?_, fun format groups arranges => ⟨format.exists_writes groups, fun _ => arranges.load_eq format⟩,
    arranged, fun _ => ofPairs_perm⟩
  · rw [toJson_eq]
    exact arranged.ofJsonText_eq (Json.written_compact textual)
  · have blank : Json.Blank "\n".toList := by simp [Json.Blank, Json.isSpace]
    rw [toJson_eq, Json.pretty]
    exact arranged.ofJsonText_eq (Json.written_prettyFrom textual blank)

/-- A table with an empty text and one that has to be escaped. -/
def quotedTable : TokenTable := ofList [(.assignment .assignKey, "\"=\n"), (.flow .ifKey, "")]

/-- The pairs of that table in the other order, and a document of all its categories. -/
theorem load_written_quoted :
    ofPairs [("flow.if_key", ""), ("assignment.assign_key", "\"=\n")] = .ok quotedTable ∧
      ∃ text, TableFormat.Writes .yaml quotedTable.groups text ∧
        ofYamlText text = .ok quotedTable := by
  have texts : quotedTable.namedTexts =
      [("assignment.assign_key", "\"=\n"), ("flow.if_key", "")] := by cbv
  obtain ⟨-, -, documents, arranged, pairs⟩ := quotedTable.load_written
  obtain ⟨⟨text, written⟩, loaded⟩ := documents .yaml _ arranged
  exact ⟨pairs _ (by rw [texts]; exact .swap ..), text, written, loaded text written⟩

end TokenTable

end Respell
