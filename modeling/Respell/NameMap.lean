/-!
Maps with names as keys, kept in increasing order of names. Each map has one list of entries, so
equal contents are equal maps.
-/

set_option autoImplicit false

namespace Respell

/-- A map from names, as its entries in increasing order. -/
@[ext]
structure NameMap (α : Type) where
  /-- Entries in order. -/
  entries : List (String × α)
  /-- Names increase strictly. -/
  increasing : entries.Pairwise fun a b => a.1 < b.1

namespace NameMap

variable {α β : Type}

/-- The map without entries. -/
def empty : NameMap α := ⟨[], .nil⟩

/-- Entries with one more, in its place; an entry of the same name gives way. -/
def insertEntry (name : String) (value : α) : List (String × α) → List (String × α)
  | [] => [(name, value)]
  | entry :: rest =>
    if entry.1 < name then entry :: insertEntry name value rest
    else if name < entry.1 then (name, value) :: entry :: rest
    else (name, value) :: rest

theorem mem_insertEntry {name : String} {value : α} {entries : List (String × α)}
    {entry : String × α} (h : entry ∈ insertEntry name value entries) :
    entry = (name, value) ∨ entry ∈ entries := by
  induction entries with
  | nil => simpa [insertEntry] using h
  | cons first rest ih =>
    unfold insertEntry at h
    split at h
    · rcases List.mem_cons.1 h with rfl | h
      · exact .inr (List.mem_cons_self ..)
      · exact (ih h).imp_right (List.mem_cons_of_mem _)
    · split at h
      · exact List.mem_cons.1 h
      · exact (List.mem_cons.1 h).imp_right (List.mem_cons_of_mem _)

theorem increasing_insertEntry {name : String} {value : α} {entries : List (String × α)}
    (h : entries.Pairwise fun a b => a.1 < b.1) :
    (insertEntry name value entries).Pairwise fun a b => a.1 < b.1 := by
  induction entries with
  | nil => simp [insertEntry]
  | cons first rest ih =>
    obtain ⟨hfirst, hrest⟩ := List.pairwise_cons.1 h
    unfold insertEntry
    split
    · refine List.pairwise_cons.2 ⟨fun entry hentry => ?_, ih hrest⟩
      rcases mem_insertEntry hentry with rfl | hentry
      · assumption
      · exact hfirst entry hentry
    · split
      · refine List.pairwise_cons.2 ⟨fun entry hentry => ?_, h⟩
        rcases List.mem_cons.1 hentry with rfl | hentry
        · assumption
        · exact String.lt_trans ‹_› (hfirst entry hentry)
      · refine List.pairwise_cons.2 ⟨fun entry hentry => ?_, hrest⟩
        have hname : name = first.1 := String.le_antisymm ‹¬first.1 < name› ‹¬name < first.1›
        exact hname ▸ hfirst entry hentry

/-- Gives a value to a name, in place of any before. -/
def insert (map : NameMap α) (name : String) (value : α) : NameMap α :=
  ⟨insertEntry name value map.entries, increasing_insertEntry map.increasing⟩

/-- The value of a name. -/
def get? (map : NameMap α) (name : String) : Option α :=
  (map.entries.find? fun entry => entry.1 == name).map Prod.snd

/-- Whether a name has a value. -/
def contains (map : NameMap α) (name : String) : Bool := (map.get? name).isSome

/-- Names in order. -/
def names (map : NameMap α) : List String := map.entries.map Prod.fst

/-- Values in the order of their names. -/
def values (map : NameMap α) : List α := map.entries.map Prod.snd

/-- Number of entries. -/
def size (map : NameMap α) : Nat := map.entries.length

/-- The map of pairs, the last value of a name staying. -/
def ofList (pairs : List (String × α)) : NameMap α :=
  pairs.foldl (fun map (name, value) => map.insert name value) empty

/-- Applies a function to all values. -/
def map (f : α → β) (map : NameMap α) : NameMap β :=
  ⟨map.entries.map fun entry => (entry.1, f entry.2),
    List.pairwise_map.2 map.increasing⟩

end NameMap

end Respell
