import Respell.Proofs.YamlScanning
import Respell.Yaml.Node

/-!
YAML texts of sections of texts: a block mapping from names to block mappings. Values are in double
quotes, in any spelling, and the lines of a section are indented by any number of spaces. Nothing or a
pair of braces may stand for an empty section. Every such text is read as the mapping of the sections
it is a text of.
-/

set_option autoImplicit false

namespace Respell.Yaml

open Respell.Text (Quoting Word isHexDigit isLetter ne_of_isLetter)

/-- What stands below the name of a section. -/
inductive Body
  | absent
  | braces
  | block (pairs : List (String × String))

namespace Body

/-- The texts of a section by key. -/
def pairs : Body → List (String × String)
  | .absent => []
  | .braces => []
  | .block pairs => pairs

/-- Tokens of a name before a value. -/
def keyTokens (name : String) : List Token := [.key, .scalar name true, .value]

def pairTokens (pair : String × String) : List Token :=
  keyTokens pair.1 ++ [.scalar pair.2 false]

def tokens : Body → List Token
  | .absent => []
  | .braces => [.flowStart, .flowEnd]
  | .block pairs => .blockStart :: (pairs.flatMap pairTokens ++ [.blockEnd])

def node : Body → Node
  | .absent => .absent
  | .braces => .mapping []
  | .block pairs => .mapping (pairs.map fun pair => (.scalar pair.1 true, .scalar pair.2 false))

end Body

open Body (keyTokens pairTokens)

def sectionTokens (entry : String × Body) : List Token := keyTokens entry.1 ++ entry.2.tokens

def documentTokens (entries : List (String × Body)) : List Token :=
  if entries.isEmpty then [] else .blockStart :: (entries.flatMap sectionTokens ++ [.blockEnd])

/-- Names that a scanner still knows as keys at the colon after them. -/
structure IsKey (name : String) : Prop where
  word : Word name.toList
  near : name.toList.length ≤ 1024

/-- Texts of pairs on lines of their own, all at the same column. -/
inductive WrittenPairs (indent : Nat) : List (String × String) → List Char → Prop
  | nil : WrittenPairs indent [] []
  | cons {key value : String} {rest : List (String × String)} {gap : Nat} {body more : List Char} :
      IsKey key → quoting.Writes value.toList body → WrittenPairs indent rest more →
      WrittenPairs indent ((key, value) :: rest)
        (List.replicate indent ' ' ++ (key.toList ++ ':' ::
          (List.replicate (gap + 1) ' ' ++ '"' :: (body ++ '"' :: '\n' :: more))))

/-- Texts of a section. -/
inductive WrittenSection : String × Body → List Char → Prop
  | absent {name : String} : IsKey name → WrittenSection (name, .absent) (name.toList ++ [':', '\n'])
  | braces {name : String} {gap : Nat} : IsKey name →
      WrittenSection (name, .braces)
        (name.toList ++ ':' :: (List.replicate (gap + 1) ' ' ++ ['\x7b', '\x7d', '\n']))
  | block {name : String} {indent : Nat} {pairs : List (String × String)} {text : List Char} :
      IsKey name → 0 < indent → pairs ≠ [] → WrittenPairs indent pairs text →
      WrittenSection (name, .block pairs) (name.toList ++ ':' :: '\n' :: text)

inductive WrittenSections : List (String × Body) → List Char → Prop
  | nil : WrittenSections [] []
  | cons {entry : String × Body} {rest : List (String × Body)} {text more : List Char} :
      WrittenSection entry text → WrittenSections rest more →
      WrittenSections (entry :: rest) (text ++ more)

/-- Texts of sections by name. -/
def Written (sections : List (String × List (String × String))) (text : List Char) : Prop :=
  ∃ entries, WrittenSections entries text ∧
    entries.map (fun entry => (entry.1, entry.2.pairs)) = sections

/-! ### Tokens of a text -/

namespace Scanner

variable {cursor : Cursor} (tokens : List Token) {columns : List Nat}

theorem head?_opened (columns : List Nat) (column : Nat) :
    (opened columns column).head? = some column := by
  unfold opened
  split
  next same => exact same
  next => rfl

/-- A key, a colon and spaces are passed up to the value. -/
theorem leads_value {gap : Nat} {key : String} {c : Char} {rest : List Char} (known : IsKey key)
    (solid : Solid c)
    (ahead : cursor.rest = key.toList ++ ':' :: (List.replicate (gap + 1) ' ' ++ c :: rest))
    (within : ∀ top ∈ columns.head?, top ≤ cursor.column) :
    ∃ next : Cursor, next.rest = c :: rest ∧ cursor.column ≤ next.column ∧
      Leads ⟨cursor, tokens, columns, [none], true⟩
        ⟨next, tokens ++ opening columns cursor.column ++ keyTokens key,
          opened columns cursor.column, [none], false⟩ := by
  have word := leads_key tokens known.word known.near ahead rfl within
  rw [String.ofList_toList] at word
  have colon : (cursor.skipMany (key.toList.length + 1)).rest =
      List.replicate (gap + 1) ' ' ++ c :: rest := by simp [Cursor.skipMany, ahead]
  refine ⟨(cursor.skipMany (key.toList.length + 1)).skipMany (gap + 1), ?_, ?_,
    word.trans (leads_spaces colon solid)⟩
  · simp [Cursor.skipMany, ahead]
  · rw [Cursor.skipMany_skipMany]
    exact Nat.le_add_right _ _

theorem leads_pair {indent gap : Nat} {key value : String} {body rest : List Char} (known : IsKey key)
    (writes : quoting.Writes value.toList body)
    (ahead : cursor.rest = List.replicate indent ' ' ++ (key.toList ++ ':' ::
      (List.replicate (gap + 1) ' ' ++ '"' :: (body ++ '"' :: '\n' :: rest))))
    (start : cursor.column = 0) (within : ∀ top ∈ columns.head?, top ≤ indent) :
    ∃ next : Cursor, next.rest = rest ∧ next.column = 0 ∧
      Leads ⟨cursor, tokens, columns, [none], true⟩
        ⟨next, tokens ++ opening columns indent ++ pairTokens (key, value), opened columns indent,
          [none], true⟩ := by
  have column : (cursor.skipMany indent).column = indent := by simp [Cursor.skipMany, start]
  have word : (cursor.skipMany indent).rest = key.toList ++ ':' ::
      (List.replicate (gap + 1) ' ' ++ '"' :: (body ++ '"' :: '\n' :: rest)) := by
    simp [Cursor.skipMany, ahead]
  obtain ⟨after, quote, further, path⟩ :=
    leads_value tokens known ⟨rfl, rfl, by decide⟩ word (by rwa [column])
  rw [column] at further path
  have inside : ∀ top ∈ (opened columns indent).head?, top ≤ after.column := by
    rw [head?_opened]
    rintro _ ⟨⟩
    exact further
  have ending : (after.skipMany (body.length + 2)).rest = '\n' :: rest := by
    simp [Cursor.skipMany, quote]
  have margin : Leads ⟨cursor, tokens, columns, [none], true⟩
      ⟨cursor.skipMany indent, tokens, columns, [none], true⟩ := by
    obtain ⟨c, more, same, letter⟩ := known.word.exists_cons
    rw [same] at ahead
    exact leads_spaces ahead (solid_of_isLetter letter)
  have quoted := leads_quoted (tokens ++ opening columns indent ++ keyTokens key) writes quote inside
  rw [String.ofList_toList, List.append_assoc _ (keyTokens key)] at quoted
  obtain ⟨last, rest, zero, line⟩ :=
    leads_newLine (tokens ++ opening columns indent ++ pairTokens (key, value))
      (opened columns indent) false ending
  exact ⟨last, rest, zero, margin.trans (path.trans (quoted.trans line))⟩

/-- Lines of pairs at the column of the innermost block are passed. -/
theorem leads_pairs {indent : Nat} {pairs : List (String × String)} {text rest : List Char}
    (written : WrittenPairs indent pairs text) (ahead : cursor.rest = text ++ rest)
    (start : cursor.column = 0) (same : columns.head? = some indent) :
    ∃ next : Cursor, next.rest = rest ∧ next.column = 0 ∧
      Leads ⟨cursor, tokens, columns, [none], true⟩
        ⟨next, tokens ++ pairs.flatMap pairTokens, columns, [none], true⟩ := by
  induction written generalizing cursor tokens with
  | nil => exact ⟨cursor, ahead, start, by simpa using Leads.refl _⟩
  | @cons key value others gap body more known writes _ ih =>
      have within : ∀ top ∈ columns.head?, top ≤ indent := by
        rw [same]
        rintro _ ⟨⟩
        exact Nat.le_refl _
      obtain ⟨middle, between, zero, first⟩ :=
        leads_pair tokens known writes (by simpa using ahead) start within
      rw [opening, opened, if_pos same, if_pos same, List.append_nil] at first
      obtain ⟨next, after, again, later⟩ := ih (tokens ++ pairTokens (key, value)) between zero
      exact ⟨next, after, again, first.trans (by simpa using later)⟩

/-- Lines of pairs below a name open a block. -/
theorem leads_block {indent : Nat} {pairs : List (String × String)} {text rest : List Char}
    (deep : 0 < indent) (some : pairs ≠ []) (written : WrittenPairs indent pairs text)
    (ahead : cursor.rest = text ++ rest) (start : cursor.column = 0) :
    ∃ next : Cursor, next.rest = rest ∧ next.column = 0 ∧
      Leads ⟨cursor, tokens, [0], [none], true⟩
        ⟨next, tokens ++ .blockStart :: pairs.flatMap pairTokens, [indent, 0], [none], true⟩ := by
  cases written with
  | nil => exact absurd rfl some
  | @cons key value others gap body more known writes written =>
      have shallow : ∀ top ∈ [0].head?, top ≤ indent := by simp
      obtain ⟨middle, between, zero, first⟩ :=
        leads_pair tokens known writes (by simpa using ahead) start shallow
      have deeper : ¬ [0].head? = .some indent := by
        rintro ⟨⟩
        exact Nat.lt_irrefl 0 deep
      rw [opening, opened, if_neg deeper, if_neg deeper] at first
      obtain ⟨next, after, again, later⟩ := leads_pairs
        (tokens ++ [.blockStart] ++ pairTokens (key, value)) written between zero
        (show [indent, 0].head? = .some indent from rfl)
      exact ⟨next, after, again, first.trans (by simpa using later)⟩

/-- Whether a section or the end of the text comes next. -/
def Boundary (text : List Char) : Prop := ∀ c, text.head? = some c → isLetter c = true

theorem skipSpace_boundary {scanner : Scanner} (boundary : Boundary scanner.cursor.rest) (fuel : Nat) :
    scanner.skipSpace (fuel + 1) = scanner := by
  cases ahead : scanner.cursor.rest with
  | nil => simp [skipSpace, Cursor.skipWhile, ahead]
  | cons c rest =>
      have letter : isLetter c = true := boundary c (by rw [ahead]; rfl)
      exact skipSpace_solid ahead (solid_of_isLetter letter) fuel

/-- The block of a section ends where the next section begins. -/
theorem leads_blockEnd {indent : Nat} (deep : 0 < indent) (boundary : Boundary cursor.rest)
    (start : cursor.column = 0) :
    Leads ⟨cursor, tokens, [indent, 0], [none], true⟩
      ⟨cursor, tokens ++ [.blockEnd], [0], [none], true⟩ := by
  intro fuel enough
  refine ⟨fuel, enough, ?_⟩
  obtain ⟨fuel, rfl⟩ := Nat.exists_eq_add_one_of_ne_zero (Nat.ne_zero_of_lt enough)
  rw [run?, run?, skipSpace_boundary boundary, skipSpace_boundary boundary]
  simp [dropStale?_none, close, inFlow, start, deep]

theorem leads_header {name : String} {rest : List Char} (known : IsKey name)
    (ahead : cursor.rest = name.toList ++ ':' :: '\n' :: rest) (start : cursor.column = 0)
    (within : ∀ top ∈ columns.head?, top ≤ 0) :
    ∃ next : Cursor, next.rest = rest ∧ next.column = 0 ∧
      Leads ⟨cursor, tokens, columns, [none], true⟩
        ⟨next, tokens ++ opening columns 0 ++ keyTokens name, opened columns 0, [none], true⟩ := by
  have word := leads_key tokens known.word known.near ahead rfl (by rwa [start])
  rw [String.ofList_toList, start] at word
  have ending : (cursor.skipMany (name.toList.length + 1)).rest = '\n' :: rest := by
    simp [Cursor.skipMany, ahead]
  obtain ⟨next, after, zero, line⟩ :=
    leads_newLine (tokens ++ opening columns 0 ++ keyTokens name) (opened columns 0) false ending
  exact ⟨next, after, zero, word.trans line⟩

/-- A section leaves the scanner at the start of a line, with the block of all sections open. -/
theorem leads_section {entry : String × Body} {text rest : List Char}
    (written : WrittenSection entry text) (ahead : cursor.rest = text ++ rest)
    (start : cursor.column = 0) (flat : columns = [] ∨ columns = [0]) (boundary : Boundary rest) :
    ∃ next : Cursor, next.rest = rest ∧ next.column = 0 ∧
      Leads ⟨cursor, tokens, columns, [none], true⟩
        ⟨next, tokens ++ opening columns 0 ++ sectionTokens entry, [0], [none], true⟩ := by
  have within : ∀ top ∈ columns.head?, top ≤ 0 := by rcases flat with rfl | rfl <;> simp
  have level : opened columns 0 = [0] := by rcases flat with rfl | rfl <;> rfl
  cases written with
  | absent known =>
      obtain ⟨next, after, zero, header⟩ :=
        leads_header tokens known (by simpa using ahead) start within
      exact ⟨next, after, zero, by simpa [level, sectionTokens, Body.tokens] using header⟩
  | @braces name gap known =>
      have line : cursor.rest = name.toList ++ ':' ::
          (List.replicate (gap + 1) ' ' ++ '\x7b' :: '\x7d' :: '\n' :: rest) := by simpa using ahead
      obtain ⟨value, brace, -, path⟩ :=
        leads_value tokens known ⟨rfl, rfl, by decide⟩ line (by rwa [start])
      rw [start, level] at path
      have braces := leads_braces (tokens ++ opening columns 0 ++ keyTokens name) brace
        (show ∀ top ∈ [0].head?, top ≤ value.column by simp)
      have ending : (value.skipMany 2).rest = '\n' :: rest := by simp [Cursor.skipMany, brace]
      obtain ⟨next, after, zero, last⟩ := leads_newLine (tokens ++ opening columns 0 ++
        keyTokens name ++ [.flowStart, .flowEnd]) [0] false ending
      refine ⟨next, after, zero, path.trans (braces.trans ?_)⟩
      simpa [sectionTokens, Body.tokens] using last
  | @block name indent pairs text known deep some written =>
      obtain ⟨middle, between, zero, header⟩ :=
        leads_header tokens known (by simpa using ahead) start within
      obtain ⟨next, after, again, block⟩ := leads_block
        (tokens ++ opening columns 0 ++ keyTokens name) deep some written between zero
      -- The scanner sees the end of the block only where the next section begins.
      have ends := leads_blockEnd (tokens ++ opening columns 0 ++ keyTokens name ++
        .blockStart :: pairs.flatMap pairTokens) deep (after ▸ boundary) again
      rw [level] at header
      refine ⟨next, after, again, header.trans (block.trans ?_)⟩
      simpa [sectionTokens, Body.tokens] using ends

theorem boundary_written {entries : List (String × Body)} {text : List Char}
    (written : WrittenSections entries text) : Boundary text := by
  have word {name : String} (known : IsKey name) (rest : List Char) : Boundary (name.toList ++ rest) := by
    obtain ⟨c, more, same, letter⟩ := known.word.exists_cons
    rw [same]
    rintro _ ⟨⟩
    exact letter
  cases written with
  | nil => rintro _ ⟨⟩
  | cons first _ =>
      cases first with
      | absent known => exact List.append_assoc .. ▸ word known _
      | braces known => exact List.append_assoc .. ▸ word known _
      | block known => exact List.append_assoc .. ▸ word known _

/-- Sections are passed up to the end of the text, and the block around them ends there. -/
theorem run?_written {entries : List (String × Body)} {text : List Char}
    (written : WrittenSections entries text) (ahead : cursor.rest = text) (start : cursor.column = 0)
    {fuel : Nat} (enough : text.length < fuel) :
    run? fuel ⟨cursor, tokens, [0], [none], true⟩ =
      some (tokens ++ entries.flatMap sectionTokens ++ [.blockEnd]) := by
  induction written generalizing cursor tokens fuel with
  | nil =>
      obtain ⟨fuel, rfl⟩ := Nat.exists_eq_add_one_of_ne_zero (Nat.ne_zero_of_lt enough)
      have boundary : Boundary cursor.rest := by
        rw [ahead]
        exact boundary_written .nil
      rw [run?, skipSpace_boundary boundary]
      simp [dropStale?_none, close, inFlow, start, ahead, dropKey?, setKey]
  | cons first others ih =>
      obtain ⟨next, after, zero, leads⟩ :=
        leads_section tokens first ahead start (.inr rfl) (boundary_written others)
      obtain ⟨left, within, same⟩ := leads fuel (by rwa [ahead])
      rw [same, ih _ after zero (by rwa [← after])]
      simp [opening]

end Scanner

def Allowed (text : List Char) : Prop := ∀ c ∈ text, isAllowed c = true

theorem isAllowed_of_printable {c : Char} (low : 0x20 ≤ c.toNat) (high : c.toNat ≤ 0x7E) :
    isAllowed c = true := by
  simp [isAllowed, low, high]

theorem allowed_word {word : List Char} (whole : Word word) : Allowed word := by
  intro c member
  rcases Bool.or_eq_true_iff.mp (whole.letters c member) with lower | mark
  · have range : 97 ≤ c.toNat ∧ c.toNat ≤ 122 := by
      simpa [Char.isLower, UInt32.le_iff_toNat_le] using lower
    exact isAllowed_of_printable (by omega) (by omega)
  · rw [beq_iff_eq.mp mark]
    rfl

theorem isAllowed_of_isHexDigit {c : Char} (digit : isHexDigit c = true) : isAllowed c = true := by
  have range : (48 ≤ c.toNat ∧ c.toNat ≤ 57 ∨ 97 ≤ c.toNat ∧ c.toNat ≤ 102) ∨
      65 ≤ c.toNat ∧ c.toNat ≤ 70 := by
    simpa [isHexDigit, Char.isDigit, UInt32.le_iff_toNat_le, Char.le_def] using digit
  exact isAllowed_of_printable (by omega) (by omega)

theorem allowed_spaces (count : Nat) : Allowed (List.replicate count ' ') := by
  intro c member
  rw [List.eq_of_mem_replicate member]
  rfl

/-- A spelling holds no character that has to be spelled. -/
theorem allowed_writes {text written : List Char} (writes : quoting.Writes text written) :
    Allowed written := by
  have slash : isAllowed '\\' = true := rfl
  have short : ∀ escape ∈ quoting.short, isAllowed escape.1 = true := by decide
  have long : ∀ escape ∈ quoting.long, isAllowed escape.1 = true := by decide
  induction writes with
  | nil => simp [Allowed]
  | cons spells _ ih =>
      refine List.forall_mem_append.mpr ⟨?_, ih⟩
      cases spells with
      | plain own =>
          simp only [quoting, Bool.and_eq_true] at own
          simpa using own.1.1.1
      | short known => simpa [slash] using short _ known
      | long known _ all _ =>
          simpa [slash, long _ known] using fun digit member =>
            isAllowed_of_isHexDigit (all digit member)

theorem allowed_pairs {indent : Nat} {pairs : List (String × String)} {text : List Char}
    (written : WrittenPairs indent pairs text) : Allowed text := by
  induction written with
  | nil => simp [Allowed]
  | cons known writes _ ih =>
      simp only [Allowed, List.forall_mem_append, List.forall_mem_cons]
      exact ⟨allowed_spaces _, allowed_word known.word, rfl, allowed_spaces _, rfl,
        allowed_writes writes, rfl, rfl, ih⟩

theorem allowed_section {entry : String × Body} {text : List Char}
    (written : WrittenSection entry text) : Allowed text := by
  cases written with
  | absent known =>
      simp only [Allowed, List.forall_mem_append, List.forall_mem_cons]
      exact ⟨allowed_word known.word, rfl, rfl, by simp⟩
  | braces known =>
      simp only [Allowed, List.forall_mem_append, List.forall_mem_cons]
      exact ⟨allowed_word known.word, rfl, allowed_spaces _, rfl, rfl, rfl, by simp⟩
  | block known _ _ pairs =>
      simp only [Allowed, List.forall_mem_append, List.forall_mem_cons]
      exact ⟨allowed_word known.word, rfl, rfl, allowed_pairs pairs⟩

theorem allowed_sections {entries : List (String × Body)} {text : List Char}
    (written : WrittenSections entries text) : Allowed text := by
  induction written with
  | nil => simp [Allowed]
  | cons first _ ih => exact List.forall_mem_append.mpr ⟨allowed_section first, ih⟩

theorem skipMark_written {entries : List (String × Body)} {text : List Char}
    (written : WrittenSections entries text) : skipMark text = text := by
  have boundary := Scanner.boundary_written written
  unfold skipMark
  split
  next => cases boundary _ rfl
  next => cases boundary _ rfl
  next => rfl

/-- The tokens of a document are read from each of its texts. -/
theorem tokens?_written {entries : List (String × Body)} {text : String}
    (written : WrittenSections entries text.toList) :
    tokens? text = some (documentTokens entries) := by
  have allowed : text.toList.all isAllowed = true :=
    List.all_eq_true.mpr (allowed_sections written)
  rw [tokens?, skipMark_written written]
  simp only [allowed, if_true]
  generalize text.toList = letters at written
  cases written with
  | nil => rfl
  | @cons entry rest head more first others =>
      have ahead : (Cursor.start (head ++ more)).rest = head ++ more := rfl
      obtain ⟨next, after, zero, leads⟩ :=
        Scanner.leads_section [] first ahead rfl (.inl rfl) (Scanner.boundary_written others)
      obtain ⟨left, within, same⟩ := leads _ (Nat.lt_succ_self _)
      have later := Scanner.run?_written ([.blockStart] ++ sectionTokens entry) others after zero
        (by rwa [← after])
      refine same.trans (later.trans ?_)
      simp [documentTokens]

/-! ### Nodes of the tokens -/

namespace Composer

variable {handles : List String} {rest : List Token}

theorem node?_scalar (fuel : Nat) (block : Bool) (text : String) (plain : Bool) :
    node? (fuel + 1) block ⟨.scalar text plain :: rest, [], handles⟩ =
      some (.scalar text plain, ⟨rest, [], handles⟩) := rfl

/-- The value after a colon; the absent node if nothing stands there. -/
def value? (fuel : Nat) (composer : Composer) : Option (Node × Composer) :=
  if composer.blockPartAbsent then some (.absent, composer) else node? fuel true composer

/-- One entry of a block is read, and the others after it. -/
theorem blockEntries?_cons {name : String} {tokens : List Token} {fuel : Nat} {value : Node}
    {entries : List (Node × Node)} {last : Composer}
    (read : value? (fuel + 1) ⟨tokens, [], handles⟩ = some (value, ⟨rest, [], handles⟩))
    (more : blockEntries? (fuel + 1) ⟨rest, [], handles⟩ = some (entries, last)) :
    blockEntries? (fuel + 2) ⟨keyTokens name ++ tokens, [], handles⟩ =
      some ((.scalar name true, value) :: entries, last) := by
  have present : blockPartAbsent ⟨.scalar name true :: .value :: tokens, [], handles⟩ = false := rfl
  rw [keyTokens, List.cons_append, List.cons_append, List.cons_append, List.nil_append, blockEntries?]
  cases absent : blockPartAbsent ⟨tokens, [], handles⟩ with
  | true =>
      obtain ⟨rfl, rfl⟩ : .absent = value ∧ tokens = rest := by simpa [value?, absent] using read
      simp [skip, present, node?_scalar, absent, more]
  | false =>
      have node : node? (fuel + 1) true ⟨tokens, [], handles⟩ = some (value, ⟨rest, [], handles⟩) := by
        simpa [value?, absent] using read
      simp [skip, present, node?_scalar, absent, node, more]

theorem blockEntries?_pairs {pairs : List (String × String)} {fuel : Nat}
    (enough : pairs.length + 1 < fuel) :
    blockEntries? fuel ⟨pairs.flatMap pairTokens ++ .blockEnd :: rest, [], handles⟩ =
      some (pairs.map fun pair => (.scalar pair.1 true, .scalar pair.2 false),
        ⟨rest, [], handles⟩) := by
  induction pairs generalizing fuel with
  | nil =>
      obtain ⟨fuel, rfl⟩ := Nat.exists_eq_add_one_of_ne_zero (Nat.ne_zero_of_lt enough)
      rfl
  | cons pair others ih =>
      rw [List.length_cons] at enough
      obtain ⟨fuel, rfl⟩ : ∃ less, fuel = less + 2 := ⟨fuel - 2, by omega⟩
      rw [List.flatMap_cons, pairTokens, List.append_assoc, List.append_assoc]
      exact blockEntries?_cons rfl (ih (by omega))

theorem node?_block {tokens : List Token} {fuel : Nat} {entries : List (Node × Node)}
    (read : blockEntries? fuel ⟨tokens, [], handles⟩ = some (entries, ⟨rest, [], handles⟩)) :
    node? (fuel + 1) true ⟨.blockStart :: tokens, [], handles⟩ =
      some (.mapping entries, ⟨rest, [], handles⟩) := by
  simp [node?, properties?, define, skip, read]

/-- What stands below a name is read, up to the next name or the end. -/
theorem value?_body {body : Body} {fuel : Nat} (enough : body.tokens.length + 1 < fuel)
    (ends : blockPartAbsent ⟨rest, [], handles⟩ = true) :
    value? fuel ⟨body.tokens ++ rest, [], handles⟩ = some (body.node, ⟨rest, [], handles⟩) := by
  cases body with
  | absent =>
      rw [value?]
      exact if_pos ends
  | braces =>
      obtain ⟨fuel, rfl⟩ : ∃ less, fuel = less + 2 := ⟨fuel - 2, by omega⟩
      rfl
  | block pairs =>
      obtain ⟨fuel, rfl⟩ := Nat.exists_eq_add_one_of_ne_zero (Nat.ne_zero_of_lt enough)
      have few : pairs.length ≤ (pairs.flatMap pairTokens).length := by
        simp [List.length_flatMap, pairTokens, keyTokens]
        omega
      have present : blockPartAbsent ⟨Body.tokens (.block pairs) ++ rest, [], handles⟩ = false := rfl
      rw [value?, present, Body.tokens, List.cons_append, List.append_assoc]
      simp only [Body.tokens, List.length_cons, List.length_append, List.length_nil] at enough
      exact node?_block (blockEntries?_pairs (by omega))

/-- Sections are read up to the end of the block around them. -/
theorem blockEntries?_sections {entries : List (String × Body)} {fuel : Nat}
    (enough : (entries.flatMap sectionTokens).length + 1 < fuel) :
    blockEntries? fuel ⟨entries.flatMap sectionTokens ++ .blockEnd :: rest, [], handles⟩ =
      some (entries.map fun entry => (.scalar entry.1 true, entry.2.node), ⟨rest, [], handles⟩) := by
  induction entries generalizing fuel with
  | nil =>
      obtain ⟨fuel, rfl⟩ := Nat.exists_eq_add_one_of_ne_zero (Nat.ne_zero_of_lt enough)
      rfl
  | cons entry others ih =>
      obtain ⟨fuel, rfl⟩ : ∃ less, fuel = less + 2 := ⟨fuel - 2, by omega⟩
      -- The next section or the end of the block tells that a name stands for nothing.
      have ends : blockPartAbsent ⟨others.flatMap sectionTokens ++ .blockEnd :: rest, [], handles⟩ =
          true := by cases others <;> rfl
      simp only [List.flatMap_cons, sectionTokens, keyTokens, List.length_append, List.length_cons,
        List.length_nil] at enough
      rw [List.flatMap_cons, sectionTokens, List.append_assoc, List.append_assoc]
      exact blockEntries?_cons (value?_body (by omega) ends) (ih (by omega))

end Composer

/-- The document of sections is read from each of its texts. -/
theorem parse?_written {entries : List (String × Body)} {text : String}
    (written : WrittenSections entries text.toList) :
    parse? text = some (if entries.isEmpty then .absent else
      .mapping (entries.map fun entry => (.scalar entry.1 true, entry.2.node))) := by
  rw [parse?, tokens?_written written]
  cases entries with
  | nil => rfl
  | cons entry others =>
      let block := (entry :: others).flatMap sectionTokens ++ [Token.blockEnd]
      have read : Composer.node? (2 * (Token.blockStart :: block).length + 1) true
          ⟨.blockStart :: block, [], ["!", "!!"]⟩ = some (.mapping
            ((entry :: others).map fun entry => (.scalar entry.1 true, entry.2.node)),
            ⟨[], [], ["!", "!!"]⟩) := by
        refine Composer.node?_block (Composer.blockEntries?_sections ?_)
        simp only [block, List.length_cons, List.length_append]
        omega
      have plain : documentTokens (entry :: others) = .blockStart :: block := rfl
      have directives (fuel : Nat) : Composer.directives? (fuel + 1) 0 [] (.blockStart :: block) =
          some (0, [], .blockStart :: block) := rfl
      rw [List.length_cons] at read
      rw [plain]
      simp [directives, explicitDocument?, read, onlyEnds]

/-! ### Sections have texts -/

theorem exists_writtenPairs (indent : Nat) {pairs : List (String × String)}
    (keys : ∀ pair ∈ pairs, IsKey pair.1) : ∃ text, WrittenPairs indent pairs text := by
  induction pairs with
  | nil => exact ⟨[], .nil⟩
  | cons pair rest ih =>
      obtain ⟨key, others⟩ := List.forall_mem_cons.mp keys
      have known : ('U', 8) ∈ quoting.long := by decide
      obtain ⟨body, writes⟩ := Quoting.exists_writes known pair.2.toList
      obtain ⟨more, later⟩ := ih others
      exact ⟨_, @WrittenPairs.cons indent pair.1 pair.2 rest 0 body more key writes later⟩

/-- Sections whose names and keys are words have a text, whatever their texts are. -/
theorem exists_written {sections : List (String × List (String × String))}
    (names : ∀ group ∈ sections, IsKey group.1)
    (keys : ∀ group ∈ sections, ∀ pair ∈ group.2, IsKey pair.1) :
    ∃ text, Written sections text := by
  induction sections with
  | nil => exact ⟨[], [], .nil, rfl⟩
  | cons group rest ih =>
      obtain ⟨name, pairs⟩ := group
      obtain ⟨here, others⟩ := List.forall_mem_cons.mp names
      obtain ⟨words, more⟩ := List.forall_mem_cons.mp keys
      obtain ⟨text, entries, later, rfl⟩ := ih others more
      cases pairs with
      | nil => exact ⟨_, (name, .absent) :: entries, .cons (.absent here) later, rfl⟩
      | cons pair pairs =>
          obtain ⟨lines, block⟩ := exists_writtenPairs 2 words
          exact ⟨_, (name, .block (pair :: pairs)) :: entries,
            .cons (.block here (by decide) (by simp) block) later, rfl⟩

end Respell.Yaml
