import Respell.Proofs.Quoting
import Respell.Toml

/-!
TOML texts of tables of texts: a header for each table, and below it a line for each key. Values are in
quotes, in any spelling. Blanks may stand around the equals sign, and blank lines anywhere. Every such
text is read as the tables it is a text of.
-/

set_option autoImplicit false

namespace Respell.Toml

open Respell.Text (Quoting Word isHexDigit isLetter ne_of_isLetter ofDigits scalar?_toNat)

/-- What TOML allows between quotes on one line. -/
def quoting : Quoting where
  plain c := isPlain c && c != '"' && c != '\\'
  short := [('b', '\x08'), ('t', '\t'), ('n', '\n'), ('f', '\x0c'), ('r', '\r'), ('"', '"'),
    ('\\', '\\')]
  long := [('u', 4), ('U', 8)]

/-! ### Strings -/

theorem escape?_short {letter c : Char} (known : (letter, c) ∈ quoting.short) (rest : List Char) :
    escape? (letter :: rest) = some (c, 1) := by
  simp only [quoting, List.mem_cons, Prod.mk.injEq, List.not_mem_nil, or_false] at known
  rcases known with ⟨rfl, rfl⟩ | ⟨rfl, rfl⟩ | ⟨rfl, rfl⟩ | ⟨rfl, rfl⟩ | ⟨rfl, rfl⟩ | ⟨rfl, rfl⟩ |
    ⟨rfl, rfl⟩ <;> rfl

theorem codePoint?_append {digits : List Char} (all : ∀ digit ∈ digits, isHexDigit digit = true)
    {c : Char} (code : ofDigits 16 digits = c.toNat) (rest : List Char) :
    codePoint? digits.length (digits ++ rest) = some c := by
  have pass : digits.all isHexDigit = true := List.all_eq_true.mpr all
  simp [codePoint?, pass, code, scalar?_toNat]

theorem escape?_long {letter : Char} {digits : List Char}
    (known : (letter, digits.length) ∈ quoting.long)
    (all : ∀ digit ∈ digits, isHexDigit digit = true) {c : Char} (code : ofDigits 16 digits = c.toNat)
    (rest : List Char) : escape? (letter :: (digits ++ rest)) = some (c, digits.length + 1) := by
  have read := codePoint?_append all code rest
  simp only [quoting, List.mem_cons, Prod.mk.injEq, List.not_mem_nil, or_false] at known
  rcases known with ⟨rfl, length⟩ | ⟨rfl, length⟩ <;>
    · rw [length] at read ⊢
      simp [escape?, read]

/-- A character is read from each of its spellings. -/
theorem basic?_spells {c : Char} {piece : List Char} (spells : quoting.Spells c piece)
    (rest : List Char) :
    basic? (piece ++ rest) = (basic? rest).map fun (body, after) => (c :: body, after) := by
  cases spells with
  | plain own =>
      simp only [quoting, Bool.and_eq_true, bne_iff_ne, ne_eq] at own
      obtain ⟨⟨plain, noQuote⟩, noSlash⟩ := own
      rw [List.singleton_append, basic?]
      simp [noQuote, noSlash, plain]
  | short known =>
      rw [List.cons_append, List.cons_append, List.nil_append, basic?, escape?_short known]
      simp
  | long known length all code =>
      subst length
      rw [List.cons_append, List.cons_append, basic?, escape?_long known all code]
      simp

/-- A text is read from each of its spellings, up to the closing quote. -/
theorem basic?_writes {text written : List Char} (writes : quoting.Writes text written)
    (rest : List Char) : basic? (written ++ '"' :: rest) = some (text, rest) := by
  induction writes with
  | nil => simp [basic?]
  | cons spells _ ih =>
      rw [List.append_assoc, basic?_spells spells, ih]
      rfl

/-- An empty text is no opening of a text of several lines. -/
theorem string?_writes {text written : List Char} (writes : quoting.Writes text written)
    {rest : List Char} (lone : rest.head? ≠ some '"') :
    string? ('"' :: (written ++ '"' :: rest)) = some (text, rest) := by
  have read := basic?_writes writes rest
  have inside := writes.head_ne_quote rfl
  rw [string?.eq_2, read]
  rintro more same
  cases written with
  | nil =>
      obtain rfl : rest = '"' :: more := by simpa using same
      exact lone rfl
  | cons c _ =>
      obtain rfl : c = '"' := by
        rw [List.cons_append] at same
        exact (List.cons.inj same).1
      exact inside rfl

/-! ### Lines -/

def Blank (gap : List Char) : Prop := ∀ c ∈ gap, isBlank c = true

/-- Texts of a line, without the end of the line. -/
inductive WrittenLine : Line → List Char → Prop
  | blank {gap : List Char} : Blank gap → WrittenLine .blank gap
  | header {name : String} : Word name.toList →
      WrittenLine (.header [name]) ('[' :: (name.toList ++ [']']))
  | text {key value : String} {before after body : List Char} :
      Word key.toList → Blank before → Blank after → quoting.Writes value.toList body →
      WrittenLine (.text [key] value)
        (key.toList ++ (before ++ '=' :: (after ++ '"' :: (body ++ ['"']))))

inductive WrittenLines : List Line → List Char → Prop
  | nil : WrittenLines [] []
  | cons {line : Line} {more : List Line} {text rest : List Char} :
      WrittenLine line text → WrittenLines more rest →
      WrittenLines (line :: more) (text ++ '\n' :: rest)

theorem skipBlank_append {gap : List Char} (blank : Blank gap) {c : Char} (solid : isBlank c = false)
    (rest : List Char) : skipBlank (gap ++ c :: rest) = c :: rest := by
  rw [skipBlank, List.dropWhile_append_of_pos blank]
  simp [solid]

theorem skipBlank_cons {c : Char} (solid : isBlank c = false) (rest : List Char) :
    skipBlank (c :: rest) = c :: rest := by
  simp [skipBlank, solid]

theorem isBareKey_of_isLetter {c : Char} (letter : isLetter c = true) : isBareKey c = true := by
  rcases Bool.or_eq_true_iff.mp letter with lower | mark
  · simp [isBareKey, Char.isAlphanum, Char.isAlpha, lower]
  · simp [isBareKey, mark]

theorem isBlank_of_isLetter {c : Char} (letter : isLetter c = true) : isBlank c = false := by
  simp [isBlank, ne_of_isLetter letter ' ' rfl, ne_of_isLetter letter '\t' rfl]

theorem key?_word {word : List Char} (whole : Word word) {rest : List Char}
    (stop : ∀ c, rest.head? = some c → isBareKey c = false) :
    key? (word ++ rest) = some (String.ofList word, rest) := by
  have bare : ∀ c ∈ word, isBareKey c = true := fun c member =>
    isBareKey_of_isLetter (whole.letters c member)
  have taken : (word ++ rest).takeWhile isBareKey = word := by
    rw [List.takeWhile_append_of_pos bare]
    cases rest with
    | nil => simp
    | cons c _ => simp [stop c rfl]
  have passed : (word ++ rest).dropWhile isBareKey = rest := by
    rw [List.dropWhile_append_of_pos bare]
    cases rest with
    | nil => rfl
    | cons c _ => simp [stop c rfl]
  obtain ⟨c, more, rfl, letter⟩ := whole.exists_cons
  rw [key?.eq_3, taken, passed]
  · rfl
  · rintro _ ⟨⟩
    cases letter
  · rintro _ ⟨⟩
    cases letter

/-- A word is read as the only key before a character that ends it. -/
theorem keys?_word {word : List Char} (whole : Word word) {gap : List Char} (blank : Blank gap)
    {c : Char} (bare : isBareKey c = false) (solid : isBlank c = false) (single : c ≠ '.') (fuel : Nat)
    (rest : List Char) :
    keys? (fuel + 1) (word ++ (gap ++ c :: rest)) = some ([String.ofList word], c :: rest) := by
  have first : skipBlank (word ++ (gap ++ c :: rest)) = word ++ (gap ++ c :: rest) := by
    obtain ⟨_, _, rfl, letter⟩ := whole.exists_cons
    exact skipBlank_cons (isBlank_of_isLetter letter) _
  have stop : ∀ d, (gap ++ c :: rest).head? = some d → isBareKey d = false := by
    cases gap with
    | nil =>
        rintro _ ⟨⟩
        exact bare
    | cons b _ =>
        rintro _ ⟨⟩
        have space : isBlank b = true := blank b (by simp)
        rcases Bool.or_eq_true_iff.mp space with same | same <;>
          · rw [beq_iff_eq.mp same]
            rfl
  rw [keys?, first, key?_word whole stop]
  simp [skipBlank_append blank solid, single]

theorem assignment?_word {word : List Char} (whole : Word word) {before after : List Char}
    (first : Blank before) (second : Blank after) {c : Char} (solid : isBlank c = false)
    (rest : List Char) :
    assignment? (word ++ (before ++ '=' :: (after ++ c :: rest))) =
      some ([String.ofList word], c :: rest) := by
  rw [assignment?, keys?_word whole first rfl rfl (by decide)]
  simp [skipBlank_append second solid]

/-- What a line says is read from each of its texts, up to the end of the line. -/
theorem content?_written {line : Line} {text : List Char} (written : WrittenLine line text)
    (rest : List Char) : content? (text ++ '\n' :: rest) = some (line, '\n' :: rest) := by
  cases written with
  | blank gap =>
      rw [content?, skipBlank_append gap rfl]
      rfl
  | @header name whole =>
      have read (fuel : Nat) : keys? (fuel + 1) (name.toList ++ ']' :: '\n' :: rest) =
          some ([name], ']' :: '\n' :: rest) := by
        have blank : Blank [] := by simp [Blank]
        rw [← List.nil_append (']' :: '\n' :: rest), keys?_word whole blank rfl rfl (by decide),
          String.ofList_toList]
        rfl
      rw [List.cons_append, content?, skipBlank_cons rfl]
      simp [read]
  | @text key value before after body whole first second writes =>
      have path := assignment?_word whole first second (c := '"') rfl (body ++ '"' :: '\n' :: rest)
      have read : string? ('"' :: (body ++ '"' :: '\n' :: rest)) = some (value.toList, '\n' :: rest) :=
        string?_writes writes (by simp)
      rw [String.ofList_toList] at path
      obtain ⟨c, more, word, letter⟩ := whole.exists_cons
      simp only [List.append_assoc, List.cons_append, List.nil_append, word] at path ⊢
      rw [content?, skipBlank_cons (isBlank_of_isLetter letter)]
      split
      case h_6 =>
        rw [path]
        simp [read]
      -- No other line begins with a letter.
      all_goals next same => cases same <;> cases letter

/-- Lines are read from each of their texts. -/
theorem lines?_written {lines : List Line} {text : List Char} (written : WrittenLines lines text)
    {fuel : Nat} (enough : text.length < fuel) : lines? fuel text = some lines := by
  induction written generalizing fuel with
  | nil =>
      obtain ⟨fuel, rfl⟩ := Nat.exists_eq_add_one_of_ne_zero (Nat.ne_zero_of_lt enough)
      rfl
  | cons first _ ih =>
      obtain ⟨fuel, rfl⟩ := Nat.exists_eq_add_one_of_ne_zero (Nat.ne_zero_of_lt enough)
      rw [List.length_append, List.length_cons] at enough
      have finish (rest : List Char) : finish? ('\n' :: rest) = some rest := rfl
      rw [lines?.eq_3 _ _ (by simp), content?_written first]
      have later := ih (show _ < fuel by omega)
      simp [finish, later]

/-! ### Tables -/

namespace Outline

/-- No table of a new name is found. -/
theorem table?_eq_none {tables : List Table} {name : String} (fresh : name ∉ tables.map Table.name)
    (current : Option String) : table? ⟨tables, current⟩ name = none := by
  rw [table?, List.find?_eq_none]
  intro table member
  have differs : table.name ≠ name := fun same => fresh (same ▸ List.mem_map_of_mem member)
  simpa using differs

theorem step?_header {tables : List Table} {name : String} (fresh : name ∉ tables.map Table.name)
    (current : Option String) :
    step? ⟨tables, current⟩ (.header [name]) =
      some ⟨tables ++ [⟨name, .header, []⟩], some name⟩ := by
  simp [step?, define?, table?_eq_none fresh]

/-- A text below a header is added to the table of the header. -/
theorem step?_text {tables : List Table} {name key value : String} {pairs : List (String × String)}
    (last : name ∉ tables.map Table.name) (fresh : key ∉ pairs.map Prod.fst) :
    step? ⟨tables ++ [⟨name, .header, pairs⟩], some name⟩ (.text [key] value) =
      some ⟨tables ++ [⟨name, .header, pairs ++ [(key, value)]⟩], some name⟩ := by
  have found : table? ⟨tables ++ [⟨name, .header, pairs⟩], some name⟩ name =
      some ⟨name, .header, pairs⟩ := by
    have before := table?_eq_none last none
    rw [table?] at before ⊢
    rw [List.find?_append, before]
    simp
  have others : tables.map (fun table : Table => if table.name == name then
      { table with pairs := table.pairs ++ [(key, value)] } else table) = tables := by
    conv_rhs => rw [← List.map_id tables]
    refine List.map_congr_left fun table member => if_neg ?_
    have differs : table.name ≠ name := fun same => last (same ▸ List.mem_map_of_mem member)
    simpa using differs
  simp only [step?, assign?, found, List.map_append, others]
  simpa using fresh

end Outline

/-- The lines of tables by name: a header and the texts of each table. -/
def linesOf (sections : List (String × List (String × String))) : List Line :=
  sections.flatMap fun table => .header [table.1] :: table.2.map fun pair => .text [pair.1] pair.2

/-- Texts of tables by name. Lines without content may stand anywhere. -/
def Written (sections : List (String × List (String × String))) (text : List Char) : Prop :=
  ∃ lines, WrittenLines lines text ∧ lines.filter (· ≠ .blank) = linesOf sections

namespace Outline

/-- Texts below a header fill its table. -/
theorem foldlM_texts {tables : List Table} {name : String} (last : name ∉ tables.map Table.name)
    {done pairs : List (String × String)} (once : ((done ++ pairs).map Prod.fst).Nodup) :
    (pairs.map fun pair => Line.text [pair.1] pair.2).foldlM step?
        ⟨tables ++ [⟨name, .header, done⟩], some name⟩ =
      some ⟨tables ++ [⟨name, .header, done ++ pairs⟩], some name⟩ := by
  induction pairs generalizing done with
  | nil => simp
  | cons pair rest ih =>
      have fresh : pair.1 ∉ done.map Prod.fst := by
        intro member
        rw [List.map_append, List.nodup_append] at once
        exact once.2.2 _ member _ (by simp) rfl
      have grown : ((done ++ [pair] ++ rest).map Prod.fst).Nodup := by simpa using once
      have later := ih grown
      rw [List.map_cons, List.foldlM_cons, step?_text last fresh]
      simpa using later

/-- Headers of new names add the tables of the names. -/
theorem foldlM_linesOf {tables : List Table} {sections : List (String × List (String × String))}
    (names : (tables.map Table.name ++ sections.map Prod.fst).Nodup)
    (keys : ∀ table ∈ sections, (table.2.map Prod.fst).Nodup) (current : Option String) :
    ∃ after, (linesOf sections).foldlM step? ⟨tables, current⟩ =
      some ⟨tables ++ sections.map fun table => ⟨table.1, .header, table.2⟩, after⟩ := by
  induction sections generalizing tables current with
  | nil => exact ⟨current, by simp [linesOf]⟩
  | cons first rest ih =>
      obtain ⟨here, others⟩ := List.forall_mem_cons.mp keys
      have fresh : first.1 ∉ tables.map Table.name := by
        intro member
        rw [List.nodup_append] at names
        exact names.2.2 _ member _ (by simp) rfl
      have alone : (([] ++ first.2).map Prod.fst).Nodup := here
      have filled := foldlM_texts fresh alone
      have grown : ((tables ++ [(⟨first.1, .header, first.2⟩ : Table)]).map Table.name ++
          rest.map Prod.fst).Nodup := by simpa using names
      obtain ⟨after, later⟩ := ih grown others (some first.1)
      refine ⟨after, ?_⟩
      rw [linesOf, List.flatMap_cons, List.foldlM_append, ← linesOf, List.foldlM_cons,
        step?_header fresh]
      simp only [Option.bind_eq_bind, Option.bind_some, filled, List.nil_append]
      simpa using later

/-- Lines without content change nothing. -/
theorem foldlM_filter (lines : List Line) (outline : Outline) :
    (lines.filter (· ≠ .blank)).foldlM step? outline = lines.foldlM step? outline := by
  induction lines generalizing outline with
  | nil => rfl
  | cons line rest ih =>
      by_cases blank : line = .blank
      · subst blank
        simp [step?, ← ih]
      · rw [List.filter_cons_of_pos (by simpa using blank), List.foldlM_cons, List.foldlM_cons]
        exact congrArg _ (funext ih)

end Outline

/-- No line begins with a byte order mark. -/
theorem WrittenLine.head_ne_mark {line : Line} {text : List Char} (written : WrittenLine line text) :
    text.head? ≠ some '\ufeff' := by
  intro mark
  cases written with
  | blank gap =>
      have blank := gap _ (List.mem_of_head? mark)
      cases blank
  | header => cases mark
  | text whole =>
      obtain ⟨c, more, word, letter⟩ := whole.exists_cons
      rw [word] at mark
      cases mark
      cases letter

theorem skipMark_written {lines : List Line} {text : List Char} (written : WrittenLines lines text) :
    skipMark text = text := by
  cases written with
  | nil => rfl
  | @cons _ _ text _ first _ =>
      have start := first.head_ne_mark
      cases text with
      | nil => rfl
      | cons c more =>
          refine skipMark.eq_2 _ ?_
          rintro _ ⟨⟩
          exact start rfl

/-- Tables of different names are read from each of their texts. -/
theorem parse?_written {sections : List (String × List (String × String))}
    (names : (sections.map Prod.fst).Nodup)
    (keys : ∀ table ∈ sections, (table.2.map Prod.fst).Nodup) {text : String}
    (written : Written sections text.toList) : parse? text = some sections := by
  obtain ⟨lines, printed, content⟩ := written
  have distinct : (([] : List Table).map Table.name ++ sections.map Prod.fst).Nodup := names
  obtain ⟨after, run⟩ := Outline.foldlM_linesOf distinct keys none
  rw [← content, Outline.foldlM_filter] at run
  simp [parse?, skipMark_written printed, lines?_written printed, run, Function.comp_def]

/-- Lines of words have a text. -/
theorem exists_writtenLines {lines : List Line}
    (printable : ∀ line ∈ lines, ∃ text, WrittenLine line text) :
    ∃ text, WrittenLines lines text := by
  induction lines with
  | nil => exact ⟨[], .nil⟩
  | cons line rest ih =>
      obtain ⟨⟨text, here⟩, others⟩ := List.forall_mem_cons.mp printable
      obtain ⟨more, later⟩ := ih others
      exact ⟨_, .cons here later⟩

/-- Tables whose names and keys are words have a text, whatever their texts are. -/
theorem exists_written {sections : List (String × List (String × String))}
    (names : ∀ table ∈ sections, Word table.1.toList)
    (keys : ∀ table ∈ sections, ∀ pair ∈ table.2, Word pair.1.toList) :
    ∃ text, Written sections text := by
  have printable : ∀ line ∈ linesOf sections, line ≠ .blank ∧ ∃ text, WrittenLine line text := by
    intro line member
    obtain ⟨table, among, within⟩ := List.mem_flatMap.mp member
    rcases List.mem_cons.mp within with rfl | below
    · exact ⟨by simp, _, .header (names table among)⟩
    · obtain ⟨pair, entry, rfl⟩ := List.mem_map.mp below
      have known : ('U', 8) ∈ quoting.long := by decide
      obtain ⟨body, writes⟩ := Quoting.exists_writes known pair.2.toList
      have blank : Blank [' '] := by simp [Blank, isBlank]
      exact ⟨by simp, _, .text (keys table among pair entry) blank blank writes⟩
  obtain ⟨text, written⟩ := exists_writtenLines fun line member => (printable line member).2
  refine ⟨text, _, written, List.filter_eq_self.mpr fun line member => ?_⟩
  simpa using (printable line member).1

end Respell.Toml
