import Respell.Proofs.Quoting
import Respell.Yaml.Token

/-!
Scanning of YAML texts. Scalars in quotes are read from each of their spellings, plain words up to the
colon after them. A scanner at the start of a line with a key and a value reaches the next line with the
tokens of the key and the value, and with a new block if the line is indented deeper than the one
before.
-/

set_option autoImplicit false

namespace Respell.Yaml

open Respell.Text (Quoting Word isHexDigit isLetter ne_of_isLetter ofDigits scalar?_toNat)

/-- What YAML allows between double quotes on one line. -/
def quoting : Quoting where
  plain c := isAllowed c && !isBreak c && c != '"' && c != '\\'
  short := [('0', '\x00'), ('a', '\x07'), ('b', '\x08'), ('t', '\t'), ('\t', '\t'), ('n', '\n'),
    ('v', '\x0b'), ('f', '\x0c'), ('r', '\r'), ('e', '\x1b'), (' ', ' '), ('"', '"'), ('/', '/'),
    ('\\', '\\'), ('N', '\x85'), ('_', '\xa0'), ('L', '\u2028'), ('P', '\u2029')]
  long := [('x', 2), ('u', 4), ('U', 8)]

/-! ### Scalars in quotes -/

theorem escape?_short {letter c : Char} (known : (letter, c) ∈ quoting.short) (rest : List Char) :
    escape? (letter :: rest) = some (c, 1) ∧ isBreak letter = false := by
  simp only [quoting, List.mem_cons, Prod.mk.injEq, List.not_mem_nil, or_false] at known
  rcases known with ⟨rfl, rfl⟩ | ⟨rfl, rfl⟩ | ⟨rfl, rfl⟩ | ⟨rfl, rfl⟩ | ⟨rfl, rfl⟩ | ⟨rfl, rfl⟩ |
    ⟨rfl, rfl⟩ | ⟨rfl, rfl⟩ | ⟨rfl, rfl⟩ | ⟨rfl, rfl⟩ | ⟨rfl, rfl⟩ | ⟨rfl, rfl⟩ | ⟨rfl, rfl⟩ |
    ⟨rfl, rfl⟩ | ⟨rfl, rfl⟩ | ⟨rfl, rfl⟩ | ⟨rfl, rfl⟩ | ⟨rfl, rfl⟩ <;> exact ⟨rfl, rfl⟩

theorem codePoint?_append {digits : List Char} (all : ∀ digit ∈ digits, isHexDigit digit = true)
    {c : Char} (code : ofDigits 16 digits = c.toNat) (rest : List Char) :
    codePoint? digits.length (digits ++ rest) = some c := by
  have pass : digits.all isHexDigit = true := List.all_eq_true.mpr all
  simp [codePoint?, pass, code, scalar?_toNat]

theorem escape?_long {letter : Char} {digits : List Char}
    (known : (letter, digits.length) ∈ quoting.long)
    (all : ∀ digit ∈ digits, isHexDigit digit = true) {c : Char} (code : ofDigits 16 digits = c.toNat)
    (rest : List Char) :
    escape? (letter :: (digits ++ rest)) = some (c, digits.length + 1) ∧ isBreak letter = false := by
  have read := codePoint?_append all code rest
  simp only [quoting, List.mem_cons, Prod.mk.injEq, List.not_mem_nil, or_false] at known
  rcases known with ⟨rfl, length⟩ | ⟨rfl, length⟩ | ⟨rfl, length⟩ <;>
    · rw [length] at read ⊢
      exact ⟨by simp [escape?, read], rfl⟩

namespace Cursor

theorem skipMany_skipMany (cursor : Cursor) (first second : Nat) :
    (cursor.skipMany first).skipMany second = cursor.skipMany (first + second) := by
  simp [skipMany, Nat.add_assoc]

@[simp]
theorem skipMany_zero (cursor : Cursor) : cursor.skipMany 0 = cursor := rfl

theorem skip_eq_skipMany (cursor : Cursor) : cursor.skip = cursor.skipMany 1 := rfl

theorem rest_skipMany {cursor : Cursor} {passed rest : List Char}
    (ahead : cursor.rest = passed ++ rest) : (cursor.skipMany passed.length).rest = rest := by
  simp [skipMany, ahead]

theorem rest_skipMany_one {cursor : Cursor} {c : Char} {rest : List Char}
    (ahead : cursor.rest = c :: rest) : (cursor.skipMany 1).rest = rest := by
  simp [skipMany, ahead]

theorem atDocumentMark_eq_false {cursor : Cursor} (inside : 0 < cursor.column) :
    cursor.atDocumentMark = false := by
  simp [atDocumentMark, Nat.ne_of_gt inside]

end Cursor

/-- A gap ends before a word. -/
theorem Gap.read?_word {cursor : Cursor} {c : Char} {rest : List Char} (ahead : cursor.rest = c :: rest)
    (solid : isBlank c = false) (inline : isBreak c = false) (limit fuel : Nat) (gap : Gap) :
    Gap.read? limit fuel gap cursor = some (gap, cursor) := by
  cases fuel with
  | zero => rfl
  | succ fuel => simp [Gap.read?, ahead, solid, inline]

theorem Gap.read?_blank {cursor : Cursor} {c : Char} {rest : List Char} (ahead : cursor.rest = c :: rest)
    (blank : isBlank c = true) (limit fuel : Nat) (blanks : List Char) :
    Gap.read? limit (fuel + 1) ⟨false, blanks, [], []⟩ cursor =
      Gap.read? limit fuel ⟨false, blanks ++ [c], [], []⟩ (cursor.skipMany 1) := by
  simp [Gap.read?, ahead, blank, Cursor.skip_eq_skipMany]

/-- Blanks before a closing quote are read as they stand. -/
theorem Gap.read?_writes {text written : List Char} (writes : quoting.Writes text written)
    {cursor : Cursor} {rest : List Char} (ahead : cursor.rest = written ++ '"' :: rest)
    (blanks : List Char) {fuel : Nat} (enough : written.length < fuel) :
    ∃ more later after, written = more ++ later ∧ text = more ++ after ∧
      quoting.Writes after later ∧
      Gap.read? 0 fuel ⟨false, blanks, [], []⟩ cursor =
        some (⟨false, blanks ++ more, [], []⟩, cursor.skipMany more.length) := by
  induction writes generalizing cursor blanks fuel with
  | nil =>
      have stop := Gap.read?_word ahead rfl rfl 0 fuel ⟨false, blanks, [], []⟩
      exact ⟨[], [], [], rfl, rfl, .nil, by simpa using stop⟩
  | @cons c piece text written spells writes ih =>
      have whole := Quoting.Writes.cons spells writes
      -- A character that is no blank ends the gap.
      have ends {d : Char} {more : List Char} (start : cursor.rest = d :: more)
          (solid : isBlank d = false) (inline : isBreak d = false) :=
        Gap.read?_word start solid inline 0 fuel ⟨false, blanks, [], []⟩
      cases spells with
      | plain own =>
          cases blank : isBlank c with
          | true =>
              obtain ⟨fuel, rfl⟩ := Nat.exists_eq_add_one_of_ne_zero (Nat.ne_zero_of_lt enough)
              obtain ⟨more, later, after, rfl, rfl, others, read⟩ :=
                ih (Cursor.rest_skipMany_one ahead) (blanks ++ [c]) (by simpa using enough)
              refine ⟨c :: more, later, after, rfl, rfl, others, ?_⟩
              rw [Gap.read?_blank ahead blank, read, Cursor.skipMany_skipMany, Nat.add_comm]
              simp
          | false =>
              have inline : isBreak c = false := by
                simp only [quoting, Bool.and_eq_true, Bool.not_eq_true'] at own
                exact own.1.1.2
              exact ⟨[], _, _, rfl, rfl, whole, by simpa using ends ahead blank inline⟩
      | short known => exact ⟨[], _, _, rfl, rfl, whole, by simpa using ends ahead rfl rfl⟩
      | long known => exact ⟨[], _, _, rfl, rfl, whole, by simpa using ends ahead rfl rfl⟩

/-- A gap starts at a blank and takes the blanks after it along. -/
theorem Gap.read?_blank_writes {c : Char} (blank : isBlank c = true) {text written : List Char}
    (writes : quoting.Writes text written) {cursor : Cursor} {rest : List Char}
    (ahead : cursor.rest = c :: (written ++ '"' :: rest)) :
    ∃ more later after, written = more ++ later ∧ text = more ++ after ∧
      quoting.Writes after later ∧
      Gap.read? 0 cursor.rest.length .none cursor =
        some (⟨false, c :: more, [], []⟩, cursor.skipMany (more.length + 1)) := by
  have tail : (cursor.skipMany 1).rest = written ++ '"' :: rest := Cursor.rest_skipMany_one ahead
  have length : cursor.rest.length = (written ++ '"' :: rest).length + 1 := by
    rw [ahead]
    rfl
  obtain ⟨more, later, after, rfl, rfl, others, read⟩ := Gap.read?_writes writes tail [c]
    (show _ < (written ++ '"' :: rest).length by simp)
  refine ⟨more, later, after, rfl, rfl, others, ?_⟩
  rw [length, Gap.none, Gap.read?_blank ahead blank, List.nil_append, read,
    Cursor.skipMany_skipMany, Nat.add_comm]
  rfl

/-- A text is read from each of its spellings, up to the closing quote. -/
theorem doubleQuoted?_writes {text written : List Char} (writes : quoting.Writes text written)
    {cursor : Cursor} (inside : 0 < cursor.column) {rest : List Char}
    (ahead : cursor.rest = written ++ '"' :: rest) {fuel : Nat} (enough : written.length < fuel) :
    doubleQuoted? fuel cursor = some (text, cursor.skipMany (written.length + 1)) := by
  induction fuel generalizing text written cursor with
  | zero => simp at enough
  | succ fuel ih =>
      have unmarked := Cursor.atDocumentMark_eq_false inside
      -- What is read after some characters is read with less fuel.
      have next (passed : List Char) {after later : List Char} (others : quoting.Writes after later)
          (same : written = passed ++ later) (some : passed ≠ []) :
          doubleQuoted? fuel (cursor.skipMany passed.length) =
            .some (after, cursor.skipMany (written.length + 1)) := by
        have shorter : 0 < passed.length := List.length_pos_of_ne_nil some
        have further : 0 < (cursor.skipMany passed.length).column :=
          Nat.lt_of_lt_of_le inside (Nat.le_add_right _ _)
        subst same
        rw [List.length_append] at enough
        rw [ih others further (Cursor.rest_skipMany (by rw [ahead, List.append_assoc])) (by omega),
          Cursor.skipMany_skipMany, List.length_append, Nat.add_assoc]
      cases writes with
      | nil => simp [doubleQuoted?, unmarked, ahead, Cursor.skip_eq_skipMany]
      | @cons c piece text written spells writes =>
          cases spells with
          | plain own =>
              simp only [quoting, Bool.and_eq_true, Bool.not_eq_true', bne_iff_ne, ne_eq] at own
              obtain ⟨⟨⟨-, inline⟩, noQuote⟩, noSlash⟩ := own
              cases blank : isBlank c with
              | true =>
                  obtain ⟨more, later, after, rfl, rfl, others, gap⟩ :=
                    Gap.read?_blank_writes blank writes ahead
                  have last := next (c :: more) others rfl (by simp)
                  rw [List.length_cons] at last
                  rw [doubleQuoted?, gap]
                  simp [unmarked, ahead, noQuote, noSlash, blank, last, Gap.text]
              | false =>
                  have later := next _ writes rfl (by simp)
                  rw [List.length_singleton] at later
                  simp [doubleQuoted?, unmarked, ahead, noQuote, noSlash, blank, inline,
                    Cursor.skip_eq_skipMany, later]
          | short known =>
              have later := next _ writes rfl (by simp)
              obtain ⟨read, inline⟩ := escape?_short known (written ++ '"' :: rest)
              simp only [List.length_cons, List.length_nil] at later
              simp [doubleQuoted?, unmarked, ahead, inline, read, later]
          | long known length all code =>
              have later := next _ writes rfl (by simp)
              subst length
              obtain ⟨read, inline⟩ := escape?_long known all code (written ++ '"' :: rest)
              simp only [List.length_cons] at later
              simp [doubleQuoted?, unmarked, ahead, inline, read, later]

/-! ### Words -/

theorem isBlank_of_isLetter {c : Char} (letter : isLetter c = true) : isBlank c = false := by
  simp [isBlank, ne_of_isLetter letter ' ' rfl, ne_of_isLetter letter '\t' rfl]

theorem isBreak_of_isLetter {c : Char} (letter : isLetter c = true) : isBreak c = false := by
  simp [isBreak, ne_of_isLetter letter '\n' rfl, ne_of_isLetter letter '\r' rfl,
    ne_of_isLetter letter '\x85' rfl, ne_of_isLetter letter '\u2028' rfl,
    ne_of_isLetter letter '\u2029' rfl]

theorem Gap.text_none : Gap.none.text = [] := rfl

/-- Letters are read up to a colon that ends a word. -/
theorem plain?_letters {word : List Char} (letters : ∀ c ∈ word, isLetter c = true) {cursor : Cursor}
    {rest : List Char} (ahead : cursor.rest = word ++ ':' :: rest) (ends : endsWord rest = true)
    (limit : Nat) {fuel : Nat} (enough : word.length < fuel) :
    plain? false limit fuel .none cursor = some ⟨word, cursor.skipMany word.length, false⟩ := by
  induction word generalizing cursor fuel with
  | nil =>
      obtain ⟨fuel, rfl⟩ := Nat.exists_eq_add_one_of_ne_zero (Nat.ne_zero_of_lt enough)
      simp [plain?, ahead, isBlank, isBreak, ends, Gap.none]
  | cons c word ih =>
      obtain ⟨fuel, rfl⟩ := Nat.exists_eq_add_one_of_ne_zero (Nat.ne_zero_of_lt enough)
      obtain ⟨letter, others⟩ := List.forall_mem_cons.mp letters
      have later := ih others (Cursor.rest_skipMany_one ahead) (Nat.lt_of_succ_lt_succ enough)
      rw [Cursor.skipMany_skipMany, Nat.add_comm] at later
      simp [plain?, ahead, isBlank_of_isLetter letter, isBreak_of_isLetter letter,
        ne_of_isLetter letter ':' rfl, Cursor.skip_eq_skipMany, later, Gap.text_none]

/-! ### Steps of a scanner -/

namespace Scanner

/-- Whether a scanner gets from one state to another, with fuel enough for what is left there. -/
def Leads (first second : Scanner) : Prop :=
  ∀ fuel, first.cursor.rest.length < fuel →
    ∃ left, second.cursor.rest.length < left ∧ first.run? fuel = second.run? left

theorem Leads.refl (scanner : Scanner) : Leads scanner scanner := fun fuel enough =>
  ⟨fuel, enough, rfl⟩

theorem Leads.trans {first second third : Scanner} (start : Leads first second)
    (finish : Leads second third) : Leads first third := by
  intro fuel enough
  obtain ⟨left, within, same⟩ := start fuel enough
  obtain ⟨last, inside, equal⟩ := finish left within
  exact ⟨last, inside, same.trans equal⟩

/-- Whether a character is part of a token wherever it stands. -/
def Solid (c : Char) : Prop := isBlank c = false ∧ isBreak c = false ∧ c ≠ '#'

theorem solid_of_isLetter {c : Char} (letter : isLetter c = true) : Solid c :=
  ⟨isBlank_of_isLetter letter, isBreak_of_isLetter letter, ne_of_isLetter letter '#' rfl⟩

/-- Spaces before a token are passed. -/
theorem skipSpace_spaces {scanner : Scanner} {count : Nat} {c : Char} {rest : List Char}
    (ahead : scanner.cursor.rest = List.replicate count ' ' ++ c :: rest) (solid : Solid c)
    (fuel : Nat) :
    scanner.skipSpace (fuel + 1) = { scanner with cursor := scanner.cursor.skipMany count } := by
  obtain ⟨blank, inline, mark⟩ := solid
  simp only [isBlank, Bool.or_eq_false_iff, beq_eq_false_iff_ne, ne_eq] at blank
  have passed (tabs : Bool) : (List.replicate count ' ' ++ c :: rest).takeWhile
      (fun c => c == ' ' || (tabs && c == '\t')) = List.replicate count ' ' := by
    rw [List.takeWhile_append_of_pos (by simp)]
    simp [blank]
  simp [skipSpace, Cursor.skipWhile, ahead, passed, Cursor.skipMany, mark, inline]

theorem skipSpace_solid {scanner : Scanner} {c : Char} {rest : List Char}
    (ahead : scanner.cursor.rest = c :: rest) (solid : Solid c) (fuel : Nat) :
    scanner.skipSpace (fuel + 1) = scanner :=
  skipSpace_spaces (show _ = List.replicate 0 ' ' ++ _ from ahead) solid fuel

/-- Two scanners that are the same after spaces run alike. -/
theorem Leads.of_skipSpace {first second : Scanner}
    (shorter : second.cursor.rest.length ≤ first.cursor.rest.length)
    (same : first.skipSpace (first.cursor.rest.length + 1) =
      second.skipSpace (second.cursor.rest.length + 1)) : Leads first second := by
  intro fuel enough
  refine ⟨fuel, Nat.lt_of_le_of_lt shorter enough, ?_⟩
  cases fuel with
  | zero => rfl
  | succ fuel => rw [run?, run?, same]

theorem leads_spaces {scanner : Scanner} {count : Nat} {c : Char} {rest : List Char}
    (ahead : scanner.cursor.rest = List.replicate count ' ' ++ c :: rest) (solid : Solid c) :
    Leads scanner { scanner with cursor := scanner.cursor.skipMany count } := by
  have next : (scanner.cursor.skipMany count).rest = c :: rest := by simp [Cursor.skipMany, ahead]
  refine .of_skipSpace (by simp [next, ahead]) ?_
  rw [skipSpace_spaces ahead solid, skipSpace_solid next solid]

/-- After the end of a line a key may begin. -/
theorem leads_lineEnd {scanner : Scanner} {rest : List Char} (ahead : scanner.cursor.rest = '\n' :: rest)
    (outside : scanner.inFlow = false) :
    Leads scanner { scanner with cursor := scanner.cursor.lineBreak.2, keyAllowed := true } := by
  have next : scanner.cursor.lineBreak.2.rest = rest := by simp [Cursor.lineBreak, ahead, isBreak]
  refine .of_skipSpace (by simp [next, ahead]) ?_
  have stay : scanner.cursor.skipWhile (fun c => c == ' ' || (!scanner.keyAllowed && c == '\t')) =
      scanner.cursor := by simp [Cursor.skipWhile, ahead]
  conv_lhs => rw [skipSpace]
  simp [outside, stay, ahead, isBreak, next]

theorem close_cursor (scanner : Scanner) (column : Option Nat) :
    (scanner.close column).cursor = scanner.cursor := by
  unfold close
  split <;> rfl

/-- One token is read. -/
theorem leads_token {scanner next : Scanner} {c : Char} {rest : List Char}
    (ahead : scanner.cursor.rest = c :: rest) (solid : Solid c)
    (recent : scanner.dropStale? = some scanner)
    (token : (scanner.close (some scanner.cursor.column)).token? c rest = some next)
    (shorter : next.cursor.rest.length ≤ rest.length) : Leads scanner next := by
  intro fuel enough
  obtain ⟨fuel, rfl⟩ := Nat.exists_eq_add_one_of_ne_zero (Nat.ne_zero_of_lt enough)
  rw [ahead, List.length_cons] at enough
  refine ⟨fuel, by omega, ?_⟩
  rw [run?, skipSpace_solid ahead solid, recent]
  simp [close_cursor, ahead, token]

/-- Blocks that reach no further than a column stay open there. -/
theorem close_eq_self {scanner : Scanner} {column : Nat}
    (within : ∀ top ∈ scanner.columns.head?, top ≤ column) : scanner.close (some column) = scanner := by
  obtain ⟨cursor, tokens, columns, keys, allowed⟩ := scanner
  cases columns with
  | nil => simp [close]
  | cons top others =>
      have inside : ¬ column < top := Nat.not_lt.mpr (within top rfl)
      simp [close, inside]

theorem dropStale?_none (cursor : Cursor) (tokens : List Token) (columns : List Nat) (allowed : Bool) :
    dropStale? ⟨cursor, tokens, columns, [none], allowed⟩ =
      some ⟨cursor, tokens, columns, [none], allowed⟩ := rfl

theorem isIndicator_of_isLetter {c : Char} (letter : isLetter c = true) : isIndicator c = false := by
  simp only [isIndicator, String.reduceToList, List.contains_eq_mem, List.mem_cons, List.not_mem_nil,
    or_false, Bool.decide_or, Bool.or_eq_false_iff, decide_eq_false_iff_not]
  and_intros <;> exact ne_of_isLetter letter _ rfl

theorem atDocumentMark_of_isLetter {cursor : Cursor} {c : Char} {rest : List Char}
    (ahead : cursor.rest = c :: rest) (letter : isLetter c = true) :
    cursor.atDocumentMark = false := by
  rw [Cursor.atDocumentMark, ahead, Bool.and_eq_false_iff]
  right
  split
  next same => cases same; cases letter
  next same => cases same; cases letter
  next => rfl

/-- A letter begins a plain scalar. -/
theorem token?_letter {scanner : Scanner} {c : Char} {rest : List Char}
    (ahead : scanner.cursor.rest = c :: rest) (letter : isLetter c = true) :
    scanner.token? c rest = scanner.plain? := by
  have free := isIndicator_of_isLetter letter
  have apart := free
  simp only [isIndicator, String.reduceToList, List.contains_eq_mem, List.mem_cons, List.not_mem_nil,
    or_false, Bool.decide_or, Bool.or_eq_false_iff, decide_eq_false_iff_not] at apart
  simp [token?, atDocumentMark_of_isLetter ahead letter, free, isBlank_of_isLetter letter, apart]

/-- Tokens that open a block at a column, unless there is one. -/
def opening (columns : List Nat) (column : Nat) : List Token :=
  if columns.head? = some column then [] else [.blockStart]

/-- Blocks around a key at a column. -/
def opened (columns : List Nat) (column : Nat) : List Nat :=
  if columns.head? = some column then columns else column :: columns

/-- A key opens a block exactly if it is deeper than all blocks around. -/
theorem openBlock_eq {scanner : Scanner} (outside : scanner.inFlow = false) {column : Nat}
    (within : ∀ top ∈ scanner.columns.head?, top ≤ column) (number : Nat) :
    scanner.openBlock column number =
      { scanner.insert number (opening scanner.columns column) with
        columns := opened scanner.columns column } := by
  obtain ⟨cursor, tokens, columns, keys, allowed⟩ := scanner
  have flow : inFlow ⟨cursor, tokens, columns, keys, allowed⟩ = false := outside
  cases columns with
  | nil => simp [openBlock, flow, outer, opening, opened]
  | cons top others =>
      have bound : top ≤ column := within top rfl
      by_cases same : top = column
      · simp [openBlock, outer, opening, opened, insert, same]
      · have deeper : ¬ column < top + 1 := by omega
        simp [openBlock, flow, outer, opening, opened, same, deeper]

section Lines

variable {cursor : Cursor} (tokens : List Token) {columns : List Nat}

/-- A word is read as a scalar that may turn out to be a key. -/
theorem leads_word {word : List Char} (whole : Word word) {rest : List Char}
    (ahead : cursor.rest = word ++ ':' :: rest) (ends : endsWord rest = true)
    (within : ∀ top ∈ columns.head?, top ≤ cursor.column) :
    Leads ⟨cursor, tokens, columns, [none], true⟩
      ⟨cursor.skipMany word.length, tokens ++ [.scalar (String.ofList word) true], columns,
        [some ⟨columns.head? == some cursor.column, tokens.length, cursor⟩], false⟩ := by
  have read := plain?_letters whole.letters ahead ends
  have after := Cursor.rest_skipMany ahead
  obtain ⟨c, more, rfl, letter⟩ := whole.exists_cons
  refine leads_token ahead (solid_of_isLetter letter) rfl ?_ ?_
  · rw [close_eq_self within, token?_letter ahead letter]
    simp [plain?, saveKey?, dropKey?, setKey, inFlow, emit, outer, read, ahead]
  · rw [after]
    simp

/-- A colon makes a key of the word before it, and opens a block if the word is deeper. -/
theorem leads_colon {mark : Cursor} {scalar : Token} {required : Bool} {length : Nat}
    (near : length ≤ 1024) {rest : List Char} (ahead : mark.rest.drop length = ':' :: rest)
    (ends : endsWord rest = true) (within : ∀ top ∈ columns.head?, top ≤ mark.column) :
    Leads ⟨mark.skipMany length, tokens ++ [scalar], columns, [some ⟨required, tokens.length, mark⟩],
        false⟩
      ⟨mark.skipMany (length + 1),
        tokens ++ opening columns mark.column ++ [.key, scalar, .value],
        opened columns mark.column, [none], false⟩ := by
  have recent : ¬ mark.index + 1024 < mark.index + length := by omega
  have unmarked : (mark.skipMany length).atDocumentMark = false := by
    simp [Cursor.atDocumentMark, Cursor.skipMany, ahead]
  -- The colon lies to the right of the word, so that no block ends between them.
  have deeper : ∀ top ∈ columns.head?, top ≤ (mark.skipMany length).column := fun top member =>
    Nat.le_trans (within top member) (Nat.le_add_right _ _)
  refine leads_token (c := ':') ahead ⟨rfl, rfl, by decide⟩ ?_ ?_ ?_
  · simp [dropStale?, isStale, Cursor.skipMany, recent]
  · rw [close_eq_self deeper]
    simp only [token?, unmarked, ends, value?]
    rw [openBlock_eq rfl within]
    simp [insert, setKey, take, emit, Cursor.skipMany_skipMany]
  · have after : (mark.skipMany (length + 1)).rest = rest := by
      simp [Cursor.skipMany, ← List.drop_drop, ahead]
    rw [after]

theorem leads_key {word : List Char} (whole : Word word) (near : word.length ≤ 1024) {rest : List Char}
    (ahead : cursor.rest = word ++ ':' :: rest) (ends : endsWord rest = true)
    (within : ∀ top ∈ columns.head?, top ≤ cursor.column) :
    Leads ⟨cursor, tokens, columns, [none], true⟩
      ⟨cursor.skipMany (word.length + 1),
        tokens ++ opening columns cursor.column ++ [.key, .scalar (String.ofList word) true, .value],
        opened columns cursor.column, [none], false⟩ :=
  (leads_word tokens whole ahead ends within).trans
    (leads_colon tokens near (by simp [ahead]) ends within)

theorem leads_quoted {text body : List Char} (writes : quoting.Writes text body) {rest : List Char}
    (ahead : cursor.rest = '"' :: (body ++ '"' :: rest))
    (within : ∀ top ∈ columns.head?, top ≤ cursor.column) :
    Leads ⟨cursor, tokens, columns, [none], false⟩
      ⟨cursor.skipMany (body.length + 2), tokens ++ [.scalar (String.ofList text) false], columns,
        [none], false⟩ := by
  have inside : (cursor.skipMany 1).rest = body ++ '"' :: rest := Cursor.rest_skipMany_one ahead
  have read := doubleQuoted?_writes writes (Nat.succ_pos _) inside
    (show _ < (cursor.skipMany 1).rest.length + 1 by simp [inside])
  have unmarked : cursor.atDocumentMark = false := by simp [Cursor.atDocumentMark, ahead]
  rw [Cursor.skipMany_skipMany, Nat.add_comm 1] at read
  refine leads_token ahead ⟨rfl, rfl, by decide⟩ rfl ?_ ?_
  · rw [close_eq_self within]
    simp only [token?, unmarked]
    simp [quoted?, saveKey?, Cursor.skip_eq_skipMany, read, emit]
  · simp only [Cursor.skipMany, ahead, List.length_drop, List.length_cons]
    omega

theorem leads_braces {rest : List Char} (ahead : cursor.rest = '\x7b' :: '\x7d' :: rest)
    (within : ∀ top ∈ columns.head?, top ≤ cursor.column) :
    Leads ⟨cursor, tokens, columns, [none], false⟩
      ⟨cursor.skipMany 2, tokens ++ [.flowStart, .flowEnd], columns, [none], false⟩ := by
  have inside : (cursor.skipMany 1).rest = '\x7d' :: rest := Cursor.rest_skipMany_one ahead
  have opens : Leads ⟨cursor, tokens, columns, [none], false⟩
      ⟨cursor.skipMany 1, tokens ++ [.flowStart], columns, [none, none], true⟩ := by
    have unmarked : cursor.atDocumentMark = false := by simp [Cursor.atDocumentMark, ahead]
    refine leads_token ahead ⟨rfl, rfl, by decide⟩ rfl ?_ (by simp [inside])
    rw [close_eq_self within]
    simp [token?, unmarked, flowStart?, saveKey?, take, emit]
  have closes : Leads ⟨cursor.skipMany 1, tokens ++ [.flowStart], columns, [none, none], true⟩
      ⟨cursor.skipMany 2, tokens ++ [.flowStart, .flowEnd], columns, [none], false⟩ := by
    have unmarked : (cursor.skipMany 1).atDocumentMark = false := by
      simp [Cursor.atDocumentMark, inside]
    refine leads_token inside ⟨rfl, rfl, by decide⟩ rfl ?_ (by simp [Cursor.skipMany, ahead])
    simp [close, inFlow, token?, unmarked, flowEnd?, dropKey?, setKey, take, emit,
      Cursor.skipMany_skipMany]
  exact opens.trans closes

/-- The next line begins after the end of a line. -/
theorem leads_newLine (columns : List Nat) (allowed : Bool) {rest : List Char}
    (ahead : cursor.rest = '\n' :: rest) :
    ∃ next : Cursor, next.rest = rest ∧ next.column = 0 ∧
      Leads ⟨cursor, tokens, columns, [none], allowed⟩ ⟨next, tokens, columns, [none], true⟩ := by
  refine ⟨cursor.lineBreak.2, ?_, ?_, leads_lineEnd ahead rfl⟩ <;>
    simp [Cursor.lineBreak, ahead, isBreak]

end Lines

end Scanner

end Respell.Yaml
