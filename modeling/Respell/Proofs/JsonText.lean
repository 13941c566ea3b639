import Respell.Json.Parser
import Respell.Json.Printer
import Respell.Proofs.Quoting

/-!
JSON texts of strings and objects. What a text may look like is said by itself: strings in any spelling
and any spaces between tokens. Every such text is read as the value it is a text of, and the printers
write such texts.
-/

set_option autoImplicit false

namespace Respell.Json

open Respell.Text (Quoting digitValue digitValue_digitChar isHexDigit isHexDigit_digitChar ofDigits
  scalar? scalar?_toNat)

/-- What JSON allows between quotes; pairs of units are left out. -/
def quoting : Quoting where
  plain c := 32 ≤ c.toNat && c != '"' && c != '\\'
  short := [('"', '"'), ('\\', '\\'), ('/', '/'), ('b', '\x08'), ('f', '\x0c'), ('n', '\n'),
    ('r', '\r'), ('t', '\t')]
  long := [('u', 4)]

/-! ### Strings -/

theorem escape?_short {letter c : Char} (known : (letter, c) ∈ quoting.short) (rest : List Char) :
    escape? (letter :: rest) = some (c, 1) := by
  simp only [quoting, List.mem_cons, Prod.mk.injEq, List.not_mem_nil, or_false] at known
  rcases known with ⟨rfl, rfl⟩ | ⟨rfl, rfl⟩ | ⟨rfl, rfl⟩ | ⟨rfl, rfl⟩ | ⟨rfl, rfl⟩ | ⟨rfl, rfl⟩ |
    ⟨rfl, rfl⟩ | ⟨rfl, rfl⟩ <;> rfl

theorem unit?_append {digits : List Char} (length : digits.length = 4)
    (all : ∀ digit ∈ digits, isHexDigit digit = true) (rest : List Char) :
    unit? (digits ++ rest) = some (ofDigits 16 digits) := by
  have pass : digits.all isHexDigit = true := List.all_eq_true.mpr all
  have first : (digits ++ rest).take 4 = digits := List.take_left' length
  simp [unit?, first, length, pass]

/-- The code of a character is no unit of a pair. -/
theorem escape?_long {digits : List Char} (length : digits.length = 4)
    (all : ∀ digit ∈ digits, isHexDigit digit = true) {c : Char} (code : ofDigits 16 digits = c.toNat)
    (rest : List Char) : escape? ('u' :: (digits ++ rest)) = some (c, 5) := by
  have single : (scalar? c.toNat).map (fun c => (c, 5)) = some (c, 5) := by
    rw [scalar?_toNat]
    rfl
  have noUnit : ¬ (0xD800 ≤ c.toNat ∧ c.toNat < 0xDC00) := by
    have valid : c.toNat < 0xD800 ∨ 0xDFFF < c.toNat ∧ c.toNat < 0x110000 := c.valid
    omega
  rw [escape?, unit?_append length all, code]
  split
  next high _ found _ =>
    obtain rfl := Option.some.inj found
    rw [if_neg (by simpa using noUnit)]
    exact single
  next found _ =>
    obtain rfl := Option.some.inj found
    exact single
  next missing => cases missing

/-- A character is read from each of its spellings. -/
theorem stringBody?_spells {c : Char} {piece : List Char} (spells : quoting.Spells c piece)
    (rest : List Char) :
    stringBody? (piece ++ rest) = (stringBody? rest).map fun (body, after) => (c :: body, after) := by
  cases spells with
  | plain own =>
      simp only [quoting, Bool.and_eq_true, decide_eq_true_eq, bne_iff_ne, ne_eq] at own
      obtain ⟨⟨large, noQuote⟩, noSlash⟩ := own
      rw [List.singleton_append, stringBody?]
      simp [noQuote, noSlash, Nat.not_lt.mpr large]
  | @short letter _ known =>
      rw [List.cons_append, List.cons_append, List.nil_append, stringBody?, escape?_short known]
      simp
  | @long letter _ count digits known length all code =>
      obtain ⟨rfl, rfl⟩ : letter = 'u' ∧ count = 4 := by simpa [quoting] using known
      have passed : ('u' :: (digits ++ rest)).drop 5 = rest := by
        rw [List.drop_succ_cons, List.drop_left' length]
      rw [List.cons_append, List.cons_append, stringBody?, escape?_long length all code]
      simp [passed]

/-- A text is read from each of its spellings, up to the closing quote. -/
theorem stringBody?_writes {text written : List Char} (writes : quoting.Writes text written)
    (rest : List Char) : stringBody? (written ++ '"' :: rest) = some (text, rest) := by
  induction writes with
  | nil => simp [stringBody?]
  | cons spells _ ih =>
      rw [List.append_assoc, stringBody?_spells spells, ih]
      rfl

theorem hexDigit_eq_digitChar {digit : Nat} (small : digit < 16) :
    hexDigit digit = digit.digitChar := by
  interval_cases digit <;> rfl

/-- A control character is spelled by its code. -/
theorem spells_control {c : Char} (small : c.toNat < 32) :
    quoting.Spells c
      ['\\', 'u', '0', '0', hexDigit (c.toNat / 16), hexDigit (c.toNat % 16)] := by
  have high : c.toNat / 16 < 16 := by omega
  have low : c.toNat % 16 < 16 := by omega
  rw [hexDigit_eq_digitChar high, hexDigit_eq_digitChar low]
  refine .long (List.mem_singleton.mpr rfl) rfl ?_ ?_
  · simp only [List.mem_cons, List.not_mem_nil, or_false]
    rintro digit (rfl | rfl | rfl | rfl)
    · rfl
    · rfl
    · exact isHexDigit_digitChar high
    · exact isHexDigit_digitChar low
  · have value : ofDigits 16 ['0', '0', (c.toNat / 16).digitChar, (c.toNat % 16).digitChar] =
        digitValue (c.toNat / 16).digitChar * 16 + digitValue (c.toNat % 16).digitChar := by
      simp [ofDigits, digitValue]
    rw [value, digitValue_digitChar high, digitValue_digitChar low]
    omega

theorem spells_escapeChar (c : Char) : quoting.Spells c (escapeChar c) := by
  unfold escapeChar
  split
  case h_8 noQuote noSlash _ _ _ _ _ =>
    split
    next small => exact spells_control small
    next large =>
      refine .plain ?_
      simp only [quoting, Bool.and_eq_true, decide_eq_true_eq, bne_iff_ne, ne_eq]
      exact ⟨⟨Nat.not_lt.mp large, noQuote⟩, noSlash⟩
  all_goals exact .short (by decide)

theorem writes_escapeChar (text : List Char) : quoting.Writes text (text.flatMap escapeChar) := by
  induction text with
  | nil => exact .nil
  | cons c rest ih => exact .cons (spells_escapeChar c) ih

/-! ### Values -/

/-- Text that may stand between tokens. -/
def Blank (gap : List Char) : Prop := ∀ c ∈ gap, isSpace c = true

theorem blank_nil : Blank [] := by simp [Blank]

theorem blank_space : Blank [' '] := by simp [Blank, isSpace]

/-- Texts of a member of an object, its value written in given ways. -/
inductive WrittenMember (written : Json → List Char → Prop) : String × Json → List Char → Prop
  | mk {key : String} {value : Json} {name before after text : List Char} :
      quoting.Writes key.toList name → Blank before → Blank after → written value text →
      WrittenMember written (key, value) ('"' :: (name ++ '"' :: (before ++ ':' :: (after ++ text))))

/-- Texts of members, at least one, up to the closing brace. -/
inductive WrittenMembers (written : Json → List Char → Prop) :
    List (String × Json) → List Char → Prop
  | last {member : String × Json} {text gap : List Char} :
      WrittenMember written member text → Blank gap →
      WrittenMembers written [member] (text ++ (gap ++ ['}']))
  | cons {member : String × Json} {rest : List (String × Json)}
      {text before after more : List Char} :
      WrittenMember written member text → Blank before → Blank after →
      WrittenMembers written rest more →
      WrittenMembers written (member :: rest) (text ++ (before ++ ',' :: (after ++ more)))

inductive WrittenObject (written : Json → List Char → Prop) :
    List (String × Json) → List Char → Prop
  | empty {gap : List Char} : Blank gap → WrittenObject written [] ('{' :: (gap ++ ['}']))
  | full {members : List (String × Json)} {gap text : List Char} :
      Blank gap → WrittenMembers written members text →
      WrittenObject written members ('{' :: (gap ++ text))

/-- Texts of a value of strings and objects, which nest at most so deep. -/
def Written : Nat → Json → List Char → Prop
  | _, .string text, written =>
    ∃ body, quoting.Writes text.toList body ∧ written = '"' :: (body ++ ['"'])
  | height + 1, .object members, written => WrittenObject (Written height) members written
  | _, _, _ => False

theorem skipSpace_append {gap : List Char} (blank : Blank gap) {c : Char} (solid : isSpace c = false)
    (rest : List Char) : skipSpace (gap ++ c :: rest) = c :: rest := by
  rw [skipSpace, List.dropWhile_append_of_pos blank]
  simp [solid]

/-- Whether a reader reads all texts of a kind, whatever follows them. -/
structure Reads (value : List Char → Option (Json × List Char))
    (written : Json → List Char → Prop) : Prop where
  reads : ∀ {json : Json} {text : List Char}, written json text →
    ∀ rest, value (text ++ rest) = some (json, rest)
  solid : ∀ {json : Json} {text : List Char}, written json text →
    ∃ c more, text = c :: more ∧ isSpace c = false

section Members

variable {value : List Char → Option (Json × List Char)} {written : Json → List Char → Prop}

theorem member?_written (reader : Reads value written) {member : String × Json} {text : List Char}
    (member_text : WrittenMember written member text) (rest : List Char) :
    member? value (text ++ rest) = some (member, rest) := by
  obtain @⟨key, json, name, before, after, text, writes, first, second, inner⟩ := member_text
  obtain ⟨c, more, rfl, solid⟩ := reader.solid inner
  have body := stringBody?_writes writes (before ++ ':' :: (after ++ (c :: more ++ rest)))
  have colon := skipSpace_append first (c := ':') rfl (after ++ (c :: more ++ rest))
  have start := skipSpace_append second solid (more ++ rest)
  have read := reader.reads inner rest
  rw [List.cons_append] at read
  simp only [List.cons_append, List.append_assoc] at body colon ⊢
  simp [member?, body, colon, start, read]

theorem WrittenMember.quoted {member : String × Json} {text : List Char}
    (member_text : WrittenMember written member text) : ∃ more, text = '"' :: more := by
  cases member_text
  exact ⟨_, rfl⟩

theorem WrittenMembers.quoted {members : List (String × Json)} {text : List Char}
    (members_text : WrittenMembers written members text) : ∃ more, text = '"' :: more := by
  cases members_text with
  | last member_text blank =>
      obtain ⟨more, rfl⟩ := member_text.quoted
      exact ⟨_, rfl⟩
  | cons member_text first second more =>
      obtain ⟨more, rfl⟩ := member_text.quoted
      exact ⟨_, rfl⟩

/-- The first of several members is read, and from there on all others up to the closing brace. -/
theorem membersFrom_written (reader : Reads value written) {members : List (String × Json)}
    {text : List Char} (members_text : WrittenMembers written members text) (rest : List Char) :
    ∃ first others after, members = first :: others ∧
      member? value (text ++ rest) = some (first, after) ∧
      after.length < (text ++ rest).length ∧
      ∀ fuel, after.length < fuel → membersFrom value fuel after = some (others, rest) := by
  induction members_text with
  | @last member text gap member_text blank =>
      obtain ⟨more, rfl⟩ := member_text.quoted
      refine ⟨member, [], gap ++ '}' :: rest, rfl, ?_, ?_, ?_⟩
      · rw [List.append_assoc, member?_written reader member_text, List.append_assoc]
        rfl
      · simp only [List.length_append, List.length_cons, List.length_nil]
        omega
      · intro fuel enough
        obtain ⟨fuel, rfl⟩ := Nat.exists_eq_add_one_of_ne_zero (Nat.ne_zero_of_lt enough)
        rw [membersFrom, skipSpace_append blank rfl]
        rfl
  | @cons member others text before after more member_text first second members_text ih =>
      obtain ⟨next, later, remaining, rfl, read, shorter, loop⟩ := ih
      obtain ⟨more', rfl⟩ := members_text.quoted
      refine ⟨member, next :: later, before ++ ',' :: (after ++ ('"' :: more' ++ rest)), rfl, ?_, ?_, ?_⟩
      · rw [List.append_assoc, member?_written reader member_text]
        simp
      · obtain ⟨head, rfl⟩ := member_text.quoted
        simp only [List.length_append, List.length_cons]
        omega
      · intro fuel enough
        obtain ⟨fuel, rfl⟩ := Nat.exists_eq_add_one_of_ne_zero (Nat.ne_zero_of_lt enough)
        -- Fuel counts characters, and what is left after a member is shorter.
        have within : remaining.length < fuel := by
          simp only [List.length_append, List.length_cons] at enough shorter
          omega
        rw [membersFrom, skipSpace_append first rfl]
        simp only [List.cons_append] at read
        simp [skipSpace_append second (c := '"') rfl, read, loop fuel within]

end Members

theorem Written.solid {height : Nat} {json : Json} {text : List Char}
    (written : Written height json text) : ∃ c more, text = c :: more ∧ isSpace c = false := by
  unfold Written at written
  split at written
  · obtain ⟨body, -, rfl⟩ := written
    exact ⟨'"', _, rfl, rfl⟩
  · cases written <;> exact ⟨'{', _, rfl, rfl⟩
  · exact written.elim

theorem value?_string {text : String} {body : List Char} (writes : quoting.Writes text.toList body)
    (depth : Nat) (rest : List Char) :
    value? (depth + 1) ('"' :: (body ++ ['"']) ++ rest) = some (.string text, rest) := by
  have read := stringBody?_writes writes rest
  rw [List.cons_append, value?, List.append_assoc]
  simp [read]

theorem value?_object {depth : Nat} {written : Json → List Char → Prop}
    (reader : Reads (value? (depth + 1)) written) {members : List (String × Json)} {text : List Char}
    (object : WrittenObject written members text) (rest : List Char) :
    value? (depth + 2) (text ++ rest) = some (.object members, rest) := by
  cases object with
  | empty blank =>
      have closed := skipSpace_append blank (c := '}') rfl rest
      rw [List.cons_append, value?, List.append_assoc]
      simp [closed]
  | @full _ gap inner blank members_text =>
      obtain ⟨more, rfl⟩ := members_text.quoted
      obtain ⟨first, others, after, rfl, read, -, loop⟩ :=
        membersFrom_written reader members_text rest
      have start := skipSpace_append blank (c := '"') rfl (more ++ rest)
      rw [List.cons_append] at read
      rw [List.cons_append, value?, List.append_assoc, List.cons_append, start]
      simp [read, loop (after.length + 1) (Nat.lt_succ_self _)]

/-- A value of strings and objects is read from each of its texts, whatever follows. -/
theorem reads_value? {height depth : Nat} (deep : height < depth) :
    Reads (value? depth) (Written height) := by
  refine ⟨fun {json text} written rest => ?_, Written.solid⟩
  induction height generalizing depth json text rest with
  | zero =>
      obtain ⟨depth, rfl⟩ := Nat.exists_eq_add_one_of_ne_zero (Nat.ne_zero_of_lt deep)
      cases json with
      | string content =>
          obtain ⟨body, writes, rfl⟩ := written
          exact value?_string writes depth rest
      | _ => exact written.elim
  | succ height ih =>
      obtain ⟨depth, rfl⟩ := Nat.exists_eq_add_one_of_ne_zero (Nat.ne_zero_of_lt deep)
      cases json with
      | string content =>
          obtain ⟨body, writes, rfl⟩ := written
          exact value?_string writes depth rest
      | object members =>
          obtain ⟨depth, rfl⟩ : ∃ inner, depth = inner + 1 := ⟨depth - 1, by omega⟩
          have reader : Reads (value? (depth + 1)) (Written height) :=
            ⟨fun inner => ih (by omega) inner, Written.solid⟩
          exact value?_object reader written rest
      | _ => exact written.elim

/-- A value of strings and objects is read from each of its texts. -/
theorem parse?_written {height : Nat} {json : Json} {text : String}
    (written : Written height json text.toList) (shallow : height < 128) :
    parse? text = some json := by
  have reader := reads_value? shallow
  obtain ⟨c, more, start, solid⟩ := written.solid
  have read := reader.reads written []
  have first : skipSpace text.toList = text.toList := by
    rw [start]
    exact skipSpace_append blank_nil solid more
  rw [List.append_nil] at read
  rw [parse?, first, read]
  rfl

/-! ### Printed texts -/

/-- Values of strings and objects that nest at most so deep. -/
def Textual : Nat → Json → Prop
  | _, .string _ => True
  | height + 1, .object members => ∀ member ∈ members, Textual height member.2
  | _, _ => False

theorem toList_quote (text : String) :
    (quote text).toList = '"' :: (text.toList.flatMap escapeChar ++ ['"']) := by
  simp [quote]

theorem writtenMember_compact {written : Json → List Char → Prop} {member : String × Json}
    (value : written member.2 (compact member.2).toList) :
    WrittenMember written member (quote member.1 ++ ":" ++ compact member.2).toList := by
  have text := WrittenMember.mk (writes_escapeChar member.1.toList) blank_nil blank_nil value
  simpa [toList_quote] using text

theorem writtenMembers_compact {written : Json → List Char → Prop} {members : List (String × Json)}
    (some : members ≠ []) (values : ∀ member ∈ members, written member.2 (compact member.2).toList) :
    WrittenMembers written members ((compactMembers members).toList ++ ['}']) := by
  induction members with
  | nil => exact absurd rfl some
  | cons member rest ih =>
      obtain ⟨here, others⟩ := List.forall_mem_cons.mp values
      have text := writtenMember_compact here
      cases rest with
      | nil =>
          have last := WrittenMembers.last text blank_nil
          simpa [compactMembers] using last
      | cons next more =>
          have cons := WrittenMembers.cons text blank_nil blank_nil (ih (by simp) others)
          simpa [compactMembers] using cons

/-- The text on one line is a text of the value. -/
theorem written_compact {height : Nat} {json : Json} (textual : Textual height json) :
    Written height json (compact json).toList := by
  induction height generalizing json with
  | zero =>
      cases json with
      | string text => exact ⟨_, writes_escapeChar text.toList, toList_quote text⟩
      | _ => exact textual.elim
  | succ height ih =>
      cases json with
      | string text => exact ⟨_, writes_escapeChar text.toList, toList_quote text⟩
      | object members =>
          cases members with
          | nil => exact WrittenObject.empty blank_nil
          | cons first rest =>
              have members : WrittenMembers (Written height) (first :: rest) _ :=
                writtenMembers_compact (by simp) fun member among => ih (textual member among)
              have object := WrittenObject.full blank_nil members
              simpa [compact, Written] using object
      | _ => exact textual.elim

theorem writtenMember_pretty {written : Json → List Char → Prop} {margin : String}
    {member : String × Json} (value : written member.2 (prettyFrom margin member.2).toList) :
    WrittenMember written member (quote member.1 ++ ": " ++ prettyFrom margin member.2).toList := by
  have text := WrittenMember.mk (writes_escapeChar member.1.toList) blank_nil blank_space value
  simpa [toList_quote] using text

/-- Members on lines of their own, each after a margin. -/
theorem writtenMembers_pretty {written : Json → List Char → Prop} {margin closing : String}
    (wide : Blank margin.toList) (narrow : Blank closing.toList) {members : List (String × Json)}
    (some : members ≠ [])
    (values : ∀ member ∈ members, written member.2 (prettyFrom margin member.2).toList) :
    ∃ text, (prettyMembers margin members ++ closing).toList ++ ['}'] = margin.toList ++ text ∧
      WrittenMembers written members text := by
  induction members with
  | nil => exact absurd rfl some
  | cons member rest ih =>
      obtain ⟨here, others⟩ := List.forall_mem_cons.mp values
      have text := writtenMember_pretty here
      cases rest with
      | nil => exact ⟨_, by simp [prettyMembers], .last text narrow⟩
      | cons next more =>
          obtain ⟨later, same, written⟩ := ih (by simp) others
          refine ⟨_, ?_, .cons text blank_nil wide written⟩
          rw [← same]
          simp [prettyMembers]

/-- The text over several lines is a text of the value. -/
theorem written_prettyFrom {height : Nat} {json : Json} (textual : Textual height json)
    {margin : String} (blank : Blank margin.toList) :
    Written height json (prettyFrom margin json).toList := by
  induction height generalizing json margin with
  | zero =>
      cases json with
      | string text => exact ⟨_, writes_escapeChar text.toList, toList_quote text⟩
      | _ => exact textual.elim
  | succ height ih =>
      cases json with
      | string text => exact ⟨_, writes_escapeChar text.toList, toList_quote text⟩
      | object members =>
          cases members with
          | nil =>
              rw [prettyFrom]
              exact WrittenObject.empty blank_nil
          | cons first rest =>
              have wide : Blank (margin ++ "  ").toList := by
                rw [String.toList_append]
                exact List.forall_mem_append.mpr ⟨blank, by simp [isSpace]⟩
              have values : ∀ member ∈ first :: rest, Written height member.2 _ :=
                fun member among => ih (textual member among) wide
              obtain ⟨text, same, members⟩ := writtenMembers_pretty wide blank (by simp) values
              have object := WrittenObject.full wide members
              rw [← same] at object
              simpa [prettyFrom, Written] using object
      | _ => exact textual.elim

end Respell.Json
