import Respell.Proofs.Digits
import Respell.Proofs.Quoting
import Respell.Source.Literal

/-!
Escapes in the body of a string, and the text that they denote. A character may be written as
itself, by a letter of its own, by octal digits or by hexadecimal ones, and lines may be joined
anywhere between; unescaping finds the text behind every such spelling.
-/

set_option autoImplicit false

namespace Respell.Source

open Respell.Text

/-- Characters after a backslash, each with the one that it stands for. -/
def shortEscapes : List (Char × Char) :=
  [('n', '\n'), ('t', '\t'), ('r', '\r'), ('a', '\x07'), ('b', '\x08'), ('f', '\x0c'),
   ('v', '\x0b'), ('\\', '\\'), ('\'', '\''), ('"', '"')]

/-- Letters after a backslash, each with the number of hexadecimal digits that follow it. -/
def hexEscapes : List (Char × Nat) := [('x', 2), ('u', 4), ('U', 8)]

/-- Whether a backslash before a character is an escape. -/
def isEscaped (c : Char) : Bool :=
  (shortEscapes.map Prod.fst).contains c || (hexEscapes.map Prod.fst).contains c ||
    isOctalDigit c || c == '\n'

/-- The text that a body denotes. Octal digits end with the third one or where another character
follows, and a backslash before a character that needs none stays. -/
inductive Denotes : List Char → List Char → Prop
  | nil : Denotes [] []
  | plain {c : Char} {body value : List Char} : c ≠ '\\' → Denotes body value →
      Denotes (c :: body) (c :: value)
  | short {letter c : Char} {body value : List Char} : (letter, c) ∈ shortEscapes →
      Denotes body value → Denotes ('\\' :: letter :: body) (c :: value)
  | joined {body value : List Char} : Denotes body value → Denotes ('\\' :: '\n' :: body) value
  | octal {digits body value : List Char} {c : Char} : digits ≠ [] → digits.length ≤ 3 →
      (digits.length < 3 → ∀ next ∈ body.head?, isOctalDigit next = false) →
      Numeral 8 digits c.toNat → Denotes body value →
      Denotes ('\\' :: (digits ++ body)) (c :: value)
  | hex {letter c : Char} {digits body value : List Char} : (letter, digits.length) ∈ hexEscapes →
      Numeral 16 digits c.toNat → Denotes body value →
      Denotes ('\\' :: letter :: (digits ++ body)) (c :: value)
  | kept {c : Char} {body value : List Char} : isEscaped c = false → c ≠ 'N' → Denotes body value →
      Denotes ('\\' :: c :: body) ('\\' :: c :: value)

theorem unescape_plain {c : Char} (plain : c ≠ '\\') (rest : List Char) :
    unescape (c :: rest) = c :: unescape rest := by
  rw [unescape]
  simp [plain]

theorem unescape_escape {rest decoded : List Char} {length : Nat}
    (resolved : resolveEscape rest = (decoded, length)) :
    unescape ('\\' :: rest) = decoded ++ unescape (rest.drop length) := by
  rw [unescape, resolved]
  rfl

theorem resolveEscape_short {letter c : Char} (listed : (letter, c) ∈ shortEscapes)
    (rest : List Char) : resolveEscape (letter :: rest) = ([c], 1) := by
  simp only [shortEscapes, List.mem_cons, Prod.mk.injEq, List.not_mem_nil, or_false] at listed
  rcases listed with ⟨rfl, rfl⟩ | ⟨rfl, rfl⟩ | ⟨rfl, rfl⟩ | ⟨rfl, rfl⟩ | ⟨rfl, rfl⟩ | ⟨rfl, rfl⟩ |
    ⟨rfl, rfl⟩ | ⟨rfl, rfl⟩ | ⟨rfl, rfl⟩ | ⟨rfl, rfl⟩ <;> rfl

theorem hexScalar?_digits {digits : List Char} {c : Char} (numeral : Numeral 16 digits c.toNat)
    (rest : List Char) : hexScalar? digits.length (digits ++ rest) = some c := by
  have all : ∀ d ∈ digits, isHexDigit d = true := numeral.forall_mem (by decide)
  have pass : digits.all isHexDigit = true := List.all_eq_true.mpr all
  simp only [hexScalar?, List.take_left, beq_self_eq_true, pass, Bool.and_self, if_true]
  rw [numeral.ofDigits_eq (by decide), scalar?_toNat]

theorem resolveEscape_hex {letter c : Char} {digits : List Char}
    (listed : (letter, digits.length) ∈ hexEscapes) (numeral : Numeral 16 digits c.toNat)
    (rest : List Char) :
    resolveEscape (letter :: (digits ++ rest)) = ([c], digits.length + 1) := by
  have decoded := hexScalar?_digits numeral rest
  simp only [hexEscapes, List.mem_cons, Prod.mk.injEq, List.not_mem_nil, or_false] at listed
  rcases listed with ⟨rfl, width⟩ | ⟨rfl, width⟩ | ⟨rfl, width⟩ <;>
    · rw [width] at decoded ⊢
      simp only [resolveEscape, decoded]

/-- An octal escape takes the digits that follow, three at most. -/
theorem takeWhile_octal {digits rest : List Char} (all : ∀ c ∈ digits, isOctalDigit c = true)
    (few : digits.length ≤ 2)
    (ends : digits.length < 2 → ∀ next ∈ rest.head?, isOctalDigit next = false) :
    ((digits ++ rest).take 2).takeWhile isOctalDigit = digits := by
  have stops : (rest.take (2 - digits.length)).takeWhile isOctalDigit = [] := by
    by_cases full : digits.length = 2
    · rw [full]
      rfl
    · obtain ⟨more, same⟩ : ∃ more, 2 - digits.length = more + 1 := ⟨1 - digits.length, by omega⟩
      cases rest with
      | nil => simp
      | cons next rest => simp [same, ends (by omega) next rfl]
  rw [List.take_append, List.take_of_length_le few, List.takeWhile_append_of_pos all, stops,
    List.append_nil]

theorem resolveEscape_octal {c : Char} (octal : isOctalDigit c = true) (rest : List Char) :
    resolveEscape (c :: rest) =
      ([Char.ofNat (ofDigits 8 (c :: (rest.take 2).takeWhile isOctalDigit))],
        (c :: (rest.take 2).takeWhile isOctalDigit).length) := by
  unfold resolveEscape
  dsimp only
  split
  case h_15 => rw [if_pos octal]
  all_goals cases octal

theorem resolveEscape_kept {c : Char} (needless : isEscaped c = false) (rest : List Char) :
    resolveEscape (c :: rest) = (['\\', c], 1) := by
  unfold resolveEscape
  dsimp only
  split
  case h_15 =>
    have other : isOctalDigit c = false := by
      simp only [isEscaped, Bool.or_eq_false_iff] at needless
      exact needless.1.2
    rw [other]
    rfl
  all_goals cases needless

/-- Unescaping gives the text that a body denotes. -/
theorem unescape_of_denotes {body value : List Char} (denotes : Denotes body value) :
    unescape body = value := by
  induction denotes with
  | nil => rw [unescape]
  | plain other _ ih => rw [unescape_plain other, ih]
  | short listed _ ih =>
      rw [unescape_escape (resolveEscape_short listed _), List.drop_one, List.tail_cons, ih]
      rfl
  | joined _ ih =>
      have resolved (rest : List Char) : resolveEscape ('\n' :: rest) = ([], 1) := rfl
      rw [unescape_escape (resolved _), List.drop_one, List.tail_cons, ih]
      rfl
  | @octal digits body value c nonempty few ends numeral _ ih =>
      obtain ⟨first, more, rfl⟩ := List.exists_cons_of_ne_nil nonempty
      have all : ∀ d ∈ first :: more, isOctalDigit d = true := numeral.forall_mem (by decide)
      obtain ⟨octal, others⟩ := List.forall_mem_cons.mp all
      rw [List.length_cons] at few ends
      have taken := takeWhile_octal others (by omega) fun short => ends (by omega)
      have resolved := resolveEscape_octal octal (more ++ body)
      rw [taken, numeral.ofDigits_eq (by decide), Char.ofNat_toNat] at resolved
      rw [List.cons_append, unescape_escape resolved, ← List.cons_append, List.drop_left, ih]
      rfl
  | hex listed numeral _ ih =>
      rw [unescape_escape (resolveEscape_hex listed numeral _), List.drop_succ_cons, List.drop_left,
        ih]
      rfl
  | kept needless _ _ ih =>
      rw [unescape_escape (resolveEscape_kept needless _), List.drop_one, List.tail_cons, ih]
      rfl

/-- Ways to write one character. -/
inductive Spelling : Char → List Char → Prop
  | plain {c : Char} : c ≠ '\\' → Spelling c [c]
  | short {letter c : Char} : (letter, c) ∈ shortEscapes → Spelling c ['\\', letter]
  | octal {digits : List Char} {c : Char} : digits.length = 3 → Numeral 8 digits c.toNat →
      Spelling c ('\\' :: digits)
  | hex {letter c : Char} {digits : List Char} : (letter, digits.length) ∈ hexEscapes →
      Numeral 16 digits c.toNat → Spelling c ('\\' :: letter :: digits)

/-- Ways to write a text: each character in its own way, and joined lines anywhere between. -/
inductive Spellings : List Char → List Char → Prop
  | nil : Spellings [] []
  | joined {value written : List Char} : Spellings value written →
      Spellings value ('\\' :: '\n' :: written)
  | cons {c : Char} {value first written : List Char} : Spelling c first → Spellings value written →
      Spellings (c :: value) (first ++ written)

theorem Spelling.denotes {c : Char} {first written value : List Char} (spelling : Spelling c first)
    (rest : Denotes written value) : Denotes (first ++ written) (c :: value) := by
  cases spelling with
  | plain other => exact .plain other rest
  | short listed => exact .short listed rest
  | @octal digits c three numeral =>
      have nonempty : digits ≠ [] := List.length_pos_iff.mp (by omega)
      exact .octal nonempty (by omega) (fun short => absurd three (by omega)) numeral rest
  | hex listed numeral => exact .hex listed numeral rest

/-- However a text is written, unescaping gives it back. -/
theorem unescape_spellings {value written : List Char} (spelled : Spellings value written) :
    unescape written = value := by
  refine unescape_of_denotes ?_
  induction spelled with
  | nil => exact .nil
  | joined _ ih => exact .joined ih
  | cons spelling _ ih => exact spelling.denotes ih

theorem unescape_spellings_seams :
    Spellings "A1é\\7".toList "\\1011\\u00E9\\\n\\x5c7".toList ∧
      unescape "\\1011\\u00E9\\\n\\x5c7".toList = "A1é\\7".toList := by
  have octal : Numeral 8 ['1', '0', '1'] 'A'.toNat :=
    ((Numeral.nil.concat (by decide : 1 < 8) (.inl rfl)).concat
      (by decide : 0 < 8) (.inl rfl)).concat (by decide : 1 < 8) (.inl rfl)
  have four : Numeral 16 ['0', '0', 'E', '9'] 'é'.toNat :=
    (((Numeral.nil.concat (by decide : 0 < 16) (.inl rfl)).concat
      (by decide : 0 < 16) (.inl rfl)).concat (by decide : 14 < 16) (.inr rfl)).concat
      (by decide : 9 < 16) (.inl rfl)
  have two : Numeral 16 ['5', 'c'] '\\'.toNat :=
    (Numeral.nil.concat (by decide : 5 < 16) (.inl rfl)).concat (by decide : 12 < 16) (.inl rfl)
  have written : Spellings "A1é\\7".toList "\\1011\\u00E9\\\n\\x5c7".toList :=
    .cons (.octal rfl octal) (.cons (.plain (by decide)) (.cons (.hex (by decide) four)
      (.joined (.cons (.hex (by decide) two) (.cons (.plain (by decide)) .nil)))))
  exact ⟨written, unescape_spellings written⟩

end Respell.Source
