import Respell.Proofs.Digits

/-!
Texts between quotes, and words that need none. A quoting says which characters stand for themselves, which escapes of one letter
there are, and which letters announce the code of a character in hexadecimal digits. A character may be
written in several ways, and every text can be written if some code is long enough for all characters.
-/

set_option autoImplicit false

namespace Respell.Text

/-- What a format allows between double quotes. -/
structure Quoting where
  /-- Characters that stand for themselves. -/
  plain : Char → Bool
  /-- Letters after a backslash, each with the character it stands for. -/
  short : List (Char × Char)
  /-- Letters after a backslash, each with the number of hexadecimal digits that follow. -/
  long : List (Char × Nat)

namespace Quoting

/-- The ways to write a character. -/
inductive Spells (quoting : Quoting) : Char → List Char → Prop
  | plain {c : Char} : quoting.plain c = true → Spells quoting c [c]
  | short {letter c : Char} : (letter, c) ∈ quoting.short → Spells quoting c ['\\', letter]
  | long {letter c : Char} {count : Nat} {digits : List Char} :
      (letter, count) ∈ quoting.long → digits.length = count →
      (∀ digit ∈ digits, isHexDigit digit = true) → ofDigits 16 digits = c.toNat →
      Spells quoting c ('\\' :: letter :: digits)

/-- The ways to write a text: each character in any way of its own. -/
inductive Writes (quoting : Quoting) : List Char → List Char → Prop
  | nil : Writes quoting [] []
  | cons {c : Char} {piece rest written : List Char} :
      Spells quoting c piece → Writes quoting rest written →
      Writes quoting (c :: rest) (piece ++ written)

end Quoting

theorem scalar?_toNat (c : Char) : scalar? c.toNat = some c := by
  have valid : c.toNat.isValidChar := c.valid
  rw [scalar?, if_pos valid, Char.ofNat_toNat]

/-- The digits of a number in base sixteen, filled up with zeros. -/
def hexDigits (count n : Nat) : List Char :=
  List.replicate (count - (Nat.toDigits 16 n).length) '0' ++ Nat.toDigits 16 n

theorem length_hexDigits {count n : Nat} (some : 0 < count) (small : n < 16 ^ count) :
    (hexDigits count n).length = count := by
  have fits := (Nat.length_toDigits_le_iff (by decide) some).mpr small
  rw [hexDigits, List.length_append, List.length_replicate]
  omega

theorem isHexDigit_hexDigits {count n : Nat} {c : Char} (member : c ∈ hexDigits count n) :
    isHexDigit c = true := by
  rcases List.mem_append.mp member with zero | digit
  · rw [List.eq_of_mem_replicate zero]
    rfl
  · exact isHexDigit_toDigits digit

theorem ofDigits_hexDigits (count n : Nat) : ofDigits 16 (hexDigits count n) = n := by
  rw [hexDigits, ofDigits_replicate_zero_append, ofDigits_toDigits (by decide) (by decide)]

namespace Quoting

theorem spells_hexDigits {quoting : Quoting} {letter : Char} {count : Nat}
    (known : (letter, count) ∈ quoting.long) (some : 0 < count) {c : Char}
    (small : c.toNat < 16 ^ count) :
    quoting.Spells c ('\\' :: letter :: hexDigits count c.toNat) :=
  .long known (length_hexDigits some small) (fun _ => isHexDigit_hexDigits) (ofDigits_hexDigits _ _)

/-- Eight digits are enough for every character. -/
theorem exists_writes {quoting : Quoting} (known : ('U', 8) ∈ quoting.long) (text : List Char) :
    ∃ written, quoting.Writes text written := by
  induction text with
  | nil => exact ⟨[], .nil⟩
  | cons c rest ih =>
      obtain ⟨written, writes⟩ := ih
      have small : c.toNat < 16 ^ 8 := by
        have bound := c.val.toNat_lt
        exact bound
      exact ⟨_, .cons (spells_hexDigits known (by decide) small) writes⟩

/-- A quote that does not stand for itself is not at the start of a text. -/
theorem Writes.head_ne_quote {quoting : Quoting} (marked : quoting.plain '"' = false)
    {text written : List Char} (writes : quoting.Writes text written) :
    written.head? ≠ some '"' := by
  cases writes with
  | nil => simp
  | cons spells _ =>
      cases spells with
      | plain own =>
          rintro ⟨⟩
          rw [marked] at own
          cases own
      | short => simp
      | long => simp

end Quoting

/-- Characters of words. -/
def isLetter (c : Char) : Bool := c.isLower || c == '_'

/-- Words of small letters and underscores, which no format needs to quote. -/
structure Word (word : List Char) : Prop where
  some : word ≠ []
  letters : ∀ c ∈ word, isLetter c = true

theorem Word.exists_cons {word : List Char} (whole : Word word) :
    ∃ c rest, word = c :: rest ∧ isLetter c = true := by
  obtain ⟨c, rest, rfl⟩ := List.exists_cons_of_ne_nil whole.some
  exact ⟨c, rest, rfl, whole.letters c (by simp)⟩

theorem ne_of_isLetter {c : Char} (letter : isLetter c = true) (mark : Char)
    (other : isLetter mark = false) : c ≠ mark := by
  rintro rfl
  rw [letter] at other
  cases other

end Respell.Text
