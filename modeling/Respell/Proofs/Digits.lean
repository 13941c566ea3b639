import Mathlib
import Respell.Text.Digits

/-!
Digits read back. The digits of a number in a base up to sixteen denote that number, with or without
zeros before them, and whatever the case of its letters.
-/

set_option autoImplicit false

namespace Respell.Text

theorem digitValue_digitChar {digit : Nat} (small : digit < 16) :
    digitValue digit.digitChar = digit := by
  interval_cases digit <;> rfl

theorem isHexDigit_digitChar {digit : Nat} (small : digit < 16) :
    isHexDigit digit.digitChar = true := by
  interval_cases digit <;> rfl

theorem digitValue_toUpper_digitChar {digit : Nat} (small : digit < 16) :
    digitValue digit.digitChar.toUpper = digit := by
  interval_cases digit <;> rfl

theorem ofDigits_append_singleton (base : Nat) (digits : List Char) (last : Char) :
    ofDigits base (digits ++ [last]) = ofDigits base digits * base + digitValue last := by
  rw [ofDigits, List.foldl_append]
  rfl

/-- The digits of a number denote it. -/
theorem ofDigits_toDigits {base : Nat} (several : 1 < base) (few : base ≤ 16) (n : Nat) :
    ofDigits base (Nat.toDigits base n) = n := by
  induction n using Nat.strongRecOn with
  | ind n ih =>
      rw [Nat.toDigits_eq_if several]
      split
      next small =>
        have value := digitValue_digitChar (Nat.lt_of_lt_of_le small few)
        rw [ofDigits, List.foldl_cons, List.foldl_nil, value, Nat.zero_mul, Nat.zero_add]
      next large =>
        have positive : 0 < n := by omega
        have below : n / base < n := Nat.div_lt_self positive several
        have last : n % base < base := Nat.mod_lt n (by omega)
        rw [ofDigits_append_singleton, ih (n / base) below, digitValue_digitChar (by omega),
          Nat.div_add_mod']

theorem isHexDigit_toDigits {n : Nat} {c : Char} (member : c ∈ Nat.toDigits 16 n) :
    isHexDigit c = true := by
  induction n using Nat.strongRecOn with
  | ind n ih =>
      rw [Nat.toDigits_eq_if (by decide)] at member
      split at member
      next small =>
        rw [List.mem_singleton.mp member]
        exact isHexDigit_digitChar small
      next large =>
        rcases List.mem_append.mp member with before | last
        · exact ih (n / 16) (by omega) before
        · rw [List.mem_singleton.mp last]
          exact isHexDigit_digitChar (Nat.mod_lt n (by decide))

/-- Zeros before digits change nothing. -/
theorem ofDigits_replicate_zero_append (base count : Nat) (digits : List Char) :
    ofDigits base (List.replicate count '0' ++ digits) = ofDigits base digits := by
  induction count with
  | zero => rfl
  | succ count ih =>
      rw [List.replicate_succ, List.cons_append, ← ih]
      simp [ofDigits, digitValue]

/-- Digits that are all of a base are read as the number that they denote. -/
theorem number?_eq_some {base : Nat} {isDigit : Char → Bool} {digits : List Char}
    (nonempty : digits ≠ []) (all : ∀ c ∈ digits, isDigit c = true) :
    number? base isDigit digits = some (ofDigits base digits) := by
  have pass : digits.all isDigit = true := List.all_eq_true.mpr all
  simp [number?, nonempty, pass]

/-- The decimal digits of a number are read as that number. -/
theorem number?_toDigits (n : Nat) : number? 10 Char.isDigit (Nat.toDigits 10 n) = some n := by
  rw [number?_eq_some Nat.toDigits_ne_nil, ofDigits_toDigits (by decide) (by decide)]
  intro c member
  exact Nat.isDigit_of_mem_toDigits (by decide) (by decide) member

/-- Hexadecimal digits of a number, zeros before them, are read as that number. -/
theorem number?_hex (count n : Nat) :
    number? 16 isHexDigit (List.replicate count '0' ++ Nat.toDigits 16 n) = some n := by
  rw [number?_eq_some, ofDigits_replicate_zero_append, ofDigits_toDigits (by decide) (by decide)]
  · simp [Nat.toDigits_ne_nil]
  · intro c member
    rcases List.mem_append.mp member with zero | digit
    · rw [List.eq_of_mem_replicate zero]
      rfl
    · exact isHexDigit_toDigits digit

/-! ### Numerals -/

/-- Digits of a base, the first one worth the most, and the number that they denote. The digits from
ten on are letters of either case. -/
inductive Numeral (base : Nat) : List Char → Nat → Prop
  | nil : Numeral base [] 0
  | concat {digits : List Char} {n digit : Nat} {c : Char} : Numeral base digits n → digit < base →
      c = digit.digitChar ∨ c = digit.digitChar.toUpper →
      Numeral base (digits ++ [c]) (base * n + digit)

/-- Whether a character is a digit of a base, in either case. -/
def IsDigitOf (base : Nat) (c : Char) : Prop :=
  ∃ digit < base, c = digit.digitChar ∨ c = digit.digitChar.toUpper

theorem isDigitOf_of_decimal {c : Char} {base : Nat} (least : 48 ≤ c.toNat)
    (most : c.toNat < 48 + base) (few : base ≤ 10) : IsDigitOf base c := by
  have back : c = Char.ofNat c.toNat := (Char.ofNat_toNat c).symm
  generalize c.toNat = n at least most back
  subst back
  refine ⟨n - 48, by omega, .inl ?_⟩
  have decimal : n < 58 := by omega
  interval_cases n <;> rfl

theorem isDigitOf_of_isHexDigit {c : Char} (hex : isHexDigit c = true) : IsDigitOf 16 c := by
  simp only [isHexDigit, Char.isDigit, Bool.or_eq_true, Bool.and_eq_true, decide_eq_true_eq,
    Char.le_def, UInt32.le_iff_toNat_le] at hex
  have back : c = Char.ofNat c.toNat := (Char.ofNat_toNat c).symm
  rcases hex with (⟨least, most⟩ | ⟨least, most⟩) | ⟨least, most⟩
  · change 48 ≤ c.toNat at least
    change c.toNat ≤ 57 at most
    obtain ⟨digit, small, written⟩ := isDigitOf_of_decimal least (Nat.lt_succ_of_le most) le_rfl
    exact ⟨digit, by omega, written⟩
  · change 97 ≤ c.toNat at least
    change c.toNat ≤ 102 at most
    generalize c.toNat = n at least most back
    subst back
    exact ⟨n - 87, by omega, .inl (by interval_cases n <;> rfl)⟩
  · change 65 ≤ c.toNat at least
    change c.toNat ≤ 70 at most
    generalize c.toNat = n at least most back
    subst back
    exact ⟨n - 55, by omega, .inr (by interval_cases n <;> rfl)⟩

theorem isDigitOf_of_isDigit {c : Char} (digit : c.isDigit = true) : IsDigitOf 10 c := by
  simp only [Char.isDigit, Bool.and_eq_true, decide_eq_true_eq, UInt32.le_iff_toNat_le] at digit
  exact isDigitOf_of_decimal digit.1 (Nat.lt_succ_of_le digit.2) le_rfl

theorem isDigitOf_of_isOctalDigit {c : Char} (digit : isOctalDigit c = true) : IsDigitOf 8 c := by
  simp only [isOctalDigit, Bool.and_eq_true, decide_eq_true_eq, Char.le_def,
    UInt32.le_iff_toNat_le] at digit
  exact isDigitOf_of_decimal digit.1 (Nat.lt_succ_of_le digit.2) (by decide)

theorem isDigitOf_of_isBinaryDigit {c : Char} (digit : isBinaryDigit c = true) : IsDigitOf 2 c := by
  simp only [isBinaryDigit, Bool.or_eq_true, beq_iff_eq] at digit
  rcases digit with rfl | rfl
  · exact ⟨0, by decide, .inl rfl⟩
  · exact ⟨1, by decide, .inl rfl⟩

namespace Numeral

variable {base n : Nat} {digits : List Char}

theorem ofDigits_eq (few : base ≤ 16) (numeral : Numeral base digits n) :
    ofDigits base digits = n := by
  induction numeral with
  | nil => rfl
  | @concat digits n digit c _ small written ih =>
      have value : digitValue c = digit := by
        rcases written with rfl | rfl
        · exact digitValue_digitChar (by omega)
        · exact digitValue_toUpper_digitChar (by omega)
      rw [ofDigits_append_singleton, ih, value, Nat.mul_comm]

theorem forall_mem {property : Char → Prop}
    (each : ∀ digit < base, property digit.digitChar ∧ property digit.digitChar.toUpper)
    (numeral : Numeral base digits n) : ∀ c ∈ digits, property c := by
  induction numeral with
  | nil => simp
  | concat _ small written ih =>
      intro c member
      rcases List.mem_append.mp member with before | last
      · exact ih c before
      · rw [List.mem_singleton.mp last]
        rcases written with rfl | rfl
        · exact (each _ small).1
        · exact (each _ small).2

/-- What is written for a number denotes it. -/
theorem of_toDigits (several : 1 < base) (n : Nat) : Numeral base (Nat.toDigits base n) n := by
  induction n using Nat.strongRecOn with
  | ind n ih =>
      rw [Nat.toDigits_eq_if several]
      split
      next small =>
        have single := Numeral.nil.concat small (.inl rfl)
        rwa [Nat.mul_zero, Nat.zero_add] at single
      next large =>
        have below : n / base < n := Nat.div_lt_self (by omega) several
        have last : n % base < base := Nat.mod_lt n (by omega)
        have whole := (ih (n / base) below).concat last (.inl rfl)
        rwa [Nat.div_add_mod] at whole

/-- Digits of a base denote a number. -/
theorem exists_numeral (all : ∀ c ∈ digits, IsDigitOf base c) : ∃ n, Numeral base digits n := by
  induction digits using List.reverseRecOn with
  | nil => exact ⟨0, .nil⟩
  | append_singleton digits c ih =>
      obtain ⟨n, numeral⟩ := ih fun d member => all d (List.mem_append_left _ member)
      obtain ⟨digit, small, written⟩ := all c (by simp)
      exact ⟨_, numeral.concat small written⟩

end Numeral

end Respell.Text
