import Respell.Proofs.Digits
import Respell.Proofs.ShortestDecimal
import Respell.Render.Number

/-!
Texts of floats. A finite float is written with the digits of its shortest decimal: with a point
among them and a digit at both sides of it, or with a point after the first one and an exponent.
Either text denotes exactly that decimal.
-/

set_option autoImplicit false

namespace Respell.Text.Numeral

variable {digits : List Char} {n : Nat}

theorem append_zeros (numeral : Numeral 10 digits n) (count : Nat) :
    Numeral 10 (digits ++ List.replicate count '0') (n * 10 ^ count) := by
  induction count with
  | zero => simpa using numeral
  | succ count ih =>
      have zero : '0' = Nat.digitChar 0 ∨ '0' = (Nat.digitChar 0).toUpper := .inl rfl
      have longer := ih.concat (by decide) zero
      rw [List.append_assoc, ← List.replicate_succ'] at longer
      convert longer using 1
      ring

theorem zeros_append (numeral : Numeral 10 digits n) (count : Nat) :
    Numeral 10 (List.replicate count '0' ++ digits) n := by
  induction numeral with
  | nil => simpa using Numeral.nil.append_zeros count
  | concat _ small written ih =>
      rw [← List.append_assoc]
      exact ih.concat small written

/-- Decimal digits denote what they are read as. -/
theorem of_isDigit (all : ∀ c ∈ digits, c.isDigit = true) :
    Numeral 10 digits (ofDigits 10 digits) := by
  obtain ⟨n, numeral⟩ := exists_numeral fun c member => isDigitOf_of_isDigit (all c member)
  rwa [numeral.ofDigits_eq (by decide)]

theorem isDigit (numeral : Numeral 10 digits n) : ∀ c ∈ digits, c.isDigit = true :=
  numeral.forall_mem (by decide)

end Respell.Text.Numeral

namespace Respell.Render

open Respell.Text

/-! ### Forms of texts -/

/-- Digits with the point after the first one; a single digit has no point. -/
def mantissa : List Char → List Char
  | first :: second :: rest => first :: '.' :: second :: rest
  | digits => digits

/-- The number that digits denote with the point after the first one and a power of ten. -/
def scientificValue (digits : List Char) (n : Nat) (exponent : Int) : ℚ :=
  n * 10 ^ (exponent + 1 - digits.length)

/-- Texts of digits with a point among them, each with the number that it denotes. Only a single zero
comes first in the whole part or last in the fraction. -/
inductive PositionalText : List Char → ℚ → Prop
  | mk {whole fraction : List Char} {n : Nat} : whole ≠ [] → fraction ≠ [] →
      Numeral 10 (whole ++ fraction) n → (whole.head? = some '0' → whole = ['0']) →
      (fraction.getLast? = some '0' → fraction = ['0']) →
      PositionalText (whole ++ '.' :: fraction) (n * 10 ^ (-fraction.length : ℤ))

/-- Texts of digits with a point after the first one and an exponent, which has a sign and at least
two digits. -/
inductive ScientificText : List Char → List Char → Int → Prop
  | mk {digits exponentDigits : List Char} {exponent : Int} : 2 ≤ exponentDigits.length →
      (3 ≤ exponentDigits.length → exponentDigits.head? ≠ some '0') →
      Numeral 10 exponentDigits exponent.natAbs →
      ScientificText
        (mantissa digits ++ 'e' :: (if exponent < 0 then '-' else '+') :: exponentDigits)
        digits exponent

/-- What a text of a float denotes. -/
inductive DenotesNumber : List Char → ℚ → Prop
  | positional {text : List Char} {x : ℚ} : PositionalText text x → DenotesNumber text x
  | scientific {text digits : List Char} {n : Nat} {exponent : Int} : digits ≠ [] →
      Numeral 10 digits n → ScientificText text digits exponent →
      DenotesNumber text (scientificValue digits n exponent)
  | negative {text : List Char} {x : ℚ} : DenotesNumber text x → DenotesNumber ('-' :: text) (-x)

/-- The digits of the shortest decimal of a pattern, the number they denote, and the exponent of the
first one. No zero comes first, except for zero itself. -/
structure ShortestForm (bits : Nat) (digits : List Char) (n : Nat) (exponent : Int) : Prop where
  nonempty : digits ≠ []
  numeral : Numeral 10 digits n
  leading : digits.head? = some '0' → digits = ['0'] ∧ exponent = 0
  shortest : Decimal.Shortest bits digits.length (scientificValue digits n exponent)

/-! ### Leading digits -/

theorem head?_toDigits {n : Nat} (positive : 0 < n) : (Nat.toDigits 10 n).head? ≠ some '0' := by
  induction n using Nat.strongRecOn with
  | ind n ih =>
      rw [Nat.toDigits_eq_if (by decide)]
      split
      next small => interval_cases n <;> decide
      next large =>
        rw [List.head?_append_of_ne_nil _ Nat.toDigits_ne_nil]
        exact ih (n / 10) (by omega) (by omega)

/-- The digits of a number are its leading ones, which end in no zero, and zeros. -/
theorem toDigits_eq_leadingDigits {n : Nat} (positive : 0 < n) :
    ∃ zeros, Nat.toDigits 10 n = leadingDigits n ++ List.replicate zeros '0' ∧
      leadingDigits n ≠ [] ∧ (leadingDigits n).getLast? ≠ some '0' := by
  have whole := List.takeWhile_append_dropWhile (p := (· == '0')) (l := (Nat.toDigits 10 n).reverse)
  have last := @List.head?_dropWhile_not Char (· == '0') (Nat.toDigits 10 n).reverse
  have zeros : (Nat.toDigits 10 n).reverse.takeWhile (· == '0') =
      List.replicate ((Nat.toDigits 10 n).reverse.takeWhile (· == '0')).length '0' :=
    List.eq_replicate_of_mem fun c member => by simpa using List.mem_takeWhile_imp member
  have value := ofDigits_toDigits (by decide : 1 < 10) (by decide) n
  unfold leadingDigits
  generalize (Nat.toDigits 10 n).reverse.takeWhile (· == '0') = dropped at *
  generalize (Nat.toDigits 10 n).reverse.dropWhile (· == '0') = kept at *
  have parts : Nat.toDigits 10 n = kept.reverse ++ List.replicate dropped.length '0' := by
    rw [← List.reverse_reverse (Nat.toDigits 10 n), ← whole, List.reverse_append, zeros]
    simp
  cases kept with
  | nil =>
      have zero := ofDigits_replicate_zero_append 10 dropped.length []
      rw [parts] at value
      simp only [List.reverse_nil, List.nil_append, List.append_nil] at value zero
      rw [zero] at value
      exact absurd value.symm positive.ne'
  | cons c rest =>
      have nonempty : (c :: rest).reverse ≠ [] := by simp
      split
      next none => exact absurd none nonempty
      next =>
        refine ⟨dropped.length, parts, nonempty, ?_⟩
        simpa using last

theorem length_leadingDigits_le {n count : Nat} (positive : 0 < n) (bounded : n ≤ 10 ^ (count + 1)) :
    (leadingDigits n).length ≤ count + 1 := by
  obtain ⟨zeros, whole, nonempty, last⟩ := toDigits_eq_leadingDigits positive
  have length : (Nat.toDigits 10 n).length = (leadingDigits n).length + zeros := by
    rw [whole, List.length_append, List.length_replicate]
  rcases Nat.lt_or_eq_of_le bounded with less | power
  · have short : (Nat.toDigits 10 n).length ≤ count + 1 :=
      (Nat.length_toDigits_le_iff (by decide) (by omega)).mpr less
    omega
  · -- a power of ten has one digit more, which is a zero
    have short : (Nat.toDigits 10 n).length ≤ count + 2 := by
      refine (Nat.length_toDigits_le_iff (by decide) (by omega)).mpr ?_
      rw [power]
      exact Nat.pow_lt_pow_right (by decide) (by omega)
    have some_zero : zeros ≠ 0 := by
      rintro rfl
      have ending : Nat.toDigits 10 n = Nat.toDigits 10 (n / 10) ++ ['0'] := by
        have large : ¬n < 10 := by
          rw [power, Nat.pow_succ]
          have := Nat.pow_pos (n := count) (by decide : 0 < 10)
          omega
        have rest : n % 10 = 0 := by
          rw [power, Nat.pow_succ]
          exact Nat.mul_mod_left ..
        rw [Nat.toDigits_eq_if (by decide), if_neg large, rest]
        rfl
      rw [List.replicate_zero, List.append_nil] at whole
      rw [← whole, ending] at last
      simp at last
    omega

/-! ### Texts of magnitudes -/

section Texts

variable {digits : List Char} {n : Nat}

/-- With a negative exponent all digits stand after the point. -/
theorem positional_of_neg {exponent : Int} (negative : exponent < 0) :
    positional digits exponent =
      ['0'] ++ '.' :: (List.replicate ((-exponent).toNat - 1) '0' ++ digits) := by
  rw [positional, if_pos negative]
  rfl

/-- With few digits all of them stand before the point. -/
theorem positional_of_short {exponent : Nat} (short : digits.length ≤ exponent + 1) :
    positional digits exponent =
      (digits ++ List.replicate (exponent + 1 - digits.length) '0') ++ '.' :: ['0'] := by
  rw [positional, if_neg (by omega)]
  simp [List.take_of_length_le short, List.drop_eq_nil_of_le short]

theorem positional_of_long {exponent : Nat} (long : exponent + 1 < digits.length) :
    positional digits exponent =
      digits.take (exponent + 1) ++ '.' :: digits.drop (exponent + 1) := by
  have none : exponent + 1 - digits.length = 0 := by omega
  rw [positional, if_neg (by omega)]
  simp [none, Nat.not_le.mpr long]

theorem positionalText_of_neg (numeral : Numeral 10 digits n) (nonempty : digits ≠ [])
    (last : digits.getLast? ≠ some '0') {exponent : Int} (negative : exponent < 0) :
    PositionalText (positional digits exponent) (scientificValue digits n exponent) := by
  rw [positional_of_neg negative]
  have whole : Numeral 10 (['0'] ++ (List.replicate ((-exponent).toNat - 1) '0' ++ digits)) n :=
    numeral.zeros_append ((-exponent).toNat - 1 + 1)
  convert PositionalText.mk (by simp) (by simp [nonempty]) whole (fun _ => rfl) ?_ using 1
  · rw [scientificValue, List.length_append, List.length_replicate]
    congr 2
    omega
  · intro zero
    rw [List.getLast?_append_of_ne_nil _ nonempty] at zero
    exact absurd zero last

theorem positionalText_of_short (numeral : Numeral 10 digits n) (nonempty : digits ≠ [])
    (first : digits.head? ≠ some '0') {exponent : Nat} (short : digits.length ≤ exponent + 1) :
    PositionalText (positional digits exponent) (scientificValue digits n exponent) := by
  rw [positional_of_short short]
  have whole := numeral.append_zeros (exponent + 1 - digits.length + 1)
  rw [List.replicate_succ', ← List.append_assoc] at whole
  convert PositionalText.mk (by simp [nonempty]) (by simp) whole ?_ (fun _ => rfl) using 1
  · have places : (exponent + 1 - digits.length : ℤ) = (exponent + 1 - digits.length : ℕ) := by
      omega
    rw [scientificValue, places, zpow_natCast, List.length_singleton, Nat.cast_one, pow_succ]
    push_cast
    rw [mul_assoc, mul_assoc, ← zpow_one_add₀ (by norm_num)]
    norm_num
  · intro zero
    rw [List.head?_append_of_ne_nil _ nonempty] at zero
    exact absurd zero first

theorem positionalText_of_long (numeral : Numeral 10 digits n) (first : digits.head? ≠ some '0')
    (last : digits.getLast? ≠ some '0') {exponent : Nat} (long : exponent + 1 < digits.length) :
    PositionalText (positional digits exponent) (scientificValue digits n exponent) := by
  rw [positional_of_long long]
  have nonempty : digits ≠ [] := List.ne_nil_of_length_pos (by omega)
  rw [← List.take_append_drop (exponent + 1) digits] at numeral
  convert PositionalText.mk ?_ ?_ numeral ?_ ?_ using 1
  · rw [scientificValue, List.length_drop]
    congr 2
    omega
  · simp [nonempty]
  · simpa using long
  · intro zero
    rw [List.head?_take, if_neg (by omega)] at zero
    exact absurd zero first
  · intro zero
    rw [List.getLast?_drop, if_neg (by omega)] at zero
    exact absurd zero last

theorem positionalText_positional (numeral : Numeral 10 digits n) (nonempty : digits ≠ [])
    (first : digits.head? ≠ some '0') (last : digits.getLast? ≠ some '0') (exponent : Int) :
    PositionalText (positional digits exponent) (scientificValue digits n exponent) := by
  by_cases negative : exponent < 0
  · exact positionalText_of_neg numeral nonempty last negative
  · lift exponent to ℕ using by omega
    by_cases short : digits.length ≤ exponent + 1
    · exact positionalText_of_short numeral nonempty first short
    · exact positionalText_of_long numeral first last (by omega)

theorem scientificText_scientific (digits : List Char) (exponent : Int) :
    ScientificText (scientific digits exponent) digits exponent := by
  have shape : scientific digits exponent = mantissa digits ++ 'e' ::
      (if exponent < 0 then '-' else '+') ::
        (List.replicate (2 - (Nat.toDigits 10 exponent.natAbs).length) '0' ++
          Nat.toDigits 10 exponent.natAbs) := by
    rcases digits with _ | ⟨first, _ | ⟨second, rest⟩⟩ <;> rfl
  rw [shape]
  refine .mk ?_ ?_ ?_
  · simp
    omega
  · intro long
    simp only [List.length_append, List.length_replicate] at long
    have full : 2 - (Nat.toDigits 10 exponent.natAbs).length = 0 := by omega
    have nonzero : 0 < exponent.natAbs := by
      rw [Nat.pos_iff_ne_zero]
      intro zero
      rw [zero] at long
      simp at long
    rw [full]
    exact head?_toDigits nonzero
  · exact (Numeral.of_toDigits (by decide) _).zeros_append _

end Texts

/-! ### Texts of floats -/

/-- What the search finds is the shortest form, once the zeros at its end are left out. -/
theorem shortestForm_shortest {bits : Nat} (positive : 0 < bits) (finite : bits < Decimal.infinity) :
    0 < (Decimal.shortest bits).1 ∧
      ShortestForm bits (leadingDigits (Decimal.shortest bits).1)
        (ofDigits 10 (leadingDigits (Decimal.shortest bits).1))
        ((Decimal.shortest bits).2 + (Nat.toDigits 10 (Decimal.shortest bits).1).length - 1) := by
  obtain ⟨count, some_digit, bounded, shortest⟩ := Decimal.shortest_spec positive finite
  generalize Decimal.shortest bits = decimal at *
  obtain ⟨n, lowest⟩ := decimal
  dsimp only at *
  obtain ⟨zeros, whole, nonempty, -⟩ := toDigits_eq_leadingDigits some_digit
  have digits : ∀ c ∈ leadingDigits n, c.isDigit = true := by
    intro c member
    refine Nat.isDigit_of_mem_toDigits (b := 10) (n := n) (by decide) (by decide) ?_
    rw [whole]
    exact List.mem_append_left _ member
  have numeral := Numeral.of_isDigit digits
  have value : n = ofDigits 10 (leadingDigits n) * 10 ^ zeros := by
    rw [← (numeral.append_zeros zeros).ofDigits_eq (by decide), ← whole,
      ofDigits_toDigits (by decide) (by decide)]
  refine ⟨some_digit, nonempty, numeral, ?_, ?_⟩
  · intro zero
    have first := head?_toDigits some_digit
    rw [whole, List.head?_append_of_ne_nil _ nonempty] at first
    exact absurd zero first
  · have length : (Nat.toDigits 10 n).length = (leadingDigits n).length + zeros := by
      rw [whole, List.length_append, List.length_replicate]
    have exponent : (lowest + (Nat.toDigits 10 n).length - 1 + 1 - (leadingDigits n).length : ℤ) =
        zeros + lowest := by omega
    convert shortest _ (length_leadingDigits_le some_digit bounded) using 1
    rw [scientificValue, exponent, zpow_add₀ (by norm_num), zpow_natCast, ← mul_assoc]
    congr 1
    exact_mod_cast value.symm

/-- The text of a magnitude has the digits of its shortest form. -/
theorem magnitudeText_spec {bits : Nat} (finite : bits < Decimal.infinity) :
    ∃ digits n exponent, ShortestForm bits digits n exponent ∧
      (-4 ≤ exponent ∧ exponent < 16 →
        PositionalText (magnitudeText bits) (scientificValue digits n exponent)) ∧
      (¬(-4 ≤ exponent ∧ exponent < 16) → ScientificText (magnitudeText bits) digits exponent) := by
  rw [magnitudeText]
  rcases Nat.eq_zero_or_pos bits with rfl | positive
  · have zero : Numeral 10 ['0'] 0 := Numeral.of_toDigits (by decide) 0
    have none : (Decimal.units 0 == 0) = true := by
      rw [Decimal.units_eq]
      rfl
    have value : scientificValue ['0'] 0 0 = 0 := by simp [scientificValue]
    refine ⟨['0'], 0, 0, ⟨by simp, zero, fun _ => ⟨rfl, rfl⟩, ?_⟩, fun _ => ?_,
      fun outside => absurd (by decide) outside⟩
    · rw [value]
      exact Decimal.shortest_zero
    · have both : Numeral 10 (['0'] ++ ['0']) 0 := zero.append_zeros 1
      have text := PositionalText.mk (by simp) (by simp) both (fun _ => rfl) fun _ => rfl
      rw [Nat.cast_zero, zero_mul] at text
      rw [if_pos none, value]
      exact text
  · have unsigned := Nat.lt_trans finite Decimal.infinity_lt_signBit
    have some_units : ¬(Decimal.units bits == 0) = true := by
      simpa using (Decimal.units_pos positive unsigned).ne'
    obtain ⟨some_digit, form⟩ := shortestForm_shortest positive finite
    rw [if_neg some_units]
    generalize Decimal.shortest bits = decimal at *
    obtain ⟨n, lowest⟩ := decimal
    dsimp only at *
    refine ⟨_, _, _, form, fun inside => ?_, fun outside => ?_⟩
    · obtain ⟨zeros, whole, nonempty, last⟩ := toDigits_eq_leadingDigits some_digit
      have first := head?_toDigits some_digit
      rw [whole, List.head?_append_of_ne_nil _ nonempty] at first
      rw [if_pos (by simpa using inside)]
      exact positionalText_positional form.numeral nonempty first last _
    · rw [if_neg (by simpa using outside)]
      exact scientificText_scientific ..

theorem magnitudeText_mod (bits : Nat) :
    magnitudeText (bits % Decimal.signBit) = magnitudeText bits := by
  rw [magnitudeText, magnitudeText, Decimal.units_mod, Decimal.shortest_mod]

theorem toList_floatText {pattern : UInt64} (finite : Decimal.isFinite pattern.toNat = true) :
    (floatText pattern).toList = (if Decimal.isNegative pattern.toNat then ['-'] else []) ++
      magnitudeText (pattern.toNat % Decimal.signBit) := by
  unfold floatText
  dsimp only
  rw [if_pos finite, String.toList_ofList, magnitudeText_mod]

end Respell.Render
