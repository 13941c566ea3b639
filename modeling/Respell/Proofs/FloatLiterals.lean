import Respell.Proofs.FloatTexts
import Respell.Proofs.IntegerLiterals

/-!
Floats in a source text. What is written for a float that is not negative is one token, that of a
float, and it is read as the pattern it was written for.
-/

set_option autoImplicit false

namespace Respell.Source

open Respell.Text
open Respell.Render (DenotesNumber PositionalText ScientificText ShortestForm scientificValue
  floatText)
open Respell.Syntax (Constant Expr)

/-! ### Parts of a literal -/

/-- What may follow the digits of a float, and the power of ten that it stands for. -/
inductive Ending : List Char → Int → Prop
  | none : Ending [] 0
  | exponent {digits : List Char} {power : Int} : digits ≠ [] → Numeral 10 digits power.natAbs →
      Ending ('e' :: (if power < 0 then '-' else '+') :: digits) power

namespace Ending

variable {tail : List Char} {power : Int}

theorem digitRunFrom_eq_zero (ending : Ending tail power) (after : Bool) :
    digitRunFrom after tail = 0 := by
  cases ending <;> rfl

theorem takeWhile_isDigit (ending : Ending tail power) : tail.takeWhile Char.isDigit = [] := by
  cases ending <;> rfl

theorem dropWhile_isDigit (ending : Ending tail power) : tail.dropWhile Char.isDigit = tail := by
  cases ending <;> rfl

theorem exponentLength_eq (ending : Ending tail power) : exponentLength tail = tail.length := by
  cases ending with
  | none => rfl
  | @exponent digits power nonempty numeral =>
      have run : digitRun digits = digits.length := by
        have all := digitRunFrom_digits numeral.isDigit nonempty false []
        rw [List.append_nil] at all
        exact all
      have sign : suffixLength ['+', '-'] ((if power < 0 then '-' else '+') :: digits) = 1 := by
        split <;> rfl
      simp only [exponentLength, sign, List.drop_succ_cons, List.drop_zero, run]
      simp [nonempty]
      omega

theorem readExponent?_eq (ending : Ending tail power) : readExponent? tail = some power := by
  cases ending with
  | none => rfl
  | @exponent digits power nonempty numeral =>
      have value : number? 10 Char.isDigit digits = some power.natAbs := by
        rw [number?_eq_some nonempty numeral.isDigit, numeral.ofDigits_eq (by decide)]
      split
      next negative =>
        have back : -(power.natAbs : ℤ) = power := by omega
        simp only [readExponent?, value, Option.map_some, Int.ofNat_eq_natCast, back]
        rfl
      next positive =>
        have back : (power.natAbs : ℤ) = power := by omega
        simp only [readExponent?, value, Option.map_some, Int.ofNat_eq_natCast, back]
        rfl

theorem forall_mem (ending : Ending tail power) {property : Char → Prop}
    (digits : ∀ digit < 10, property digit.digitChar ∧ property digit.digitChar.toUpper)
    (letter : property 'e') (minus : property '-') (plus : property '+') :
    ∀ c ∈ tail, property c := by
  cases ending with
  | none => simp
  | exponent _ numeral =>
      have inside := numeral.forall_mem digits
      split <;> simpa [letter, minus, plus] using inside

end Ending

/-- The texts of floats, each with its digits and its power of ten: there is a point among the digits,
or an exponent after them. -/
inductive FloatLiteral : List Char → Nat → Int → Prop
  | pointed {whole fraction tail : List Char} {n : Nat} {power : Int} : whole ≠ [] → fraction ≠ [] →
      Numeral 10 (whole ++ fraction) n → Ending tail power →
      FloatLiteral (whole ++ '.' :: (fraction ++ tail)) n (power - fraction.length)
  | bare {digits tail : List Char} {n : Nat} {power : Int} : digits ≠ [] → Numeral 10 digits n →
      Ending tail power → tail ≠ [] → FloatLiteral (digits ++ tail) n power

namespace FloatLiteral

variable {text : List Char} {n : Nat} {power : Int}

theorem of_positionalText {x : ℚ} (written : PositionalText text x) :
    ∃ n power, FloatLiteral text n power ∧ x = n * 10 ^ power := by
  obtain ⟨some_whole, some_fraction, numeral, -, -⟩ := written
  have literal := pointed some_whole some_fraction numeral .none
  rw [List.append_nil, zero_sub] at literal
  exact ⟨_, _, literal, rfl⟩

theorem of_scientificText {digits : List Char} {exponent : Int} (nonempty : digits ≠ [])
    (numeral : Numeral 10 digits n) (written : ScientificText text digits exponent) :
    FloatLiteral text n (exponent + 1 - digits.length) := by
  obtain ⟨long, -, power⟩ := written
  have ending := Ending.exponent (List.ne_nil_of_length_pos (by omega)) power
  rcases digits with _ | ⟨first, _ | ⟨second, rest⟩⟩
  · exact absurd rfl nonempty
  · convert bare nonempty numeral ending (List.cons_ne_nil _ _) using 1
    · rfl
    · simp
  · convert pointed (List.cons_ne_nil first []) (List.cons_ne_nil second rest) numeral ending using 1
    · rfl
    · simp only [List.length_cons]
      omega

theorem forall_mem (written : FloatLiteral text n power) {property : Char → Prop}
    (digits : ∀ digit < 10, property digit.digitChar ∧ property digit.digitChar.toUpper)
    (point : property '.') (letter : property 'e') (minus : property '-') (plus : property '+') :
    ∀ c ∈ text, property c := by
  cases written with
  | pointed _ _ numeral ending =>
      have inside := numeral.forall_mem digits
      have after := ending.forall_mem digits letter minus plus
      simp only [List.mem_append, List.mem_cons] at inside ⊢
      grind
  | bare _ numeral ending =>
      have inside := numeral.forall_mem digits
      have after := ending.forall_mem digits letter minus plus
      simp only [List.mem_append]
      grind

theorem exists_first_digit (written : FloatLiteral text n power) :
    ∃ digit < 10, text.head? = some digit.digitChar := by
  have first {digits rest : List Char} (nonempty : digits ≠ [])
      (all : ∀ c ∈ digits, ∃ digit < 10, c = digit.digitChar) :
      ∃ digit < 10, (digits ++ rest).head? = some digit.digitChar := by
    obtain ⟨c, more, rfl⟩ := List.exists_cons_of_ne_nil nonempty
    obtain ⟨digit, small, rfl⟩ := all c (.head _)
    exact ⟨digit, small, rfl⟩
  cases written with
  | @pointed whole fraction tail n power some_whole some_fraction numeral ending =>
      have all : ∀ c ∈ whole ++ fraction, ∃ digit < 10, c = digit.digitChar :=
        numeral.forall_mem (by decide)
      exact first some_whole fun c member => all c (List.mem_append_left _ member)
  | bare some_digit numeral => exact first some_digit (numeral.forall_mem (by decide))

/-- A literal is one token, and that of a float. -/
theorem numeral?_eq (written : FloatLiteral text n power) :
    numeral? text = some (.float, text.length) := by
  have plain : basedLength text = 0 :=
    basedLength_of_decimal (written.forall_mem (by decide) rfl rfl rfl rfl)
  cases written with
  | @pointed whole fraction tail n power some_whole some_fraction numeral ending =>
      have before : digitRun (whole ++ '.' :: (fraction ++ tail)) = whole.length :=
        digitRunFrom_digits (fun c member => numeral.isDigit c (List.mem_append_left _ member))
          some_whole false _
      have after : digitRun (fraction ++ tail) = fraction.length := by
        rw [digitRun, digitRunFrom_digits (fun c member =>
          numeral.isDigit c (List.mem_append_right _ member)) some_fraction,
          ending.digitRunFrom_eq_zero, Nat.add_zero]
      have rest : fractionLength whole.length ('.' :: (fraction ++ tail)) =
          1 + fraction.length + tail.length := by
        simp [fractionLength, after, ending.exponentLength_eq, some_fraction, suffixLength]
      have some_rest : (1 + fraction.length + tail.length != 0) = true := by simp
      simp only [numeral?, plain, before, List.drop_left, rest, some_rest, bne_self_eq_false,
        Bool.false_eq_true, if_false, if_true, List.length_append, List.length_cons]
      congr 2
      omega
  | @bare digits tail n power some_digit numeral ending some_tail =>
      have before : digitRun (digits ++ tail) = digits.length := by
        rw [digitRun, digitRunFrom_digits numeral.isDigit some_digit, ending.digitRunFrom_eq_zero,
          Nat.add_zero]
      have rest : fractionLength digits.length tail = tail.length := by
        have length := ending.exponentLength_eq
        cases ending with
        | none => exact absurd rfl some_tail
        | exponent => simp [fractionLength, length, some_digit, suffixLength]
      simp [numeral?, plain, before, rest, some_tail]

/-- A literal has the value of its digits and its power of ten. -/
theorem floatParts?_eq (written : FloatLiteral text n power) :
    floatParts? text = some (n, power) := by
  have same : text.filter (· != '_') = text := by
    rw [List.filter_eq_self]
    exact written.forall_mem (by decide) rfl rfl rfl rfl
  rw [floatParts?, same]
  cases written with
  | @pointed whole fraction tail n power some_whole some_fraction numeral ending =>
      have before : ∀ c ∈ whole, c.isDigit = true := fun c member =>
        numeral.isDigit c (List.mem_append_left _ member)
      have after : ∀ c ∈ fraction, c.isDigit = true := fun c member =>
        numeral.isDigit c (List.mem_append_right _ member)
      have taken : (whole ++ '.' :: (fraction ++ tail)).takeWhile Char.isDigit = whole := by
        rw [List.takeWhile_append_of_pos before]
        simp
      have dropped : (whole ++ '.' :: (fraction ++ tail)).dropWhile Char.isDigit =
          '.' :: (fraction ++ tail) := by
        rw [List.dropWhile_append_of_pos before]
        rfl
      have part : (fraction ++ tail).takeWhile Char.isDigit = fraction := by
        rw [List.takeWhile_append_of_pos after, ending.takeWhile_isDigit, List.append_nil]
      have rest : (fraction ++ tail).dropWhile Char.isDigit = tail := by
        rw [List.dropWhile_append_of_pos after, ending.dropWhile_isDigit]
      simp only [taken, dropped, part, rest, ending.readExponent?_eq, Option.map_some,
        numeral.ofDigits_eq (by decide)]
  | @bare digits tail n power some_digit numeral ending some_tail =>
      have taken : (digits ++ tail).takeWhile Char.isDigit = digits := by
        rw [List.takeWhile_append_of_pos numeral.isDigit, ending.takeWhile_isDigit, List.append_nil]
      have dropped : (digits ++ tail).dropWhile Char.isDigit = tail := by
        rw [List.dropWhile_append_of_pos numeral.isDigit, ending.dropWhile_isDigit]
      have exponent := ending.readExponent?_eq
      cases ending with
      | none => exact absurd rfl some_tail
      | @exponent places power _ _ =>
          simp only [taken, dropped]
          change (readExponent? ('e' :: (if power < 0 then '-' else '+') :: places)).map
            (fun power => (ofDigits 10 (digits ++ []), power - 0)) = _
          rw [exponent, Option.map_some, List.append_nil, numeral.ofDigits_eq (by decide), sub_zero]

/-- A literal is read as the pattern that is nearest to its value. -/
theorem readFloat_eq (written : FloatLiteral text n power) {pattern : UInt64}
    (finite : pattern.toNat < Decimal.infinity)
    (nearest : Decimal.Nearest pattern.toNat (n * 10 ^ power)) : readFloat text = some pattern := by
  have covers := (Decimal.nearest_iff_covers finite (by positivity)).mp nearest
  rw [readFloat, written.floatParts?_eq, Option.map_some]
  dsimp only
  rw [Decimal.ofDecimal_of_covers finite covers, UInt64.ofNat_toNat]

end FloatLiteral

/-! ### Texts of floats -/

/-- A text of a float is a literal, or a minus sign before a text of a float. -/
theorem literal_or_negative {text : List Char} {x : ℚ} (denotes : DenotesNumber text x) :
    (∃ n power, FloatLiteral text n power ∧ x = n * 10 ^ power) ∨
      ∃ rest y, text = '-' :: rest ∧ DenotesNumber rest y ∧ x = -y := by
  cases denotes with
  | positional written => exact .inl (FloatLiteral.of_positionalText written)
  | scientific nonempty numeral written =>
      exact .inl ⟨_, _, .of_scientificText nonempty numeral written, rfl⟩
  | negative inner => exact .inr ⟨_, _, rfl, inner, rfl⟩

theorem FloatLiteral.unsigned {rest : List Char} {n : Nat} {power : Int} :
    ¬FloatLiteral ('-' :: rest) n power := by
  intro written
  obtain ⟨digit, small, starts⟩ := written.exists_first_digit
  interval_cases digit <;> cases starts

/-- A text denotes one number only. -/
theorem eq_of_denotes {text : List Char} {x y : ℚ} (first : DenotesNumber text x)
    (second : DenotesNumber text y) : x = y := by
  rcases literal_or_negative first with ⟨n, power, written, rfl⟩ | ⟨rest, x, rfl, inner, rfl⟩ <;>
    rcases literal_or_negative second with ⟨m, power', written', rfl⟩ | ⟨rest', y, same, inner', rfl⟩
  · have parts := written.floatParts?_eq.symm.trans written'.floatParts?_eq
    obtain ⟨rfl, rfl⟩ := Prod.mk.inj (Option.some.inj parts)
    rfl
  · subst same
    exact absurd written FloatLiteral.unsigned
  · exact absurd written' FloatLiteral.unsigned
  · obtain rfl := List.tail_eq_of_cons_eq same
    rw [eq_of_denotes inner inner']
termination_by text.length

/-- A literal whose value is nearest to a pattern is a module of that pattern. -/
theorem read_of_nearest {text : List Char} {n : Nat} {power : Int} {pattern : UInt64}
    (written : FloatLiteral text n power) (finite : pattern.toNat < Decimal.infinity)
    (nearest : Decimal.Nearest pattern.toNat (n * 10 ^ power)) :
    read (String.ofList text) = .ok ⟨[.expr (.constant (.float pattern))]⟩ := by
  refine read_of_numeral written.exists_first_digit written.numeral?_eq ?_
  rw [NumeralKind.tree, readExpr, written.readFloat_eq finite nearest]

theorem signed_denotes {text : List Char} {x : ℚ} (unsigned : DenotesNumber text x)
    (negative : Bool) :
    DenotesNumber ((if negative then ['-'] else []) ++ text) ((if negative then -1 else 1) * x) := by
  cases negative with
  | false => simpa using unsigned
  | true => simpa using unsigned.negative

theorem exists_floatText {pattern : UInt64} (finite : Decimal.isFinite pattern.toNat = true) :
    ∃ digits n exponent text, ShortestForm (pattern.toNat % Decimal.signBit) digits n exponent ∧
      (floatText pattern).toList =
          (if Decimal.isNegative pattern.toNat then ['-'] else []) ++ text ∧
        (-4 ≤ exponent ∧ exponent < 16 →
          PositionalText text (scientificValue digits n exponent)) ∧
        (¬(-4 ≤ exponent ∧ exponent < 16) → ScientificText text digits exponent) := by
  have within : pattern.toNat % Decimal.signBit < Decimal.infinity := by
    simpa [Decimal.isFinite] using finite
  obtain ⟨digits, n, exponent, form, small, large⟩ := Render.magnitudeText_spec within
  exact ⟨digits, n, exponent, _, form, Render.toList_floatText finite, small, large⟩

/-- A finite float is written with the digits of its shortest decimal, which its text denotes and
nothing else. The text has a point among the digits if the exponent is small, and an exponent
otherwise. Without a sign it is the token of a float, and is read as the float. -/
theorem floatText_shortest (pattern : UInt64) (finite : Decimal.isFinite pattern.toNat = true) :
    ∃ digits n exponent, ShortestForm (pattern.toNat % Decimal.signBit) digits n exponent ∧
      (∀ x, DenotesNumber (floatText pattern).toList x ↔
        x = (if Decimal.isNegative pattern.toNat then -1 else 1) *
          scientificValue digits n exponent) ∧
      (∃ text, (floatText pattern).toList =
          (if Decimal.isNegative pattern.toNat then ['-'] else []) ++ text ∧
        (-4 ≤ exponent ∧ exponent < 16 →
          PositionalText text (scientificValue digits n exponent)) ∧
        (¬(-4 ≤ exponent ∧ exponent < 16) → ScientificText text digits exponent)) ∧
      (∀ table, respellExpr table (.constant (.float pattern)) =
        (.rendered (floatText pattern), [])) ∧
      (Decimal.isNegative pattern.toNat = false →
        token (floatText pattern).toList =
          (.numeral .float (floatText pattern).toList, (floatText pattern).toList.length) ∧
        readFloat (floatText pattern).toList = some pattern ∧
        read (floatText pattern) = .ok ⟨[.expr (.constant (.float pattern))]⟩) := by
  obtain ⟨digits, n, exponent, text, form, signed, small, large⟩ := exists_floatText finite
  have literal : ∃ m power, FloatLiteral text m power ∧
      scientificValue digits n exponent = m * 10 ^ power := by
    by_cases inside : -4 ≤ exponent ∧ exponent < 16
    · exact FloatLiteral.of_positionalText (small inside)
    · exact ⟨n, _, .of_scientificText form.nonempty form.numeral (large inside), rfl⟩
  have unsigned : DenotesNumber text (scientificValue digits n exponent) := by
    by_cases inside : -4 ≤ exponent ∧ exponent < 16
    · exact .positional (small inside)
    · exact .scientific form.nonempty form.numeral (large inside)
  have denotes := signed_denotes unsigned (Decimal.isNegative pattern.toNat)
  refine ⟨digits, n, exponent, form, fun x => ?_, ⟨text, signed, small, large⟩, fun table => rfl,
    fun positive => ?_⟩
  · rw [signed]
    exact ⟨fun other => eq_of_denotes other denotes, fun same => same ▸ denotes⟩
  · obtain ⟨m, power, written, value⟩ := literal
    have same : pattern.toNat % Decimal.signBit = pattern.toNat :=
      Nat.mod_eq_of_lt (by simpa [Decimal.isNegative] using positive)
    have within : pattern.toNat < Decimal.infinity := by
      simpa [Decimal.isFinite, same] using finite
    have nearest := form.shortest.nearest
    rw [same, value] at nearest
    rw [positive, if_neg Bool.false_ne_true, List.nil_append] at signed
    have spelled : floatText pattern = String.ofList text :=
      String.toList_inj.mp (by simpa using signed)
    rw [spelled, String.toList_ofList]
    exact ⟨token_of_numeral written.exists_first_digit written.numeral?_eq,
      written.readFloat_eq within nearest, read_of_nearest written within nearest⟩

/-- The magnitude lies halfway between two decimals of sixteen digits, of which the greater is
written. -/
theorem floatText_shortest_halfway :
    Decimal.isFinite (0x3ea4000000000000 : UInt64).toNat = true ∧
      floatText 0x3ea4000000000000 = "5.960464477539063e-07" ∧
      (∃ digits n exponent, ShortestForm 0x3ea4000000000000 digits n exponent ∧
        ∀ x, DenotesNumber "5.960464477539063e-07".toList x ↔ x = scientificValue digits n exponent) ∧
      token "5.960464477539063e-07".toList = (.numeral .float "5.960464477539063e-07".toList, 21) ∧
      readFloat "5.960464477539063e-07".toList = some 0x3ea4000000000000 ∧
      read "5.960464477539063e-07" =
        .ok ⟨[.expr (.constant (.float 0x3ea4000000000000))]⟩ := by
  have finite : Decimal.isFinite (0x3ea4000000000000 : UInt64).toNat = true := by decide +kernel
  have text : floatText 0x3ea4000000000000 = "5.960464477539063e-07" := by decide +kernel
  have positive : Decimal.isNegative (0x3ea4000000000000 : UInt64).toNat = false := by
    decide +kernel
  have magnitude : (0x3ea4000000000000 : UInt64).toNat % Decimal.signBit = 0x3ea4000000000000 := by
    decide +kernel
  obtain ⟨digits, n, exponent, form, denotes, -, -, read_back⟩ := floatText_shortest _ finite
  obtain ⟨spelled, value, whole⟩ := read_back positive
  rw [magnitude] at form
  rw [text, positive] at denotes
  simp only [Bool.false_eq_true, if_false, one_mul] at denotes
  rw [text] at spelled value whole
  exact ⟨finite, text, ⟨digits, n, exponent, form, denotes⟩, spelled, value, whole⟩

end Respell.Source
