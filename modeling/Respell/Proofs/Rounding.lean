import Mathlib
import Respell.Decimal.Shortest

/-!
Rounding to doubles. The magnitudes of consecutive patterns grow by a power of two, so the numbers
nearest to a magnitude are those between the middles to its two neighbours; a middle belongs to the
even pattern. A ratio is rounded to the pattern nearest to it, and so is a decimal.
-/

set_option autoImplicit false

namespace Respell.Decimal

/-! ### Patterns without a sign -/

theorem scale_mul_add_significand {bits : Nat} (unsigned : bits < signBit) :
    scale bits * leadingBit + significand bits = bits := by
  unfold scale significand scale signBit leadingBit at *
  omega

theorem significand_lt (bits : Nat) : significand bits < 2 * leadingBit := by
  unfold significand scale signBit leadingBit
  omega

theorem leadingBit_le_significand {bits : Nat} (scaled : 0 < scale bits) :
    leadingBit ≤ significand bits := by
  unfold significand scale signBit leadingBit at *
  omega

theorem significand_mod_two (bits : Nat) : significand bits % 2 = bits % 2 := by
  unfold significand scale signBit leadingBit
  omega

/-- The next pattern has the next significand, or the first one at the next scale. -/
theorem next_pattern {bits : Nat} (unsigned : bits + 1 < signBit) :
    scale (bits + 1) = scale bits ∧ significand (bits + 1) = significand bits + 1 ∨
      scale (bits + 1) = scale bits + 1 ∧ significand (bits + 1) = leadingBit ∧
        significand bits + 1 = 2 * leadingBit := by
  unfold scale significand scale signBit leadingBit at *
  omega

theorem units_eq (bits : Nat) : units bits = significand bits * 2 ^ scale bits :=
  Nat.shiftLeft_eq ..

/-- From a magnitude to the next it is one unit of its significand. -/
theorem units_succ {bits : Nat} (unsigned : bits + 1 < signBit) :
    units (bits + 1) = units bits + 2 ^ scale bits := by
  rw [units_eq, units_eq]
  rcases next_pattern unsigned with ⟨same, following⟩ | ⟨higher, first, last⟩
  · rw [same, following]
    ring
  · calc
      _ = 2 * leadingBit * 2 ^ scale bits := by rw [higher, first]; ring
      _ = _ := by rw [← last]; ring

theorem units_lt_units {bits other : Nat} (below : bits < other) (unsigned : other < signBit) :
    units bits < units other := by
  induction other, below using Nat.le_induction with
  | base =>
      rw [units_succ unsigned]
      exact Nat.lt_add_of_pos_right (Nat.two_pow_pos _)
  | succ other _ ih =>
      rw [units_succ unsigned]
      exact Nat.lt_add_right _ (ih (by omega))

theorem units_pos {bits : Nat} (positive : 0 < bits) (unsigned : bits < signBit) :
    0 < units bits :=
  Nat.lt_of_le_of_lt (Nat.zero_le _) (units_lt_units positive unsigned)

/-- The upper end lies in the middle between a magnitude and the next. -/
theorem upperEnd_eq {bits : Nat} (unsigned : bits + 1 < signBit) :
    upperEnd bits = 2 * (units bits + units (bits + 1)) := by
  rw [upperEnd, quarters, Nat.shiftLeft_eq, units_succ unsigned]
  ring

/-- The lower end lies in the middle between a magnitude and the one before. -/
theorem lowerEnd_succ {bits : Nat} (unsigned : bits + 1 < signBit) :
    lowerEnd (bits + 1) = 2 * (units bits + units (bits + 1)) := by
  have apart := units_succ unsigned
  unfold lowerEnd quarters
  rw [Nat.shiftLeft_eq, Nat.shiftLeft_eq]
  rcases next_pattern unsigned with ⟨same, following⟩ | ⟨higher, first, last⟩
  · have inner : ¬(significand (bits + 1) == leadingBit && decide (0 < scale (bits + 1))) = true := by
      simp only [Bool.and_eq_true, beq_iff_eq, decide_eq_true_eq, not_and]
      intro leading scaled
      have least := leadingBit_le_significand (same ▸ scaled)
      omega
    rw [if_neg inner, same]
    omega
  · have outer : (significand (bits + 1) == leadingBit && decide (0 < scale (bits + 1))) = true := by
      simp [first, higher]
    rw [if_pos outer, higher, pow_succ]
    omega

theorem lowerEnd_zero : lowerEnd 0 = 0 := by
  rw [lowerEnd, quarters, units_eq]
  rfl

/-! ### The nearest pattern -/

/-- The number that a finite pattern stands for, without its sign. Infinity stands for the number
that would come next. -/
def magnitude (bits : Nat) : ℚ := units bits / unitsPerOne

/-- Whether a pattern is the nearest one to a number. Of two that are as near, it is the even one. -/
def Nearest (bits : Nat) (x : ℚ) : Prop :=
  ∀ other ≤ infinity, other ≠ bits → |x - magnitude bits| < |x - magnitude other| ∨
    |x - magnitude bits| = |x - magnitude other| ∧ bits % 2 = 0

/-- Whether a number lies between the ends of the interval of a magnitude. An end belongs to the
interval if the pattern is even. -/
structure Covers (bits : Nat) (x : ℚ) : Prop where
  above : (lowerEnd bits : ℚ) ≤ x * quartersPerOne
  below : x * quartersPerOne ≤ upperEnd bits
  even : x * quartersPerOne = lowerEnd bits ∨ x * quartersPerOne = upperEnd bits → bits % 2 = 0

theorem unitsPerOne_pos : 0 < unitsPerOne := by
  have shifted (places : Nat) : 0 < 1 <<< places := by
    rw [Nat.one_shiftLeft]
    exact Nat.two_pow_pos places
  exact shifted 1074

theorem quartersPerOne_pos : 0 < quartersPerOne := Nat.mul_pos (by decide) unitsPerOne_pos

theorem magnitude_mul_quartersPerOne (bits : Nat) :
    magnitude bits * quartersPerOne = quarters bits := by
  have positive : (unitsPerOne : ℚ) ≠ 0 := by exact_mod_cast unitsPerOne_pos.ne'
  rw [magnitude, quartersPerOne, quarters]
  push_cast
  field_simp

/-- A number is nearer to the greater of two others exactly if it lies above their middle. -/
theorem nearer_greater_iff {less greater x : ℚ} (apart : less < greater) :
    |x - greater| < |x - less| ↔ (less + greater) / 2 < x := by
  rw [← sq_lt_sq]
  constructor <;> intro <;> nlinarith

theorem nearer_less_iff {less greater x : ℚ} (apart : less < greater) :
    |x - less| < |x - greater| ↔ x < (less + greater) / 2 := by
  rw [← sq_lt_sq]
  constructor <;> intro <;> nlinarith

theorem equally_near_iff {less greater x : ℚ} (apart : less < greater) :
    |x - greater| = |x - less| ↔ x = (less + greater) / 2 := by
  rw [abs_eq_abs]
  constructor
  · rintro (same | opposite) <;> linarith
  · intro middle
    right
    linarith

theorem magnitude_lt_magnitude {bits other : Nat} (below : bits < other)
    (unsigned : other < signBit) : magnitude bits < magnitude other := by
  have positive : (0 : ℚ) < unitsPerOne := by exact_mod_cast unitsPerOne_pos
  rw [magnitude, magnitude, div_lt_div_iff_of_pos_right positive]
  exact_mod_cast units_lt_units below unsigned

theorem magnitude_le_magnitude {bits other : Nat} (below : bits ≤ other)
    (unsigned : other < signBit) : magnitude bits ≤ magnitude other := by
  rcases Nat.lt_or_eq_of_le below with less | rfl
  · exact (magnitude_lt_magnitude less unsigned).le
  · exact le_rfl

theorem infinity_lt_signBit : infinity < signBit := by decide

/-- The upper end is the middle to the next magnitude. -/
theorem upperEnd_eq_magnitude {bits : Nat} (unsigned : bits + 1 < signBit) :
    (upperEnd bits : ℚ) = (magnitude bits + magnitude (bits + 1)) / 2 * quartersPerOne := by
  rw [div_mul_eq_mul_div, add_mul, magnitude_mul_quartersPerOne, magnitude_mul_quartersPerOne,
    upperEnd_eq unsigned, quarters, quarters]
  push_cast
  ring

theorem lowerEnd_succ_eq_magnitude {bits : Nat} (unsigned : bits + 1 < signBit) :
    (lowerEnd (bits + 1) : ℚ) = (magnitude bits + magnitude (bits + 1)) / 2 * quartersPerOne := by
  rw [lowerEnd_succ unsigned, ← upperEnd_eq unsigned, upperEnd_eq_magnitude unsigned]

section Interval

variable {bits : Nat} {x : ℚ} (finite : bits < infinity)
include finite

/-- The two neighbours of a pattern settle both ends of its interval. -/
theorem Nearest.covers (nearest : Nearest bits x) (nonneg : 0 ≤ x) : Covers bits x := by
  have unsigned : bits + 1 < signBit := Nat.lt_of_le_of_lt finite infinity_lt_signBit
  have positive : (0 : ℚ) < quartersPerOne := by exact_mod_cast quartersPerOne_pos
  have from_below : (lowerEnd bits : ℚ) ≤ x * quartersPerOne ∧
      (x * quartersPerOne = lowerEnd bits → bits % 2 = 0) := by
    cases bits with
    | zero =>
        rw [lowerEnd_zero]
        exact ⟨by positivity, fun _ => rfl⟩
    | succ before =>
        have apart := magnitude_lt_magnitude (Nat.lt_succ_self before) (by omega)
        rw [lowerEnd_succ_eq_magnitude (by omega), mul_le_mul_iff_left₀ positive,
          mul_left_inj' positive.ne', ← equally_near_iff apart]
        rcases nearest before (by omega) (by omega) with nearer | ⟨tied, even⟩
        · exact ⟨((nearer_greater_iff apart).mp nearer).le, fun tied => absurd tied nearer.ne⟩
        · exact ⟨((equally_near_iff apart).mp tied).ge, fun _ => even⟩
  have from_above : x * quartersPerOne ≤ upperEnd bits ∧
      (x * quartersPerOne = upperEnd bits → bits % 2 = 0) := by
    have apart := magnitude_lt_magnitude (Nat.lt_succ_self bits) unsigned
    rw [upperEnd_eq_magnitude unsigned, mul_le_mul_iff_left₀ positive, mul_left_inj' positive.ne',
      ← equally_near_iff apart]
    rcases nearest (bits + 1) (by omega) (by omega) with nearer | ⟨tied, even⟩
    · exact ⟨((nearer_less_iff apart).mp nearer).le, fun tied => absurd tied.symm nearer.ne⟩
    · exact ⟨((equally_near_iff apart).mp tied.symm).le, fun _ => even⟩
  exact ⟨from_below.1, from_above.1, fun tied => tied.elim from_below.2 from_above.2⟩

theorem Covers.nearest (covers : Covers bits x) : Nearest bits x := by
  have unsigned : bits + 1 < signBit := Nat.lt_of_le_of_lt finite infinity_lt_signBit
  have positive : (0 : ℚ) < quartersPerOne := by exact_mod_cast quartersPerOne_pos
  obtain ⟨above, below, even⟩ := covers
  intro other most distinct
  rcases Nat.lt_or_gt_of_ne distinct with less | greater
  · obtain ⟨before, rfl⟩ : ∃ before, bits = before + 1 := ⟨bits - 1, by omega⟩
    have apart := magnitude_lt_magnitude less (by omega)
    have between := magnitude_le_magnitude (Nat.le_of_lt_succ less) (by omega)
    have lower := @lowerEnd_succ_eq_magnitude before (by omega)
    rw [lower, mul_le_mul_iff_left₀ positive] at above
    rw [lower, mul_left_inj' positive.ne'] at even
    rw [nearer_greater_iff apart, equally_near_iff apart]
    by_cases inner : (magnitude other + magnitude (before + 1)) / 2 < x
    · exact .inl inner
    · exact .inr ⟨by linarith, even (.inl (by linarith))⟩
  · have bounded : other < signBit := Nat.lt_of_le_of_lt most infinity_lt_signBit
    have apart := magnitude_lt_magnitude greater bounded
    have between := magnitude_le_magnitude (Nat.succ_le_of_lt greater) bounded
    have upper := upperEnd_eq_magnitude unsigned
    rw [upper, mul_le_mul_iff_left₀ positive] at below
    rw [upper, mul_left_inj' positive.ne'] at even
    rw [nearer_less_iff apart, eq_comm, equally_near_iff apart]
    by_cases inner : x < (magnitude bits + magnitude other) / 2
    · exact .inl inner
    · exact .inr ⟨by linarith, even (.inr (by linarith))⟩

/-- The pattern nearest to a number is the one whose interval the number lies in. -/
theorem nearest_iff_covers (nonneg : 0 ≤ x) : Nearest bits x ↔ Covers bits x :=
  ⟨fun nearest => nearest.covers finite nonneg, fun covers => covers.nearest finite⟩

end Interval

/-! ### Rounding a ratio -/

/-- The integer that is rounded to is the nearest one, and even if it is a half away. -/
theorem roundDiv_eq {num den nearest : Nat} (positive : 0 < den)
    (above : 2 * (nearest * den) ≤ 2 * num + den) (below : 2 * num ≤ 2 * (nearest * den) + den)
    (even : 2 * (nearest * den) = 2 * num + den ∨ 2 * num = 2 * (nearest * den) + den →
      nearest % 2 = 0) : roundDiv num den = nearest := by
  have whole := Nat.div_add_mod num den
  have rest := Nat.mod_lt num positive
  unfold roundDiv
  generalize num / den = quotient at *
  generalize num % den = remainder at *
  subst whole
  have least : quotient ≤ nearest := by
    by_contra less
    have : (nearest + 1) * den ≤ quotient * den := Nat.mul_le_mul_right den (by omega)
    nlinarith
  have most : nearest ≤ quotient + 1 := by
    by_contra greater
    have : (quotient + 2) * den ≤ nearest * den := Nat.mul_le_mul_right den (by omega)
    nlinarith
  obtain rfl | rfl : nearest = quotient ∨ nearest = quotient + 1 := by omega
  · have near : 2 * remainder ≤ den := by nlinarith
    have tied (middle : 2 * remainder = den) : nearest % 2 = 0 := even (.inr (by nlinarith))
    rcases Nat.lt_or_eq_of_le near with less | middle
    · simp [less]
    · simp [middle, tied middle]
  · have far : den ≤ 2 * remainder := by nlinarith
    have tied (middle : 2 * remainder = den) : quotient % 2 = 1 := by
      have odd := even (.inl (by nlinarith))
      omega
    rcases Nat.lt_or_eq_of_le far with greater | middle
    · simp [greater.not_gt, greater.ne']
    · simp [middle.symm, tied middle.symm]

theorem log2_sub_of_lt {n scale : Nat} (least : scale = 0 ∨ 2 ^ (52 + scale) ≤ n)
    (most : n < 2 ^ (53 + scale)) : n.log2 - 52 = scale := by
  rcases Nat.eq_zero_or_pos n with rfl | positive
  · rcases least with rfl | least
    · rfl
    · exact absurd least (by simp)
  · have high : n.log2 < 53 + scale := (Nat.log2_lt positive.ne').mpr most
    rcases least with rfl | least
    · omega
    · have low : 52 + scale ≤ n.log2 := (Nat.le_log2 positive.ne').mpr least
      omega

theorem covers_ratio_iff {bits num den : Nat} (positive : 0 < den) :
    Covers bits (num / den) ↔
      lowerEnd bits * den ≤ num * quartersPerOne ∧ num * quartersPerOne ≤ upperEnd bits * den ∧
        (num * quartersPerOne = lowerEnd bits * den ∨ num * quartersPerOne = upperEnd bits * den →
          bits % 2 = 0) := by
  have nonzero : (0 : ℚ) < den := by exact_mod_cast positive
  have parts : Covers bits (num / den) ↔
      (lowerEnd bits : ℚ) ≤ num / den * quartersPerOne ∧
        (num / den * quartersPerOne : ℚ) ≤ upperEnd bits ∧
        ((num / den * quartersPerOne : ℚ) = lowerEnd bits ∨
          (num / den * quartersPerOne : ℚ) = upperEnd bits → bits % 2 = 0) :=
    ⟨fun ⟨above, below, even⟩ => ⟨above, below, even⟩,
      fun ⟨above, below, even⟩ => ⟨above, below, even⟩⟩
  rw [parts, div_mul_eq_mul_div, le_div_iff₀ nonzero, div_le_iff₀ nonzero, div_eq_iff nonzero.ne',
    div_eq_iff nonzero.ne']
  norm_cast

theorem mul_quartersPerOne (num : Nat) : num * quartersPerOne = 4 * (num * unitsPerOne) := by
  rw [quartersPerOne]
  ring

theorem upperEnd_mul (bits den : Nat) :
    upperEnd bits * den =
      4 * (significand bits * (den * 2 ^ scale bits)) + 2 * (den * 2 ^ scale bits) := by
  rw [upperEnd, quarters, units_eq, Nat.shiftLeft_eq]
  ring

theorem lowerEnd_mul (bits den : Nat) :
    lowerEnd bits * den =
      if significand bits = leadingBit ∧ 0 < scale bits then
        4 * (significand bits * (den * 2 ^ scale bits)) - den * 2 ^ scale bits
      else 4 * (significand bits * (den * 2 ^ scale bits)) - 2 * (den * 2 ^ scale bits) := by
  simp only [lowerEnd, quarters, units_eq, Nat.shiftLeft_eq, Bool.and_eq_true, beq_iff_eq,
    decide_eq_true_eq]
  split
  all_goals
    rw [Nat.sub_mul]
    congr 1 <;> ring

/-- A ratio that has the scale of a pattern is rounded at that scale. -/
theorem ofRatio_of_scale {num den scale nearest : Nat} (positive : 0 < den)
    (least : scale = 0 ∨ 2 ^ 52 * (den * 2 ^ scale) ≤ num * unitsPerOne)
    (most : num * unitsPerOne < 2 ^ 53 * (den * 2 ^ scale))
    (rounded : roundDiv (num * unitsPerOne) (den * 2 ^ scale) = nearest) :
    ofRatio num den = min (scale * leadingBit + nearest) infinity := by
  have steps (count : Nat) : 2 ^ (count + scale) * den = 2 ^ count * (den * 2 ^ scale) := by
    ring
  have exponent : (num * unitsPerOne / den).log2 - 52 = scale := by
    refine log2_sub_of_lt (least.imp_right fun least => ?_) ?_
    · rwa [Nat.le_div_iff_mul_le positive, steps]
    · rwa [Nat.div_lt_iff_lt_mul positive, steps]
  simp only [ofRatio, exponent, Nat.shiftLeft_eq, rounded]

section Covered

variable {bits num den : Nat} (finite : bits < infinity) (positive : 0 < den)
  (covers : Covers bits (num / den))
include finite positive covers

/-- At the scale of the pattern a covered ratio is rounded to its significand. -/
theorem ofRatio_of_step_le
    (within : scale bits = 0 ∨ 2 ^ 52 * (den * 2 ^ scale bits) ≤ num * unitsPerOne) :
    ofRatio num den = bits := by
  obtain ⟨above, below, even⟩ := (covers_ratio_iff positive).mp covers
  rw [mul_quartersPerOne, lowerEnd_mul] at above
  rw [mul_quartersPerOne, upperEnd_mul] at below
  rw [mul_quartersPerOne, lowerEnd_mul, upperEnd_mul] at even
  have step_pos : 0 < den * 2 ^ scale bits := Nat.mul_pos positive (Nat.two_pow_pos _)
  have most : num * unitsPerOne < 2 ^ 53 * (den * 2 ^ scale bits) := by
    have bounded : (significand bits + 1) * (den * 2 ^ scale bits) ≤
        2 ^ 53 * (den * 2 ^ scale bits) := Nat.mul_le_mul_right _ (significand_lt bits)
    rw [Nat.add_mul] at bounded
    omega
  have rounded : roundDiv (num * unitsPerOne) (den * 2 ^ scale bits) = significand bits := by
    by_cases leading : significand bits = leadingBit ∧ 0 < scale bits
    · have least : significand bits * (den * 2 ^ scale bits) ≤ num * unitsPerOne := by
        rw [leading.1]
        exact within.resolve_left leading.2.ne'
      exact roundDiv_eq step_pos (by omega) (by omega) fun _ => by rw [leading.1]; rfl
    · rw [if_neg leading] at above even
      refine roundDiv_eq step_pos (by omega) (by omega) fun tied => ?_
      rw [significand_mod_two]
      exact even (by omega)
  have whole := scale_mul_add_significand (Nat.lt_trans finite infinity_lt_signBit)
  rw [ofRatio_of_scale positive within most rounded, whole, min_eq_left finite.le]

/-- A little below a power of two the step is half as wide, and rounding goes up to the power. -/
theorem ofRatio_of_lt_step (scaled : 0 < scale bits)
    (less : num * unitsPerOne < 2 ^ 52 * (den * 2 ^ scale bits)) : ofRatio num den = bits := by
  have above := ((covers_ratio_iff positive).mp covers).1
  rw [mul_quartersPerOne, lowerEnd_mul] at above
  have leading : significand bits = leadingBit := by
    by_contra other
    have greater : leadingBit + 1 ≤ significand bits :=
      Nat.lt_of_le_of_ne (leadingBit_le_significand scaled) (Ne.symm other)
    have bounded := Nat.mul_le_mul_right (den * 2 ^ scale bits) greater
    have step_pos : 0 < den * 2 ^ scale bits := Nat.mul_pos positive (Nat.two_pow_pos _)
    rw [if_neg (fun both => other both.1)] at above
    rw [Nat.add_mul, leadingBit] at bounded
    omega
  rw [if_pos ⟨leading, scaled⟩, leading] at above
  obtain ⟨lower, same⟩ : ∃ lower, scale bits = lower + 1 := ⟨scale bits - 1, by omega⟩
  have halved : den * 2 ^ scale bits = 2 * (den * 2 ^ lower) := by
    rw [same]
    ring
  have step_pos : 0 < den * 2 ^ lower := Nat.mul_pos positive (Nat.two_pow_pos _)
  rw [halved] at above less
  unfold leadingBit at above
  have rounded : roundDiv (num * unitsPerOne) (den * 2 ^ lower) = 2 * leadingBit := by
    unfold leadingBit
    exact roundDiv_eq step_pos (by omega) (by omega) fun _ => rfl
  have next : lower * leadingBit + 2 * leadingBit = bits := by
    rw [← scale_mul_add_significand (Nat.lt_trans finite infinity_lt_signBit), leading, same]
    ring
  rw [ofRatio_of_scale positive (.inr (by omega)) (by omega) rounded, next, min_eq_left finite.le]

/-- What is covered by the interval of a finite pattern is rounded to the pattern. -/
theorem ofRatio_of_covers : ofRatio num den = bits := by
  by_cases within : scale bits = 0 ∨ 2 ^ 52 * (den * 2 ^ scale bits) ≤ num * unitsPerOne
  · exact ofRatio_of_step_le finite positive covers within
  · exact ofRatio_of_lt_step finite positive covers (by omega) (by omega)

end Covered

/-! ### Rounding a decimal -/

theorem lt_pow_digitCount (n : Nat) : n < 10 ^ digitCount n :=
  (Nat.length_toDigits_le_iff (by decide) Nat.length_toDigits_pos).mp le_rfl

theorem pow_pred_digitCount_le {n : Nat} (positive : 0 < n) : 10 ^ (digitCount n - 1) ≤ n := by
  rcases Nat.eq_zero_or_pos (digitCount n - 1) with single | several
  · rw [single, Nat.pow_zero]
    exact positive
  · by_contra less
    have shorter : digitCount n ≤ digitCount n - 1 :=
      (Nat.length_toDigits_le_iff (by decide) several).mpr (Nat.lt_of_not_le less)
    omega

theorem ratio_den_pos (digits : Nat) (exponent : Int) : 0 < (ratio digits exponent).2 := by
  unfold ratio
  split
  · exact Nat.one_pos
  · exact Nat.pow_pos (by decide)

theorem ratio_eq (digits : Nat) (exponent : Int) :
    ((ratio digits exponent).1 / (ratio digits exponent).2 : ℚ) = digits * 10 ^ exponent := by
  unfold ratio tenTo
  split
  next whole =>
    lift exponent to ℕ using whole
    simp
  next negative =>
    obtain ⟨places, rfl⟩ : ∃ places : ℕ, exponent = -places := ⟨(-exponent).toNat, by omega⟩
    simp [div_eq_mul_inv]

theorem inInterval_iff (bits digits : Nat) (exponent : Int) :
    inInterval bits digits exponent = true ↔ Covers bits (digits * 10 ^ exponent) := by
  rw [← ratio_eq, covers_ratio_iff (ratio_den_pos digits exponent)]
  unfold inInterval
  dsimp only
  generalize ratio digits exponent = decimal
  simp only [significand_mod_two, beq_iff_eq]
  split
  next even => simp [even]
  next odd =>
    simp only [Bool.and_eq_true, decide_eq_true_eq, odd, imp_false, not_or]
    omega

theorem quartersPerOne_eq : (quartersPerOne : ℚ) = 2 ^ 1076 := by
  have shifted (places : Nat) : ((4 * (1 <<< places) : ℕ) : ℚ) = 2 ^ (2 + places) := by
    rw [Nat.one_shiftLeft]
    push_cast
    ring
  exact shifted 1074

/-- Only zero covers a number below half a unit. -/
theorem eq_zero_of_covers {bits : Nat} {x : ℚ} (finite : bits < infinity) (covers : Covers bits x)
    (tiny : x * quartersPerOne < 2) : bits = 0 := by
  cases bits with
  | zero => rfl
  | succ before =>
      have unsigned : before + 1 < signBit := Nat.lt_trans finite infinity_lt_signBit
      have least : 2 ≤ lowerEnd (before + 1) := by
        have positive : 0 < units (before + 1) := units_pos (Nat.succ_pos before) unsigned
        rw [lowerEnd_succ unsigned]
        omega
      have above := covers.above
      have : (2 : ℚ) ≤ lowerEnd (before + 1) := by exact_mod_cast least
      linarith

/-- A finite pattern covers no number beyond the one that infinity stands for. -/
theorem le_of_covers {bits : Nat} {x : ℚ} (finite : bits < infinity) (covers : Covers bits x) :
    x ≤ magnitude infinity := by
  have unsigned : bits + 1 < signBit := Nat.lt_of_le_of_lt finite infinity_lt_signBit
  have positive : (0 : ℚ) < quartersPerOne := by exact_mod_cast quartersPerOne_pos
  have middle := covers.below
  rw [upperEnd_eq_magnitude unsigned, mul_le_mul_iff_left₀ positive] at middle
  have this := magnitude_le_magnitude finite.le infinity_lt_signBit
  have next := magnitude_le_magnitude (Nat.succ_le_of_lt finite) infinity_lt_signBit
  linarith

theorem magnitude_infinity : magnitude infinity = 2 ^ 1024 := by
  have shifted (first second places : Nat) (same : first + second = 1024 + places) :
      ((2 ^ first * 2 ^ second : ℕ) / (1 <<< places : ℕ) : ℚ) = 2 ^ 1024 := by
    rw [Nat.one_shiftLeft, ← Nat.pow_add, same]
    push_cast
    rw [pow_add, mul_div_assoc, div_self (by positivity), mul_one]
  have scaled : scale infinity = 2046 := rfl
  have leading : significand infinity = 2 ^ 52 := rfl
  rw [magnitude, units_eq, scaled, leading]
  exact shifted 52 2046 1074 rfl

/-- Twenty-eight decimal digits hold more than ninety-three binary ones. -/
theorem two_pow_lt_ten_pow (count : Nat) {rest spare binary decimal : Nat}
    (fits : 2 ^ rest < 10 ^ spare) (before : binary = 93 * count + rest)
    (after : decimal = 28 * count + spare) : (2 : ℚ) ^ binary < 10 ^ decimal := by
  have each : 2 ^ 93 ≤ 10 ^ 28 := by norm_num
  have all : 2 ^ binary < 10 ^ decimal := by
    rw [before, after, Nat.pow_add, Nat.pow_add, Nat.pow_mul, Nat.pow_mul]
    exact Nat.mul_lt_mul_of_le_of_lt (Nat.pow_le_pow_left each count) fits (by positivity)
  exact_mod_cast all

theorem ofDecimal_of_ratio {digits : Nat} {exponent : Int} (nonzero : digits ≠ 0)
    (reached : -330 ≤ digitCount digits + exponent) (kept : digitCount digits + exponent ≤ 310) :
    ofDecimal digits exponent = ofRatio (ratio digits exponent).1 (ratio digits exponent).2 := by
  unfold ofDecimal ratio
  dsimp only
  rw [if_neg (by simp [nonzero]; omega), if_neg (by omega)]
  split <;> rfl

/-- A number of some digits lies between two powers of ten. -/
theorem decimal_lt (digits : Nat) (exponent : Int) :
    (digits * 10 ^ exponent : ℚ) < 10 ^ (digitCount digits + exponent) := by
  have most : (digits : ℚ) < 10 ^ digitCount digits := by exact_mod_cast lt_pow_digitCount digits
  rw [zpow_add₀ (by norm_num), zpow_natCast]
  gcongr

theorem le_decimal {digits : Nat} (nonzero : digits ≠ 0) (exponent : Int) :
    (10 : ℚ) ^ (digitCount digits + exponent - 1) ≤ digits * 10 ^ exponent := by
  have least : (10 : ℚ) ^ (digitCount digits - 1) ≤ digits := by
    exact_mod_cast pow_pred_digitCount_le (Nat.pos_of_ne_zero nonzero)
  have some_digit : 0 < digitCount digits := Nat.length_toDigits_pos
  have split : (digitCount digits + exponent - 1 : ℤ) = (digitCount digits - 1 : ℕ) + exponent := by
    omega
  rw [split, zpow_add₀ (by norm_num), zpow_natCast]
  gcongr

/-- A decimal that is covered by the interval of a finite pattern is rounded to the pattern. -/
theorem ofDecimal_of_covers {bits digits : Nat} {exponent : Int} (finite : bits < infinity)
    (covers : Covers bits (digits * 10 ^ exponent)) : ofDecimal digits exponent = bits := by
  by_cases reached : digits ≠ 0 ∧ -330 ≤ digitCount digits + exponent
  · have kept : digitCount digits + exponent ≤ 310 := by
      by_contra beyond
      have far : (2 : ℚ) ^ 1024 < 10 ^ 310 :=
        two_pow_lt_ten_pow 11 (by decide : 2 ^ 1 < 10 ^ 2) rfl rfl
      have most : (10 : ℚ) ^ (digitCount digits + exponent - 1) ≤ 2 ^ 1024 := by
        rw [← magnitude_infinity]
        exact (le_decimal reached.1 exponent).trans (le_of_covers finite covers)
      have least : (10 : ℚ) ^ 310 ≤ 10 ^ (digitCount digits + exponent - 1) := by
        rw [← zpow_natCast]
        exact zpow_le_zpow_right₀ (by norm_num) (by omega)
      exact absurd (least.trans most) (not_le.mpr far)
    rw [ofDecimal_of_ratio reached.1 reached.2 kept]
    exact ofRatio_of_covers finite (ratio_den_pos ..) (by rwa [ratio_eq])
  · have skipped : ofDecimal digits exponent = 0 := by
      rw [ofDecimal, if_pos]
      simp only [Bool.or_eq_true, beq_iff_eq, decide_eq_true_eq]
      omega
    have tiny : (digits * 10 ^ exponent : ℚ) * quartersPerOne < 2 := by
      by_cases zero : digits = 0
      · simp [zero]
      · have far : (2 : ℚ) ^ 1076 < 10 ^ 330 :=
          two_pow_lt_ten_pow 11 (by decide : 2 ^ 53 < 10 ^ 22) rfl rfl
        have less : (digits * 10 ^ exponent : ℚ) < (10 ^ 330)⁻¹ := by
          rw [← zpow_natCast, ← zpow_neg]
          refine (decimal_lt digits exponent).trans_le (zpow_le_zpow_right₀ (by norm_num) ?_)
          push_cast
          omega
        calc
          (digits * 10 ^ exponent : ℚ) * quartersPerOne < (10 ^ 330)⁻¹ * 10 ^ 330 := by
            rw [quartersPerOne_eq]
            gcongr
          _ = 1 := inv_mul_cancel₀ (by positivity)
          _ < 2 := by norm_num
    rw [skipped, eq_zero_of_covers finite covers tiny]

end Respell.Decimal
