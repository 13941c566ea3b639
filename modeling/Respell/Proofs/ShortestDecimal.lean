import Respell.Proofs.Rounding

/-!
The shortest decimal of a double. On each grid of decimals the two neighbours of a magnitude are
nearest to it, so a decimal of that many digits lies in its interval only if one of them does. The
search therefore ends on the first grid that has a decimal in the interval, and seventeen digits
always have one.
-/

set_option autoImplicit false

namespace Respell.Decimal

/-! ### Nearness -/

/-- Whether a number is nearer to a centre than another one, or as near and not below it. -/
def Prefers (centre x y : ℚ) : Prop :=
  |x - centre| < |y - centre| ∨ |x - centre| = |y - centre| ∧ y ≤ x

namespace Prefers

variable {centre x y z : ℚ}

theorem refl (centre x : ℚ) : Prefers centre x x := .inr ⟨rfl, le_rfl⟩

theorem trans (first : Prefers centre x y) (second : Prefers centre y z) : Prefers centre x z := by
  rcases first with nearer | ⟨tied, above⟩ <;> rcases second with nearer' | ⟨tied', above'⟩
  · exact .inl (nearer.trans nearer')
  · exact .inl (tied' ▸ nearer)
  · exact .inl (tied ▸ nearer')
  · exact .inr ⟨tied.trans tied', above'.trans above⟩

/-- Below a centre, what is greater is nearer. -/
theorem of_le (above : y ≤ x) (below : x ≤ centre) : Prefers centre x y := by
  have distance : |x - centre| = centre - x := by rw [abs_sub_comm, abs_of_nonneg (by linarith)]
  have further : |y - centre| = centre - y := by rw [abs_sub_comm, abs_of_nonneg (by linarith)]
  rcases above.lt_or_eq with less | same
  · exact .inl (by linarith)
  · exact .inr ⟨by rw [same], above⟩

/-- Above a centre, what is less is nearer. -/
theorem of_ge (below : x ≤ y) (above : centre ≤ x) : Prefers centre x y := by
  have distance : |x - centre| = x - centre := abs_of_nonneg (by linarith)
  have further : |y - centre| = y - centre := abs_of_nonneg (by linarith)
  rcases below.lt_or_eq with less | same
  · exact .inl (by linarith)
  · exact .inr ⟨by rw [same], same.ge⟩

end Prefers

/-- Whether a number is the shortest decimal of a pattern, of some number of digits: the pattern is
the nearest one to it and to no number of fewer digits, and among the numbers of as many digits with
this property it is the nearest to the magnitude, and the greater of two. -/
structure Shortest (bits count : Nat) (x : ℚ) : Prop where
  nearest : Nearest bits x
  fewest : ∀ (digits length : Nat) (exponent : Int), 0 < length → digits < 10 ^ length →
    Nearest bits (digits * 10 ^ exponent) → count ≤ length
  closest : ∀ (digits : Nat) (exponent : Int), digits < 10 ^ count →
    Nearest bits (digits * 10 ^ exponent) → Prefers (magnitude bits) x (digits * 10 ^ exponent)

namespace Covers

variable {bits : Nat} {x y z : ℚ}

/-- What lies between covered numbers is covered. -/
theorem between (first : Covers bits x) (last : Covers bits z) (after : x ≤ y) (before : y ≤ z) :
    Covers bits y := by
  have positive : (0 : ℚ) < quartersPerOne := by exact_mod_cast quartersPerOne_pos
  have least : x * quartersPerOne ≤ y * quartersPerOne := by gcongr
  have most : y * quartersPerOne ≤ z * quartersPerOne := by gcongr
  refine ⟨first.above.trans least, most.trans last.below, ?_⟩
  rintro (tied | tied)
  · exact first.even (.inl (le_antisymm (least.trans tied.le) first.above))
  · exact last.even (.inr (le_antisymm last.below (tied.ge.trans most)))

/-- A number within the ends is covered. -/
theorem of_lt (above : (lowerEnd bits : ℚ) < x * quartersPerOne)
    (below : x * quartersPerOne < upperEnd bits) : Covers bits x :=
  ⟨above.le, below.le, fun tied => tied.elim (fun same => absurd same above.ne')
    fun same => absurd same below.ne⟩

end Covers

/-- A magnitude lies within its own interval. -/
theorem covers_magnitude {bits : Nat} (finite : bits < infinity) :
    Covers bits (magnitude bits) := by
  have self : Nearest bits (magnitude bits) := by
    intro other most distinct
    rw [sub_self, abs_zero, abs_pos, sub_ne_zero]
    rcases Nat.lt_or_gt_of_ne distinct with less | greater
    · exact .inl (magnitude_lt_magnitude less (Nat.lt_trans finite infinity_lt_signBit)).ne'
    · exact .inl (magnitude_lt_magnitude greater (Nat.lt_of_le_of_lt most infinity_lt_signBit)).ne
  exact (nearest_iff_covers finite (div_nonneg (by positivity) (by positivity))).mp self

/-! ### The neighbours on a grid -/

theorem digitCount_div {num den : Nat} (some_den : 0 < den) (large : den ≤ num) :
    ∃ before, digitCount (num / den) = before + 1 ∧ 10 ^ before * den ≤ num ∧
      num < 10 ^ (before + 1) * den := by
  have least := pow_pred_digitCount_le (Nat.div_pos large some_den)
  have most := lt_pow_digitCount (num / den)
  have counted : 0 < digitCount (num / den) := Nat.length_toDigits_pos
  obtain ⟨before, count⟩ : ∃ before, digitCount (num / den) = before + 1 :=
    ⟨digitCount (num / den) - 1, by omega⟩
  rw [count, Nat.add_sub_cancel, Nat.le_div_iff_mul_le some_den] at least
  rw [count, Nat.div_lt_iff_lt_mul some_den] at most
  exact ⟨before, count, least, most⟩

theorem negative_exponent {num den places : Nat} (least : den ≤ 10 ^ places * num)
    (most : 10 ^ places * num < 10 * den) :
    (10 : ℚ) ^ (-Int.ofNat places) * den ≤ num ∧
      (num : ℚ) < 10 ^ (-Int.ofNat places + 1) * den := by
  have power : (0 : ℚ) < 10 ^ places := by positivity
  rw [zpow_add₀ (by norm_num), zpow_neg, Int.ofNat_eq_natCast, zpow_natCast, zpow_one,
    inv_mul_le_iff₀ power, mul_assoc, lt_inv_mul_iff₀ power]
  exact ⟨by exact_mod_cast least, by exact_mod_cast most⟩

/-- The power of ten of the leading digit. -/
theorem leadingExponent_spec {num den : Nat} (some_num : 0 < num) (some_den : 0 < den) :
    (10 : ℚ) ^ leadingExponent num den ≤ num / den ∧
      (num / den : ℚ) < 10 ^ (leadingExponent num den + 1) := by
  have den_pos : (0 : ℚ) < den := by exact_mod_cast some_den
  rw [le_div_iff₀ den_pos, div_lt_iff₀ den_pos]
  unfold leadingExponent
  split
  next large =>
    obtain ⟨before, count, least, most⟩ := digitCount_div some_den large
    have next : (Int.ofNat before + 1 : ℤ) = (before + 1 : ℕ) := by simp
    rw [count, Nat.add_sub_cancel, next, Int.ofNat_eq_natCast, zpow_natCast, zpow_natCast]
    exact ⟨by exact_mod_cast least, by exact_mod_cast most⟩
  next small =>
    obtain ⟨before, count, least, most⟩ := digitCount_div some_num (by omega : num ≤ den)
    dsimp only
    rw [count, Nat.add_sub_cancel]
    have power : 10 ^ (before + 1) * num = 10 * (num * tenTo before) := by
      rw [tenTo, Nat.pow_eq]
      ring
    split
    next reached =>
      rw [tenTo, Nat.pow_eq, Nat.mul_comm] at reached
      exact negative_exponent reached (by omega)
    next less =>
      have below : num * tenTo before ≤ den := by
        rwa [tenTo, Nat.pow_eq, Nat.mul_comm]
      exact negative_exponent most.le (by omega)

/-- The lower neighbour of a magnitude on a grid of decimals is the greatest multiple of the step
that is not above it. -/
theorem floorAt_eq_floor (bits : Nat) (exponent : Int) :
    floorAt bits exponent = ⌊magnitude bits / 10 ^ exponent⌋₊ := by
  have positive : (0 : ℚ) < quartersPerOne := by exact_mod_cast quartersPerOne_pos
  have value : magnitude bits = quarters bits / quartersPerOne := by
    rw [eq_div_iff positive.ne', magnitude_mul_quartersPerOne]
  unfold floorAt tenTo
  split
  next whole =>
    lift exponent to ℕ using whole
    rw [← Nat.floor_div_eq_div (K := ℚ), value, div_div]
    simp
  next negative =>
    obtain ⟨places, rfl⟩ : ∃ places : ℕ, exponent = -places := ⟨(-exponent).toNat, by omega⟩
    rw [← Nat.floor_div_eq_div (K := ℚ), value]
    congr 1
    simp
    ring

theorem nearerBelow_iff (bits digits : Nat) (exponent : Int) :
    nearerBelow bits digits exponent = true ↔
      2 * magnitude bits < (2 * digits + 1) * 10 ^ exponent := by
  have positive : (0 : ℚ) < quartersPerOne := by exact_mod_cast quartersPerOne_pos
  have den_pos : (0 : ℚ) < (ratio (2 * digits + 1) exponent).2 := by
    exact_mod_cast ratio_den_pos (2 * digits + 1) exponent
  have middle := ratio_eq (2 * digits + 1) exponent
  push_cast at middle
  unfold nearerBelow
  dsimp only
  rw [decide_eq_true_eq, ← middle, ← mul_lt_mul_iff_left₀ positive, mul_assoc (2 : ℚ),
    magnitude_mul_quartersPerOne, div_mul_eq_mul_div, lt_div_iff₀ den_pos]
  norm_cast

section Neighbours

variable {bits : Nat} {exponent : Int}

theorem floorAt_le (bits : Nat) (exponent : Int) :
    (floorAt bits exponent * 10 ^ exponent : ℚ) ≤ magnitude bits := by
  have power : (0 : ℚ) < 10 ^ exponent := by positivity
  rw [floorAt_eq_floor, ← le_div_iff₀ power]
  exact Nat.floor_le (div_nonneg (div_nonneg (by positivity) (by positivity)) power.le)

theorem lt_floorAt_add_one (bits : Nat) (exponent : Int) :
    magnitude bits < (floorAt bits exponent + 1 : ℕ) * 10 ^ exponent := by
  have power : (0 : ℚ) < 10 ^ exponent := by positivity
  rw [floorAt_eq_floor, ← div_lt_iff₀ power]
  push_cast
  exact Nat.lt_floor_add_one _

/-- There is no neighbour exactly if neither of the two decimals next to the magnitude is covered. -/
theorem neighbour?_eq_none_iff :
    neighbour? bits exponent = none ↔
      ¬Covers bits (floorAt bits exponent * 10 ^ exponent) ∧
        ¬Covers bits ((floorAt bits exponent + 1 : ℕ) * 10 ^ exponent) := by
  rw [← inInterval_iff, ← inInterval_iff, neighbour?]
  split
  next below =>
    split <;> simp [below]
  next below =>
    split
    next above => simp [above]
    next above => simp [below, above]

/-- Of the two decimals next to the magnitude, the lower is preferred exactly if the magnitude lies
below their middle. -/
theorem prefers_floorAt (bits : Nat) (exponent : Int) :
    if nearerBelow bits (floorAt bits exponent) exponent then
      Prefers (magnitude bits) (floorAt bits exponent * 10 ^ exponent)
        ((floorAt bits exponent + 1 : ℕ) * 10 ^ exponent)
    else
      Prefers (magnitude bits) ((floorAt bits exponent + 1 : ℕ) * 10 ^ exponent)
        (floorAt bits exponent * 10 ^ exponent) := by
  have below := floorAt_le bits exponent
  have above := lt_floorAt_add_one bits exponent
  have power : (0 : ℚ) < 10 ^ exponent := by positivity
  have middle := nearerBelow_iff bits (floorAt bits exponent) exponent
  push_cast at above ⊢
  have lower : |(floorAt bits exponent * 10 ^ exponent : ℚ) - magnitude bits| =
      magnitude bits - floorAt bits exponent * 10 ^ exponent := by
    rw [abs_sub_comm, abs_of_nonneg (by linarith)]
  have upper : |((floorAt bits exponent + 1) * 10 ^ exponent : ℚ) - magnitude bits| =
      (floorAt bits exponent + 1) * 10 ^ exponent - magnitude bits :=
    abs_of_nonneg (by linarith)
  split
  next nearer =>
    have less := middle.mp nearer
    exact .inl (by linarith)
  next further =>
    have least := not_lt.mp (further ∘ middle.mpr)
    rw [Prefers, lower, upper]
    rcases least.lt_or_eq with greater | tied
    · exact .inl (by linarith)
    · exact .inr ⟨by linarith, by linarith⟩

/-- A neighbour is one of the two decimals next to the magnitude, and preferred to the other. -/
theorem neighbour?_spec {digits : Nat} {grid : Int}
    (found : neighbour? bits exponent = some (digits, grid)) :
    grid = exponent ∧ (digits = floorAt bits exponent ∨ digits = floorAt bits exponent + 1) ∧
      Covers bits (digits * 10 ^ exponent) ∧
      ∀ other, other = floorAt bits exponent ∨ other = floorAt bits exponent + 1 →
        Covers bits (other * 10 ^ exponent) →
          Prefers (magnitude bits) (digits * 10 ^ exponent) (other * 10 ^ exponent) := by
  have preferred := prefers_floorAt bits exponent
  simp only [← inInterval_iff]
  rw [neighbour?] at found
  split at found
  next below =>
    split at found
    next above =>
      obtain ⟨rfl, rfl⟩ := Prod.mk.inj (Option.some.inj found)
      simp only [Bool.and_eq_true, Bool.not_eq_true'] at above
      rw [above.2] at preferred
      refine ⟨rfl, .inr rfl, above.1, ?_⟩
      rintro other (rfl | rfl) _
      · exact preferred
      · exact .refl ..
    next notAbove =>
      obtain ⟨rfl, rfl⟩ := Prod.mk.inj (Option.some.inj found)
      refine ⟨rfl, .inl rfl, below, ?_⟩
      rintro other (rfl | rfl) covered
      · exact .refl ..
      · rw [covered, Bool.true_and, Bool.not_eq_true', Bool.not_eq_false] at notAbove
        rw [if_pos notAbove] at preferred
        exact preferred
  next notBelow =>
    split at found
    next above =>
      obtain ⟨rfl, rfl⟩ := Prod.mk.inj (Option.some.inj found)
      refine ⟨rfl, .inr rfl, above, ?_⟩
      rintro other (rfl | rfl) covered
      · exact absurd covered notBelow
      · exact .refl ..
    next => cases found

end Neighbours

/-! ### The search -/

section Search

variable {bits : Nat} {leading : Int}

theorem ten_zpow_sub (exponent : Int) (places : Nat) :
    (10 : ℚ) ^ exponent = 10 ^ places * 10 ^ (exponent - places) := by
  rw [← zpow_natCast, ← zpow_add₀ (by norm_num), add_sub_cancel]

theorem pow_le_floorAt (least : (10 : ℚ) ^ leading ≤ magnitude bits) (count : Nat) :
    10 ^ count ≤ floorAt bits (leading - count) := by
  have power : (0 : ℚ) < 10 ^ (leading - count) := by positivity
  rw [floorAt_eq_floor,
    Nat.le_floor_iff (div_nonneg ((by positivity : (0 : ℚ) ≤ _).trans least) power.le),
    le_div_iff₀ power]
  push_cast
  rwa [← ten_zpow_sub]

theorem floorAt_lt_pow (most : magnitude bits < (10 : ℚ) ^ (leading + 1)) (count : Nat) :
    floorAt bits (leading - count) < 10 ^ (count + 1) := by
  have power : (0 : ℚ) < 10 ^ (leading - count) := by positivity
  have below : (floorAt bits (leading - count) : ℚ) * 10 ^ (leading - count) <
      10 ^ (count + 1) * 10 ^ (leading - count) := by
    refine (floorAt_le bits _).trans_lt (most.trans_eq ?_)
    rw [ten_zpow_sub (leading + 1) (count + 1)]
    congr 2
    push_cast
    ring
  exact_mod_cast lt_of_mul_lt_mul_right below power.le

/-- A decimal of no more digits than a grid has lies on the grid, or below all its decimals that have
as many digits as the magnitude. So it is not strictly between the two next to the magnitude. -/
theorem le_or_le_of_digits (least : (10 : ℚ) ^ leading ≤ magnitude bits) {digits count : Nat}
    (few : digits < 10 ^ (count + 1)) (exponent : Int) :
    (digits * 10 ^ exponent : ℚ) ≤ floorAt bits (leading - count) * 10 ^ (leading - count) ∨
      ((floorAt bits (leading - count) + 1 : ℕ) * 10 ^ (leading - count) : ℚ) ≤
        digits * 10 ^ exponent := by
  by_cases coarse : leading - count ≤ exponent
  · obtain ⟨places, same⟩ : ∃ places : ℕ, exponent = leading - count + places :=
      ⟨(exponent - (leading - count)).toNat, by omega⟩
    have on_grid : (digits * 10 ^ exponent : ℚ) =
        (digits * 10 ^ places : ℕ) * 10 ^ (leading - count) := by
      rw [same, zpow_add₀ (by norm_num), zpow_natCast]
      push_cast
      ring
    rw [on_grid]
    rcases Nat.lt_or_ge (floorAt bits (leading - count)) (digits * 10 ^ places) with above | below
    · right
      gcongr
      exact above
    · left
      gcongr
  · left
    have floor := pow_le_floorAt least count
    calc
      (digits * 10 ^ exponent : ℚ) ≤ 10 ^ (count + 1) * 10 ^ exponent := by
        gcongr
        exact_mod_cast few.le
      _ = 10 ^ (count + 1 + exponent) := by
        rw [zpow_add₀ (by norm_num)]
        norm_cast
      _ ≤ 10 ^ leading := zpow_le_zpow_right₀ (by norm_num) (by omega)
      _ = 10 ^ count * 10 ^ (leading - count) := ten_zpow_sub leading count
      _ ≤ floorAt bits (leading - count) * 10 ^ (leading - count) := by
        gcongr
        exact_mod_cast floor

/-- Where a decimal of no more digits is covered, there is a neighbour that is preferred to it. -/
theorem exists_neighbour (finite : bits < infinity) (least : (10 : ℚ) ^ leading ≤ magnitude bits)
    {digits count : Nat} (few : digits < 10 ^ (count + 1)) {exponent : Int}
    (covered : Covers bits (digits * 10 ^ exponent)) :
    ∃ nearest, neighbour? bits (leading - count) = some (nearest, leading - count) ∧
      Prefers (magnitude bits) (nearest * 10 ^ (leading - count)) (digits * 10 ^ exponent) := by
  have self := covers_magnitude finite
  have below := floorAt_le bits (leading - count)
  have above := lt_floorAt_add_one bits (leading - count)
  -- one of the two decimals next to the magnitude lies between it and the covered one
  obtain ⟨other, next, within, between⟩ : ∃ other,
      (other = floorAt bits (leading - count) ∨ other = floorAt bits (leading - count) + 1) ∧
        Covers bits (other * 10 ^ (leading - count)) ∧
        Prefers (magnitude bits) (other * 10 ^ (leading - count)) (digits * 10 ^ exponent) := by
    rcases le_or_le_of_digits least few exponent with lower | upper
    · exact ⟨_, .inl rfl, covered.between self lower below, .of_le lower below⟩
    · exact ⟨_, .inr rfl, self.between covered above.le upper, .of_ge upper above.le⟩
  cases found : neighbour? bits (leading - count) with
  | none =>
      obtain ⟨notBelow, notAbove⟩ := neighbour?_eq_none_iff.mp found
      rcases next with rfl | rfl
      · exact absurd within notBelow
      · exact absurd within notAbove
  | some neighbour =>
      obtain ⟨nearest, grid⟩ := neighbour
      obtain ⟨rfl, -, -, preferred⟩ := neighbour?_spec found
      exact ⟨nearest, rfl, (preferred other next within).trans between⟩

/-- An interval reaches further to both sides than half of a step of which the magnitude holds many:
its significand has only fifty-three bits. -/
theorem half_step_within (positive : 0 < bits) (unsigned : bits < signBit) {step : ℚ}
    (fine : 10 ^ 16 * step ≤ quarters bits) :
    (lowerEnd bits : ℚ) + step / 2 < quarters bits ∧
      (quarters bits : ℚ) + step / 2 < upperEnd bits := by
  have some_units : 0 < significand bits * 2 ^ scale bits :=
    units_eq bits ▸ units_pos positive unsigned
  have nonzero : 2 ^ scale bits ≤ significand bits * 2 ^ scale bits :=
    Nat.le_mul_of_pos_left _ (Nat.pos_of_mul_pos_right some_units)
  have most : (significand bits : ℚ) * 2 ^ scale bits ≤ 2 ^ 53 * 2 ^ scale bits := by
    gcongr
    exact_mod_cast (significand_lt bits).le
  have unit : (0 : ℚ) < 2 ^ scale bits := by positivity
  have upper : (upperEnd bits : ℚ) =
      4 * (significand bits * 2 ^ scale bits) + 2 * 2 ^ scale bits := by
    have whole := upperEnd_mul bits 1
    rw [Nat.mul_one, Nat.one_mul] at whole
    exact_mod_cast whole
  have lower := lowerEnd_mul bits 1
  rw [quarters, units_eq] at fine ⊢
  rw [Nat.mul_one, Nat.one_mul] at lower
  rw [upper]
  push_cast at fine ⊢
  split at lower
  next leading =>
    rw [lower, Nat.cast_sub (by omega), leading.1, leadingBit]
    rw [leading.1, leadingBit] at fine
    push_cast at fine ⊢
    constructor <;> linarith
  next =>
    rw [lower, Nat.cast_sub (by omega)]
    push_cast
    constructor <;> linarith

/-- With seventeen digits the decimals lie so close that one next to the magnitude is covered. -/
theorem neighbour?_ne_none (positive : 0 < bits) (finite : bits < infinity) {grid : Int}
    (fine : (10 : ℚ) ^ 16 * 10 ^ grid ≤ magnitude bits) : neighbour? bits grid ≠ none := by
  intro none
  obtain ⟨notBelow, notAbove⟩ := neighbour?_eq_none_iff.mp none
  have quarter : (0 : ℚ) < quartersPerOne := by exact_mod_cast quartersPerOne_pos
  have below := floorAt_le bits grid
  have above := lt_floorAt_add_one bits grid
  have next : ((floorAt bits grid + 1 : ℕ) * 10 ^ grid : ℚ) * quartersPerOne =
      floorAt bits grid * 10 ^ grid * quartersPerOne + 10 ^ grid * quartersPerOne := by
    push_cast
    ring
  rw [← mul_le_mul_iff_left₀ quarter, magnitude_mul_quartersPerOne] at below fine
  rw [← mul_lt_mul_iff_left₀ quarter, magnitude_mul_quartersPerOne, next] at above
  rw [mul_assoc] at fine
  obtain ⟨lower, upper⟩ := half_step_within positive (Nat.lt_trans finite infinity_lt_signBit) fine
  have step : (0 : ℚ) < 10 ^ grid * quartersPerOne := mul_pos (by positivity) quarter
  have within := mt (fun ends : _ ∧ _ => Covers.of_lt ends.1 ends.2) notBelow
  have within' := mt (fun ends : _ ∧ _ => Covers.of_lt ends.1 ends.2) notAbove
  rw [next] at within'
  generalize (floorAt bits grid * 10 ^ grid : ℚ) * quartersPerOne = place at *
  generalize (10 ^ grid * quartersPerOne : ℚ) = width at *
  by_cases nearer : (quarters bits : ℚ) ≤ place + width / 2
  · exact within ⟨by linarith, by linarith⟩
  · exact within' ⟨by linarith, by linarith⟩

/-- The search ends on the first grid with a neighbour. -/
theorem shortest_eq (positive : 0 < bits) (finite : bits < infinity)
    (order : leadingExponent (units bits) unitsPerOne = leading)
    (least : (10 : ℚ) ^ leading ≤ magnitude bits) :
    ∃ count, neighbour? bits (leading - (count : ℕ)) = some (shortest bits) ∧
      ∀ fewer < count, neighbour? bits (leading - (fewer : ℕ)) = none := by
  have last : neighbour? bits (leading - (16 : ℕ)) ≠ none := by
    refine neighbour?_ne_none positive finite ?_
    rwa [← ten_zpow_sub]
  unfold shortest
  rw [order]
  dsimp only
  cases found : (List.range 17).findSome? fun count => neighbour? bits (leading - (count : ℕ)) with
  | none => exact absurd (List.findSome?_eq_none_iff.mp found 16 (by decide)) last
  | some decimal =>
      obtain ⟨before, count, after, whole, here, none⟩ := List.findSome?_eq_some_iff.mp found
      refine ⟨count, here, fun fewer less => none fewer ?_⟩
      have ordered := List.pairwise_lt_range (n := 17)
      have listed : count ∈ List.range 17 := by simp [whole]
      have among : fewer ∈ List.range 17 := List.mem_range.mpr (by
        have := List.mem_range.mp listed
        omega)
      rw [whole, List.pairwise_append, List.pairwise_cons] at ordered
      rw [whole, List.mem_append, List.mem_cons] at among
      rcases among with first | rfl | later
      · exact first
      · omega
      · have := ordered.2.1.1 fewer later
        omega

end Search

/-- What the search finds is the shortest decimal: it has as few digits as the numbers that the
pattern is nearest to can have, and no other one of them is preferred to it. -/
theorem shortest_spec {bits : Nat} (positive : 0 < bits) (finite : bits < infinity) :
    ∃ count, 0 < (shortest bits).1 ∧ (shortest bits).1 ≤ 10 ^ (count + 1) ∧
      ∀ length ≤ count + 1, Shortest bits length ((shortest bits).1 * 10 ^ (shortest bits).2) := by
  have unsigned : bits < signBit := Nat.lt_trans finite infinity_lt_signBit
  obtain ⟨least, most⟩ := leadingExponent_spec (units_pos positive unsigned) unitsPerOne_pos
  generalize order : leadingExponent (units bits) unitsPerOne = leading at least most
  obtain ⟨count, found, none⟩ := shortest_eq positive finite order least
  generalize shortest bits = decimal at *
  obtain ⟨digits, grid⟩ := decimal
  obtain ⟨rfl, next, covered, -⟩ := neighbour?_spec found
  have lower := pow_le_floorAt least count
  have upper := floorAt_lt_pow most count
  have nearest (digits : Nat) (exponent : Int) :
      Nearest bits (digits * 10 ^ exponent) ↔ Covers bits (digits * 10 ^ exponent) :=
    nearest_iff_covers finite (by positivity)
  refine ⟨count, ?_, ?_, fun length short => ⟨(nearest _ _).mpr covered, ?_, ?_⟩⟩
  · have := Nat.pow_pos (n := count) (by decide : 0 < 10)
    dsimp only
    omega
  · dsimp only
    omega
  · intro other places exponent some_place small near
    by_contra fewer
    have few : other < 10 ^ (places - 1 + 1) := by rwa [Nat.sub_add_cancel some_place]
    obtain ⟨_, here, -⟩ := exists_neighbour finite least few ((nearest _ _).mp near)
    rw [none (places - 1) (by omega)] at here
    cases here
  · intro other exponent small near
    have few : other < 10 ^ (count + 1) := small.trans_le (Nat.pow_le_pow_right (by decide) short)
    obtain ⟨_, here, preferred⟩ := exists_neighbour finite least few ((nearest _ _).mp near)
    rw [found] at here
    obtain ⟨rfl, -⟩ := Prod.mk.inj (Option.some.inj here)
    exact preferred

/-- Zero is written with one digit. -/
theorem shortest_zero : Shortest 0 1 0 := by
  have zero : magnitude 0 = 0 := by
    rw [magnitude, units_eq]
    simp [significand]
  have covered := covers_magnitude (by decide : 0 < infinity)
  rw [zero] at covered
  refine ⟨(nearest_iff_covers (by decide) le_rfl).mpr covered,
    fun _ _ _ positive _ _ => positive, ?_⟩
  intro digits exponent _ _
  rw [zero]
  exact .of_ge (by positivity) le_rfl

/-! ### Patterns with a sign -/

section Signed

variable (bits : Nat)

theorem scale_mod : scale (bits % signBit) = scale bits := by
  rw [scale, scale, Nat.mod_mod]

theorem significand_mod : significand (bits % signBit) = significand bits := by
  rw [significand, significand, scale_mod, Nat.mod_mod]

theorem units_mod : units (bits % signBit) = units bits := by
  rw [units, units, scale_mod, significand_mod]

theorem quarters_mod : quarters (bits % signBit) = quarters bits := by
  rw [quarters, quarters, units_mod]

theorem inInterval_mod (digits : Nat) (exponent : Int) :
    inInterval (bits % signBit) digits exponent = inInterval bits digits exponent := by
  have lower : lowerEnd (bits % signBit) = lowerEnd bits := by
    simp only [lowerEnd, quarters_mod, significand_mod, scale_mod]
  have upper : upperEnd (bits % signBit) = upperEnd bits := by
    simp only [upperEnd, quarters_mod, scale_mod]
  simp only [inInterval, lower, upper, significand_mod]

theorem floorAt_mod (exponent : Int) : floorAt (bits % signBit) exponent = floorAt bits exponent := by
  simp only [floorAt, quarters_mod]

theorem neighbour?_mod (exponent : Int) :
    neighbour? (bits % signBit) exponent = neighbour? bits exponent := by
  have nearer (digits : Nat) :
      nearerBelow (bits % signBit) digits exponent = nearerBelow bits digits exponent := by
    simp only [nearerBelow, quarters_mod]
  simp only [neighbour?, floorAt_mod, nearer, inInterval_mod]

/-- A sign does not change the shortest decimal. -/
theorem shortest_mod : shortest (bits % signBit) = shortest bits := by
  simp only [shortest, units_mod, neighbour?_mod, floorAt_mod]

end Signed

end Respell.Decimal
