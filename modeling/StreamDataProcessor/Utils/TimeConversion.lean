import StreamDataProcessor.Foundation.Rounding
import StreamDataProcessor.Foundation.TwosComplement
import StreamDataProcessor.Utils.TimeUtils
import Mathlib.Tactic.FieldSimp

/-!
# Which conversions are exact

`convertTime` rounds twice, the time to a double and then its product with the ratio of
the units. Half a last place decides whether the second rounding reaches another integer.
-/

namespace StreamDataProcessor.Utils.TimeConversion

open Foundation.Binary64 Foundation.TwosComplement Arrow Metadata Utils

set_option autoImplicit false

def ratio (source target : Metadata.TimeUnit) : ℚ := secondsIn source / secondsIn target

/-- The time in the target unit, truncated toward zero. -/
def exactTime (time : Int) (source target : Metadata.TimeUnit) : Int :=
  truncate (time * ratio source target)

/-- The conversion gives the exact time where it fits, and refuses it elsewhere. -/
def ConvertsExactly (time : Int) (source target : Metadata.TimeUnit) : Prop :=
  convertTime time source target =
    if FitsInt64 (exactTime time source target) then .ok (exactTime time source target)
    else fail .typeError "Overflow while converting durations"

section Truncation

theorem truncate_nonneg {value : ℚ} (nonneg : 0 ≤ value) : truncate value = ⌊value⌋ := by
  rw [truncate, Rat.floor_def', Int.tdiv_eq_ediv_of_nonneg (Rat.num_nonneg.mpr nonneg)]

theorem truncate_neg (value : ℚ) : truncate (-value) = -truncate value := by
  rw [truncate, truncate, Rat.neg_num, Rat.neg_den, Int.neg_tdiv]

theorem truncate_int (whole : Int) : truncate whole = whole := by
  rw [truncate, Rat.num_intCast, Rat.den_intCast, Int.natCast_one, Int.tdiv_one]

theorem truncate_eq_iff {first second : ℚ}
    (sameSign : 0 ≤ first ∧ 0 ≤ second ∨ first ≤ 0 ∧ second ≤ 0) :
    truncate first = truncate second ↔ ⌊|first|⌋ = ⌊|second|⌋ := by
  rcases sameSign with nonneg | nonpos
  · rw [abs_of_nonneg nonneg.1, abs_of_nonneg nonneg.2, truncate_nonneg nonneg.1,
      truncate_nonneg nonneg.2]
  · rw [abs_of_nonpos nonpos.1, abs_of_nonpos nonpos.2,
      ← truncate_nonneg (neg_nonneg.mpr nonpos.1), ← truncate_nonneg (neg_nonneg.mpr nonpos.2),
      truncate_neg, truncate_neg, neg_inj]

end Truncation

section Rounded

theorem checked_ok_iff (value : ℚ) (whole : Int) :
    checkedConvert value = .ok whole ↔
      truncate value = whole ∧ -2 ^ 63 ≤ value ∧ value < 2 ^ 63 := by
  unfold checkedConvert fail
  split_ifs with outside limit
  · constructor
    · intro failed
      cases failed
    · intro inside
      rcases outside with low | high <;> linarith
  · constructor
    · intro failed
      cases failed
    · intro inside
      linarith
  · push Not at outside
    have below : value < 2 ^ 63 := lt_of_le_of_ne outside.2 limit
    simp only [Except.ok.injEq, outside.1, below, and_true]

theorem checked_fails_iff (value : ℚ) :
    checkedConvert value = fail .typeError "Overflow while converting durations" ↔
      2 ^ 63 < |value| := by
  unfold checkedConvert fail
  have beyond : 2 ^ 63 < |value| ↔ value < -2 ^ 63 ∨ value > 2 ^ 63 := by
    rw [lt_abs, or_comm, lt_neg]
  rw [beyond]
  split_ifs with outside limit
  · simp only [outside]
  · simp [outside]
  · simp [outside]

theorem ratio_pos (source target : Metadata.TimeUnit) : 0 < ratio source target := by
  have seconds : ∀ unit, 0 < secondsIn unit := by
    intro unit
    cases unit <;> norm_num [secondsIn]
  exact div_pos (seconds source) (seconds target)

variable {product exact : ℚ}

/-- Half a last place below the next integer is where rounding reaches it. -/
theorem truncate_fractional_iff (fractional : lastPlace product < 0)
    (sameSign : 0 ≤ product ∧ 0 ≤ exact ∨ product ≤ 0 ∧ exact ≤ 0) :
    truncate (nearest product) = truncate exact ↔
      ⌊|product| + 2 ^ lastPlace product / 2⌋ = ⌊|exact|⌋ := by
  have place : lastPlace |product| = lastPlace product := by
    rcases abs_choice product with same | same <;> rw [same]
    exact last_place_neg product
  have rounded : 0 ≤ nearest product ∧ 0 ≤ exact ∨ nearest product ≤ 0 ∧ exact ≤ 0 := by
    rcases sameSign with nonneg | nonpos
    · exact .inl ⟨nearest_nonneg nonneg.1, nonneg.2⟩
    · have mirrored := nearest_nonneg (neg_nonneg.mpr nonpos.1)
      rw [nearest_neg] at mirrored
      exact .inr ⟨by linarith, nonpos.2⟩
  rw [truncate_eq_iff rounded, ← nearest_abs, floor_nearest (by rw [place]; exact fractional),
    place]

/-- A number that is closest to the product among the multiples of its last place. -/
def IsRounded (product : ℚ) (whole : Int) : Prop :=
  ∃ mantissa : Int, (whole : ℚ) = mantissa * 2 ^ lastPlace product ∧
    (|product - whole| < 2 ^ lastPlace product / 2 ∨
      |product - whole| = 2 ^ lastPlace product / 2 ∧ mantissa % 2 = 0)

theorem nearest_eq_iff (whole : Int) : nearest product = whole ↔ IsRounded product whole := by
  have unit : (0 : ℚ) < 2 ^ lastPlace product := zpow_pos two_pos _
  have scaled : ∀ mantissa : Int, |product / 2 ^ lastPlace product - mantissa| =
      |product - mantissa * 2 ^ lastPlace product| / 2 ^ lastPlace product := by
    intro mantissa
    rw [← abs_of_pos unit, ← abs_div, abs_of_pos unit]
    congr 1
    field_simp
  have rounds : ∀ mantissa : Int, roundHalfEven (product / 2 ^ lastPlace product) = mantissa ↔
      |product - mantissa * 2 ^ lastPlace product| < 2 ^ lastPlace product / 2 ∨
        |product - mantissa * 2 ^ lastPlace product| = 2 ^ lastPlace product / 2 ∧
          mantissa % 2 = 0 := by
    intro mantissa
    rw [round_half_even_iff, scaled, div_lt_iff₀ unit, div_eq_iff unit.ne', one_div_mul_eq_div]
  rw [nearest_eq]
  constructor
  · intro same
    refine ⟨_, same.symm, ?_⟩
    rw [← same]
    exact (rounds _).mp rfl
  · intro rounded
    obtain ⟨mantissa, whole, near⟩ := rounded
    rw [whole] at near ⊢
    rw [(rounds mantissa).mpr near]

theorem nearest_integral (integral : 0 ≤ lastPlace product) :
    ∃ whole : Int, nearest product = whole := by
  obtain ⟨place, same⟩ := Int.eq_ofNat_of_zero_le integral
  refine ⟨roundHalfEven (product / 2 ^ lastPlace product) * 2 ^ place, ?_⟩
  rw [nearest_eq, same]
  push_cast
  rw [zpow_natCast]

theorem truncate_integral_iff (integral : 0 ≤ lastPlace product) (whole : Int) :
    truncate (nearest product) = whole ↔ IsRounded product whole := by
  obtain ⟨rounded, same⟩ := nearest_integral integral
  rw [← nearest_eq_iff, same, truncate_int, Int.cast_inj]

end Rounded

section Conversion

variable {time : Int} {source target : Metadata.TimeUnit}

def product (time : Int) (source target : Metadata.TimeUnit) : ℚ :=
  nearest time * ratio source target

/-- The rounding of the product to 53 bits stops short of the next integer, or finds the
integer itself. Outside the range of the result, the product passes 2^63 by more than the
half place of the doubles there. -/
def RoundsSafely (time : Int) (source target : Metadata.TimeUnit) : Prop :=
  if FitsInt64 (exactTime time source target) then
    if lastPlace (product time source target) < 0 then
      ⌊|product time source target| + 2 ^ lastPlace (product time source target) / 2⌋ =
        ⌊|time * ratio source target|⌋
    else IsRounded (product time source target) (exactTime time source target)
  else 2 ^ 63 + 1024 < |product time source target|

theorem same_sign :
    0 ≤ product time source target ∧ 0 ≤ time * ratio source target ∨
      product time source target ≤ 0 ∧ time * ratio source target ≤ 0 := by
  have positive := (ratio_pos source target).le
  unfold product
  rcases le_total 0 time with nonneg | nonpos
  · have cast : (0 : ℚ) ≤ time := by exact_mod_cast nonneg
    exact .inl ⟨mul_nonneg (nearest_nonneg cast) positive, mul_nonneg cast positive⟩
  · have cast : (time : ℚ) ≤ 0 := by exact_mod_cast nonpos
    have mirrored := nearest_nonneg (neg_nonneg.mpr cast)
    rw [nearest_neg] at mirrored
    exact .inr ⟨mul_nonpos_of_nonpos_of_nonneg (by linarith) positive,
      mul_nonpos_of_nonpos_of_nonneg cast positive⟩

/-- In range, the conversion is exact when the rounded product is truncated to the exact time. -/
theorem converts_in_range_iff (differ : source ≠ target)
    (fits : FitsInt64 (exactTime time source target)) :
    ConvertsExactly time source target ↔
      truncate (nearest (product time source target)) = exactTime time source target := by
  unfold ConvertsExactly convertTime
  rw [if_neg differ, if_pos fits]
  change checkedConvert (nearest (product time source target)) = _ ↔ _
  rw [checked_ok_iff]
  apply and_iff_left_of_imp
  intro same
  by_cases fractional : lastPlace (product time source target) < 0
  · have small := abs_nearest_le (product time source target)
    have unit : (2 : ℚ) ^ lastPlace (product time source target) ≤ 2 ^ (0 : Int) :=
      zpow_le_zpow_right₀ one_le_two fractional.le
    rw [zpow_zero] at unit
    have bounds := abs_le.mp small
    constructor <;> linarith
  · obtain ⟨whole, rounded⟩ := nearest_integral (not_lt.mp fractional)
    rw [rounded, truncate_int] at same
    rw [rounded, same]
    constructor
    · exact_mod_cast fits.1
    · exact_mod_cast fits.2

theorem converts_out_of_range_iff (differ : source ≠ target)
    (wide : ¬FitsInt64 (exactTime time source target)) :
    ConvertsExactly time source target ↔
      2 ^ 63 + 1024 < |product time source target| := by
  unfold ConvertsExactly convertTime
  rw [if_neg differ, if_neg wide]
  change checkedConvert (nearest (product time source target)) = _ ↔ _
  rw [checked_fails_iff, abs_nearest_gt_iff]

theorem converts_iff (differ : source ≠ target) :
    ConvertsExactly time source target ↔ RoundsSafely time source target := by
  unfold RoundsSafely
  split
  · next fits =>
      rw [converts_in_range_iff differ fits]
      split
      · next fractional => exact truncate_fractional_iff fractional same_sign
      · next integral => exact truncate_integral_iff (not_lt.mp integral) _
  · next wide => exact converts_out_of_range_iff differ wide

theorem same_unit_converts (same : source = target) (int64 : FitsInt64 time) :
    ConvertsExactly time source target := by
  subst same
  have one : ratio source source = 1 := by
    cases source <;> norm_num [ratio, secondsIn]
  have exact : exactTime time source source = time := by
    rw [exactTime, one, mul_one, truncate_int]
  rw [ConvertsExactly, exact, if_pos int64, convertTime, if_pos rfl]

/-- Every conversion is exact or refused, unless its rounding is not safe. -/
theorem converts_exactly_iff (time : Int) (source target : Metadata.TimeUnit)
    (int64 : FitsInt64 time) :
    ConvertsExactly time source target ↔ source = target ∨ RoundsSafely time source target := by
  by_cases same : source = target
  · simp only [same, true_or, iff_true]
    exact same_unit_converts rfl int64
  · rw [converts_iff same]
    simp only [same, false_or]

theorem day_converts_exactly : ConvertsExactly 1 .day .nano ∧ RoundsSafely 1 .day .nano := by
  have converts : ConvertsExactly 1 .day .nano := by
    unfold ConvertsExactly
    decide +kernel
  have safe := (converts_exactly_iff 1 .day .nano (by decide)).mp converts
  exact ⟨converts, safe.resolve_left (by decide)⟩

/-- The last nanosecond of a year is converted to the first second of the next one. -/
theorem last_nanosecond_rounds_up :
    ¬∀ (time : Int) (source target : Metadata.TimeUnit), FitsInt64 time →
      ConvertsExactly time source target := by
  intro converts
  have converted := converts 1609459199999999999 .nano .second (by decide)
  revert converted
  unfold ConvertsExactly
  decide +kernel

theorem ratio_shape (source target : Metadata.TimeUnit) :
    (ratio source target).num = 1 ∨ (ratio source target).den = 1 := by
  cases source <;> cases target <;> decide +kernel

theorem truncate_within {value : ℚ} (small : |value| < 2 ^ 53) :
    FitsInt64 (truncate value) := by
  have magnitude : ∀ value : ℚ, 0 ≤ value → value < 2 ^ 53 →
      0 ≤ truncate value ∧ truncate value < 2 ^ 53 := by
    intro value nonneg below
    rw [truncate_nonneg nonneg, Int.floor_lt]
    exact ⟨Int.floor_nonneg.mpr nonneg, by exact_mod_cast below⟩
  unfold FitsInt64
  rcases le_total 0 value with nonneg | nonpos
  · have bounds := magnitude value nonneg (by rwa [abs_of_nonneg nonneg] at small)
    omega
  · have bounds := magnitude (-value) (neg_nonneg.mpr nonpos) (by rwa [abs_of_nonpos nonpos] at small)
    rw [truncate_neg] at bounds
    omega

/-- Less than one part of the denominator does not reach the next integer. -/
theorem floor_add_small {parts : Nat} {value step : ℚ} {count : Int} (some : 0 < parts)
    (counted : value * parts = count) (positive : 0 ≤ step) (small : step * parts < 1) :
    ⌊value + step⌋ = ⌊value⌋ := by
  have partsCast : (0 : ℚ) < parts := by exact_mod_cast some
  have lower := Int.floor_le value
  have upper := Int.lt_floor_add_one value
  have below : (count : ℚ) < ((⌊value⌋ + 1) * parts : Int) := by
    push_cast
    rw [← counted]
    exact mul_lt_mul_of_pos_right upper partsCast
  have next : count + 1 ≤ (⌊value⌋ + 1) * parts := by exact_mod_cast below
  have cast : (count : ℚ) + 1 ≤ (⌊value⌋ + 1) * parts := by exact_mod_cast next
  rw [← counted] at cast
  rw [Int.floor_eq_iff]
  refine ⟨by linarith, ?_⟩
  have scaled : (value + step) * parts < (⌊value⌋ + 1) * parts := by linarith
  exact lt_of_mul_lt_mul_right scaled partsCast.le

/-- Times and results of fewer than 54 bits are converted exactly. -/
theorem small_times_convert (int64 : FitsInt64 time) (small : |(time : ℚ)| < 2 ^ 53)
    (smallResult : |time * ratio source target| < 2 ^ 53) :
    ConvertsExactly time source target := by
  by_cases same : source = target
  · exact same_unit_converts same int64
  · have unrounded : product time source target = time * ratio source target := by
      rw [product, nearest_int small]
    have fits : FitsInt64 (exactTime time source target) := truncate_within smallResult
    by_cases whole : (ratio source target).den = 1
    · have integer : (time * ratio source target : ℚ) =
          ((time * (ratio source target).num : Int) : ℚ) := by
        conv_lhs => rw [← (Rat.den_eq_one_iff _).mp whole]
        push_cast
        rfl
      rw [converts_in_range_iff same fits, unrounded, exactTime]
      rw [integer] at smallResult ⊢
      rw [nearest_int smallResult]
    · by_cases zero : time * ratio source target = 0
      · rw [converts_in_range_iff same fits, unrounded, exactTime, zero, nearest, if_pos rfl]
      · have part := (ratio_shape source target).resolve_right whole
        have several : 2 ≤ (ratio source target).den := by
          have positive := (ratio source target).den_pos
          omega
        have parts : (2 : ℚ) ≤ (ratio source target).den := by exact_mod_cast several
        have counted : |time * ratio source target| * (ratio source target).den =
            ((|time| : Int) : ℚ) := by
          have one : ratio source target * (ratio source target).den = 1 := by
            rw [Rat.mul_den_eq_num, part, Int.cast_one]
          rw [abs_mul, abs_of_pos (ratio_pos source target), Int.cast_abs, mul_assoc, one, mul_one]
        have smallTime : |time * ratio source target| * (ratio source target).den < 2 ^ 53 := by
          rw [counted, Int.cast_abs]
          exact small
        have fractional : lastPlace (time * ratio source target) < 0 := by
          have half : |time * ratio source target| < 2 ^ 53 * 2 ^ (-1 : Int) := by
            have doubled := mul_le_mul_of_nonneg_left parts
              (abs_nonneg (time * ratio source target))
            have power : (2 : ℚ) ^ 53 * 2 ^ (-1 : Int) = 2 ^ 52 := by norm_num
            rw [power]
            linarith
          have place := last_place_le zero half
          omega
        have bounds := (last_place_bounds zero).1
        rw [converts_iff same, RoundsSafely, if_pos fits, unrounded, if_pos fractional]
        apply floor_add_small (ratio source target).den_pos counted
        · exact div_nonneg (zpow_nonneg two_pos.le _) two_pos.le
        · have scaled : 2 ^ 52 * 2 ^ lastPlace (time * ratio source target) *
              ((ratio source target).den : ℚ) < 2 ^ 53 :=
            lt_of_le_of_lt (mul_le_mul_of_nonneg_right bounds (by linarith)) smallTime
          linarith

end Conversion

end StreamDataProcessor.Utils.TimeConversion
