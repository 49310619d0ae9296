import StreamDataProcessor.Foundation.Binary64
import Mathlib.Tactic.NormNum
import Mathlib.Tactic.Linarith
import Mathlib.Tactic.Positivity
import Mathlib.Tactic.Ring

/-!
# Rounding to binary64

The place of the last significant bit of a rational, and what rounding at that place keeps.
-/

namespace Foundation.Binary64

set_option autoImplicit false

theorem log_bounds {value : Nat} (positive : value ≠ 0) :
    (2 : ℚ) ^ (Nat.log2 value : Int) ≤ value ∧ (value : ℚ) < 2 ^ (Nat.log2 value + 1 : Int) := by
  constructor
  · rw [zpow_natCast]
    exact_mod_cast Nat.log2_self_le positive
  · have above := Nat.lt_log2_self (n := value)
    have cast : (value : ℚ) < 2 ^ (Nat.log2 value + 1) := by exact_mod_cast above
    calc (value : ℚ) < 2 ^ (Nat.log2 value + 1) := cast
      _ = 2 ^ (Nat.log2 value + 1 : Int) := by norm_cast

/-- A value lies within a binade of the quotient of the leading bits of its parts. -/
theorem quotient_bounds {value : ℚ} (nonzero : value ≠ 0) :
    (2 : ℚ) ^ ((Nat.log2 value.num.natAbs : Int) - Nat.log2 value.den - 1) < |value| ∧
      |value| < 2 ^ ((Nat.log2 value.num.natAbs : Int) - Nat.log2 value.den + 1) := by
  have top := log_bounds (Int.natAbs_ne_zero.mpr (Rat.num_ne_zero.mpr nonzero))
  have bottom := log_bounds value.den_nz
  have isQuotient : |value| = (value.num.natAbs : ℚ) / value.den := by
    conv_lhs => rw [← Rat.num_div_den value, abs_div, Nat.abs_cast]
    rw [Nat.cast_natAbs, Int.cast_abs]
  have denominator : (0 : ℚ) < value.den := by exact_mod_cast value.den_pos
  have two : (2 : ℚ) ≠ 0 := two_ne_zero
  rw [isQuotient]
  constructor
  · rw [lt_div_iff₀ denominator]
    calc (2 : ℚ) ^ ((Nat.log2 value.num.natAbs : Int) - Nat.log2 value.den - 1) * value.den
        < 2 ^ ((Nat.log2 value.num.natAbs : Int) - Nat.log2 value.den - 1) *
            2 ^ (Nat.log2 value.den + 1 : Int) := by
          exact mul_lt_mul_of_pos_left bottom.2 (zpow_pos two_pos _)
      _ = 2 ^ (Nat.log2 value.num.natAbs : Int) := by
          rw [← zpow_add₀ two]
          congr 1
          ring
      _ ≤ value.num.natAbs := top.1
  · rw [div_lt_iff₀ denominator]
    calc (value.num.natAbs : ℚ) < 2 ^ (Nat.log2 value.num.natAbs + 1 : Int) := top.2
      _ = 2 ^ ((Nat.log2 value.num.natAbs : Int) - Nat.log2 value.den + 1) *
            2 ^ (Nat.log2 value.den : Int) := by
          rw [← zpow_add₀ two]
          congr 1
          ring
      _ ≤ 2 ^ ((Nat.log2 value.num.natAbs : Int) - Nat.log2 value.den + 1) * value.den :=
          mul_le_mul_of_nonneg_left bottom.1 (zpow_nonneg two_pos.le _)

theorem last_place_bounds {value : ℚ} (nonzero : value ≠ 0) :
    2 ^ 52 * 2 ^ lastPlace value ≤ |value| ∧ |value| < 2 ^ 53 * 2 ^ lastPlace value := by
  have bounds := quotient_bounds nonzero
  have two : (2 : ℚ) ≠ 0 := two_ne_zero
  have shift : ∀ (bits : Nat) (place : Int), (2 : ℚ) ^ bits * 2 ^ place = 2 ^ (bits + place) := by
    intro bits place
    rw [zpow_add₀ two, zpow_natCast]
  unfold lastPlace
  dsimp only
  simp only [shift]
  split
  · next low =>
    constructor
    · refine le_trans (le_of_eq ?_) bounds.1.le
      congr 1
      push_cast
      ring
    · refine lt_of_lt_of_eq low ?_
      congr 1
      push_cast
      ring
  · next high =>
    refine ⟨not_lt.mp high, lt_of_lt_of_eq bounds.2 ?_⟩
    congr 1
    push_cast
    ring

theorem floor_le_round (value : ℚ) : ⌊value⌋ ≤ roundHalfEven value := by
  unfold roundHalfEven
  dsimp only
  split_ifs <;> omega

theorem round_int (value : Int) : roundHalfEven value = value := by
  simp [roundHalfEven]

theorem round_half_even_iff (value : ℚ) (whole : Int) :
    roundHalfEven value = whole ↔
      |value - whole| < 1 / 2 ∨ |value - whole| = 1 / 2 ∧ whole % 2 = 0 := by
  have lower := Int.floor_le value
  have upper := Int.lt_floor_add_one value
  have close : |value - whole| ≤ 1 / 2 → ⌊value⌋ ≤ whole ∧ whole ≤ ⌊value⌋ + 1 := by
    intro near
    rw [abs_le] at near
    have above : (⌊value⌋ : ℚ) - 1 < whole := by linarith
    have below : (whole : ℚ) < ⌊value⌋ + 2 := by linarith
    have lowest : ⌊value⌋ - 1 < whole := by exact_mod_cast above
    have highest : whole < ⌊value⌋ + 2 := by exact_mod_cast below
    omega
  have atFloor : |value - (⌊value⌋ : Int)| = value - ⌊value⌋ := abs_of_nonneg (by linarith)
  have atNext : |value - ((⌊value⌋ + 1 : Int) : ℚ)| = ⌊value⌋ + 1 - value := by
    push_cast
    rw [abs_of_neg (by linarith)]
    ring
  unfold roundHalfEven
  dsimp only
  constructor
  · intro rounded
    split_ifs at rounded with low high even <;> subst rounded
    · rw [atFloor]
      exact .inl low
    · rw [atNext]
      exact .inl (by linarith)
    · rw [atFloor]
      exact .inr ⟨by linarith, even⟩
    · rw [atNext]
      exact .inr ⟨by linarith, by omega⟩
  · intro near
    have ends := close (near.elim le_of_lt fun tie => tie.1.le)
    have either : whole = ⌊value⌋ ∨ whole = ⌊value⌋ + 1 := by omega
    rcases either with rfl | rfl
    · rw [atFloor] at near
      rcases near with near | tie
      · rw [if_pos near]
      · rw [if_neg (by linarith), if_neg (by linarith), if_pos tie.2]
    · rw [atNext] at near
      rcases near with near | tie
      · rw [if_neg (by linarith), if_pos (by linarith)]
      · rw [if_neg (by linarith), if_neg (by linarith), if_neg (by omega)]

/-- No rounded value is more than half away. -/
theorem abs_sub_round_le (value : ℚ) : |value - roundHalfEven value| ≤ 1 / 2 := by
  rcases (round_half_even_iff value _).mp rfl with near | tie
  · exact near.le
  · exact tie.1.le

theorem round_neg (value : ℚ) : roundHalfEven (-value) = -roundHalfEven value := by
  rw [round_half_even_iff, Int.cast_neg, ← neg_sub', abs_neg, Int.neg_emod_two]
  exact (round_half_even_iff value _).mp rfl

theorem round_le_iff_of_even (value : ℚ) {whole : Int} (even : whole % 2 = 0) :
    roundHalfEven value ≤ whole ↔ value ≤ whole + 1 / 2 := by
  have distance := abs_sub_round_le value
  rw [abs_le] at distance
  constructor
  · intro below
    have cast : (roundHalfEven value : ℚ) ≤ whole := by exact_mod_cast below
    linarith
  · intro below
    by_contra above
    have next : whole + 1 ≤ roundHalfEven value := by omega
    have cast : (whole : ℚ) + 1 ≤ roundHalfEven value := by exact_mod_cast next
    have same : (roundHalfEven value : ℚ) = whole + 1 := by linarith
    rcases (round_half_even_iff value _).mp rfl with near | tie
    · rw [same, abs_lt] at near
      linarith
    · have odd : roundHalfEven value = whole + 1 := by exact_mod_cast same
      omega

theorem le_round_iff_of_even (value : ℚ) {whole : Int} (even : whole % 2 = 0) :
    whole ≤ roundHalfEven value ↔ (whole : ℚ) - 1 / 2 ≤ value := by
  have mirrored := @round_le_iff_of_even (-value) (-whole) (by omega)
  rw [round_neg, neg_le_neg_iff, Int.cast_neg] at mirrored
  rw [mirrored]
  constructor <;> intro bound <;> linarith

theorem round_half_even_mono {left right : ℚ} (le : left ≤ right) :
    roundHalfEven left ≤ roundHalfEven right := by
  by_contra above
  have next : (roundHalfEven right : ℚ) + 1 ≤ roundHalfEven left := by
    exact_mod_cast not_le.mp above
  have leftNear := abs_le.mp (abs_sub_round_le left)
  have rightNear := abs_le.mp (abs_sub_round_le right)
  obtain rfl : left = right := by linarith
  exact above le_rfl

theorem nearest_eq (value : ℚ) :
    nearest value = roundHalfEven (value / 2 ^ lastPlace value) * 2 ^ lastPlace value := by
  unfold nearest
  split
  · next zero =>
      have rounded : roundHalfEven 0 = 0 := round_int 0
      rw [zero, zero_div, rounded, Int.cast_zero, zero_mul]
  · rfl

theorem last_place_neg (value : ℚ) : lastPlace (-value) = lastPlace value := by
  unfold lastPlace
  rw [Rat.neg_num, Int.natAbs_neg, Rat.neg_den, abs_neg]

theorem nearest_neg (value : ℚ) : nearest (-value) = -nearest value := by
  rw [nearest_eq, nearest_eq, last_place_neg, neg_div, round_neg, Int.cast_neg, neg_mul]

theorem nearest_nonneg {value : ℚ} (nonneg : 0 ≤ value) : 0 ≤ nearest value := by
  have scaled : 0 ≤ value / 2 ^ lastPlace value := div_nonneg nonneg (zpow_nonneg two_pos.le _)
  have rounded : 0 ≤ roundHalfEven (value / 2 ^ lastPlace value) :=
    (Int.floor_nonneg.mpr scaled).trans (floor_le_round _)
  rw [nearest_eq]
  exact mul_nonneg (by exact_mod_cast rounded) (zpow_nonneg two_pos.le _)

theorem nearest_abs (value : ℚ) : nearest |value| = |nearest value| := by
  rcases le_total 0 value with nonneg | nonpos
  · rw [abs_of_nonneg nonneg, abs_of_nonneg (nearest_nonneg nonneg)]
  · have mirrored := nearest_nonneg (neg_nonneg.mpr nonpos)
    rw [nearest_neg] at mirrored
    rw [abs_of_nonpos nonpos, nearest_neg, abs_of_nonpos (by linarith)]

/-- Where there are bits below the integers, rounding reaches an integer from half a last
place below it. -/
theorem le_nearest_iff {value : ℚ} (fractional : lastPlace value < 0) (whole : Int) :
    (whole : ℚ) ≤ nearest value ↔ whole ≤ value + 2 ^ lastPlace value / 2 := by
  obtain ⟨bits, place⟩ : ∃ bits : Nat, lastPlace value = -((bits + 1 : Nat) : Int) :=
    ⟨(-lastPlace value - 1).toNat, by omega⟩
  have two : (2 : ℚ) ≠ 0 := two_ne_zero
  have unit : (0 : ℚ) < 2 ^ lastPlace value := zpow_pos two_pos _
  have scaled : (whole : ℚ) = ((whole * 2 ^ (bits + 1) : Int) : ℚ) * 2 ^ lastPlace value := by
    rw [place, zpow_neg, zpow_natCast]
    push_cast
    rw [mul_assoc, mul_inv_cancel₀ (pow_ne_zero _ two), mul_one]
  have even : whole * 2 ^ (bits + 1) % 2 = 0 := by
    rw [pow_succ, ← mul_assoc]
    exact Int.mul_emod_left _ _
  rw [nearest_eq, scaled, mul_le_mul_iff_left₀ unit, Int.cast_le, le_round_iff_of_even _ even,
    le_div_iff₀ unit, sub_mul]
  constructor <;> intro bound <;> linarith

theorem floor_nearest {value : ℚ} (fractional : lastPlace value < 0) :
    ⌊nearest value⌋ = ⌊value + 2 ^ lastPlace value / 2⌋ := by
  apply eq_of_forall_le_iff
  intro whole
  rw [Int.le_floor, Int.le_floor, le_nearest_iff fractional]

/-- Rounding keeps a value among the 53 bits above its last place. -/
theorem nearest_bounds {value : ℚ} (positive : 0 < value) :
    2 ^ 52 * 2 ^ lastPlace value ≤ nearest value ∧
      nearest value ≤ 2 ^ 53 * 2 ^ lastPlace value := by
  have bounds := last_place_bounds positive.ne'
  rw [abs_of_pos positive] at bounds
  have unit : (0 : ℚ) < 2 ^ lastPlace value := zpow_pos two_pos _
  have lower : (2 : ℚ) ^ 52 ≤ value / 2 ^ lastPlace value := (le_div_iff₀ unit).mpr bounds.1
  have upper : value / 2 ^ lastPlace value ≤ (2 : ℚ) ^ 53 := (div_le_iff₀ unit).mpr bounds.2.le
  have least : (2 ^ 52 : Int) ≤ roundHalfEven (value / 2 ^ lastPlace value) := by
    rw [le_round_iff_of_even _ (by decide)]
    push_cast
    linarith
  have most : roundHalfEven (value / 2 ^ lastPlace value) ≤ (2 ^ 53 : Int) := by
    rw [round_le_iff_of_even _ (by decide)]
    push_cast
    linarith
  rw [nearest_eq, mul_le_mul_iff_left₀ unit, mul_le_mul_iff_left₀ unit]
  constructor
  · exact_mod_cast least
  · exact_mod_cast most

theorem nearest_mono_of_pos {left right : ℚ} (positive : 0 < left) (le : left ≤ right) :
    nearest left ≤ nearest right := by
  have leftBounds := last_place_bounds positive.ne'
  have rightBounds := last_place_bounds (positive.trans_le le).ne'
  rw [abs_of_pos positive] at leftBounds
  rw [abs_of_pos (positive.trans_le le)] at rightBounds
  have power : ∀ first second : Int, first < second → (2 : ℚ) * 2 ^ first ≤ 2 ^ second := by
    intro first second before
    rw [mul_comm, ← zpow_add_one₀ two_ne_zero]
    exact zpow_le_zpow_right₀ one_le_two before
  rcases lt_trichotomy (lastPlace left) (lastPlace right) with below | same | above
  · have apart := power _ _ below
    have leftMost := (nearest_bounds positive).2
    have rightLeast := (nearest_bounds (positive.trans_le le)).1
    linarith
  · rw [nearest_eq, nearest_eq, same]
    have unit : (0 : ℚ) ≤ 2 ^ lastPlace right := zpow_nonneg two_pos.le _
    have rounded := round_half_even_mono (div_le_div_of_nonneg_right le unit)
    exact mul_le_mul_of_nonneg_right (by exact_mod_cast rounded) unit
  · have apart := power _ _ above
    linarith

theorem nearest_mono {left right : ℚ} (le : left ≤ right) : nearest left ≤ nearest right := by
  rcases lt_or_ge 0 left with positive | nonpos
  · exact nearest_mono_of_pos positive le
  · have low : nearest left ≤ 0 := by
      have mirrored := nearest_nonneg (neg_nonneg.mpr nonpos)
      rw [nearest_neg] at mirrored
      linarith
    rcases le_or_gt 0 right with nonneg | negative
    · exact low.trans (nearest_nonneg nonneg)
    · have mirrored := nearest_mono_of_pos (neg_pos.mpr negative) (neg_le_neg le)
      rw [nearest_neg, nearest_neg] at mirrored
      exact neg_le_neg_iff.mp mirrored

/-- What is rounded to more than 2^63. -/
theorem nearest_gt_iff {value : ℚ} (positive : 0 < value) :
    2 ^ 63 < nearest value ↔ 2 ^ 63 + 1024 < value := by
  have bounds := last_place_bounds positive.ne'
  rw [abs_of_pos positive] at bounds
  have rounded := nearest_bounds positive
  have power : ∀ first second : Int, first ≤ second → (2 : ℚ) ^ first ≤ 2 ^ second :=
    fun first second => zpow_le_zpow_right₀ one_le_two
  rcases lt_trichotomy (lastPlace value) 11 with small | same | large
  · have unit := power (lastPlace value) 10 (by omega)
    norm_num at unit
    constructor <;> intro above <;> linarith
  · have split := round_le_iff_of_even (value / 2 ^ lastPlace value)
      (by decide : (2 ^ 52 : Int) % 2 = 0)
    rw [nearest_eq, same]
    rw [same] at split
    have above : (2 ^ 63 : ℚ) < roundHalfEven (value / 2 ^ (11 : Int)) * 2 ^ (11 : Int) ↔
        ¬roundHalfEven (value / 2 ^ (11 : Int)) ≤ (2 ^ 52 : Int) := by
      rw [not_le, ← @Int.cast_lt ℚ]
      norm_num
      constructor <;> intro bound <;> linarith
    rw [above, split, not_le]
    norm_num
    constructor <;> intro bound <;> linarith
  · have unit := power 12 (lastPlace value) (by omega)
    norm_num at unit
    constructor <;> intro above <;> linarith

theorem abs_nearest_le (value : ℚ) : |nearest value| ≤ 2 ^ 53 * 2 ^ lastPlace value := by
  by_cases zero : value = 0
  · rw [zero, nearest, if_pos rfl, abs_zero]
    exact mul_nonneg (by norm_num) (zpow_nonneg two_pos.le _)
  · have place : lastPlace |value| = lastPlace value := by
      rcases abs_choice value with same | same <;> rw [same]
      exact last_place_neg value
    have bounds := (nearest_bounds (abs_pos.mpr zero)).2
    rw [place, nearest_abs] at bounds
    exact bounds

theorem abs_nearest_gt_iff (value : ℚ) :
    2 ^ 63 < |nearest value| ↔ 2 ^ 63 + 1024 < |value| := by
  by_cases zero : value = 0
  · rw [zero, nearest, if_pos rfl, abs_zero]
    norm_num
  · rw [← nearest_abs, nearest_gt_iff (abs_pos.mpr zero)]

theorem last_place_le {value : ℚ} (nonzero : value ≠ 0) {place : Int}
    (small : |value| < 2 ^ 53 * 2 ^ place) : lastPlace value ≤ place := by
  have bounds := (last_place_bounds nonzero).1
  by_contra above
  have two : (2 : ℚ) ≠ 0 := two_ne_zero
  have next : (2 : ℚ) ^ (place + 1) ≤ 2 ^ lastPlace value :=
    zpow_le_zpow_right₀ one_le_two (by omega)
  rw [zpow_add₀ two, zpow_one] at next
  linarith

theorem nearest_int {whole : Int} (small : |(whole : ℚ)| < 2 ^ 53) :
    nearest whole = whole := by
  by_cases zero : (whole : ℚ) = 0
  · rw [zero, nearest, if_pos rfl]
  · have place : lastPlace (whole : ℚ) ≤ 0 := last_place_le zero (by simpa using small)
    obtain ⟨bits, same⟩ : ∃ bits : Nat, lastPlace (whole : ℚ) = -(bits : Int) :=
      ⟨(-lastPlace (whole : ℚ)).toNat, by omega⟩
    have scaled : (whole : ℚ) / 2 ^ lastPlace (whole : ℚ) = ((whole * 2 ^ bits : Int) : ℚ) := by
      rw [same, zpow_neg, zpow_natCast, div_inv_eq_mul]
      push_cast
      rfl
    rw [nearest_eq, scaled, round_int, ← scaled, div_mul_cancel₀]
    exact (zpow_pos two_pos _).ne'

def nearestInt (whole : Int) : Int := ⌊nearest whole⌋

theorem nearest_int_mono {left right : Int} (le : left ≤ right) :
    nearestInt left ≤ nearestInt right :=
  Int.floor_mono (nearest_mono (by exact_mod_cast le))

theorem nearest_int_cast (whole : Int) : (nearestInt whole : ℚ) = nearest whole := by
  by_cases small : |(whole : ℚ)| < 2 ^ 53
  · rw [nearestInt, nearest_int small, Int.floor_intCast]
  · have nonzero : (whole : ℚ) ≠ 0 := by
      intro zero
      rw [zero, abs_zero] at small
      exact small (by norm_num)
    have bounds := (last_place_bounds nonzero).2
    have place : 0 ≤ lastPlace (whole : ℚ) := by
      by_contra fractional
      have below : (2 : ℚ) ^ lastPlace (whole : ℚ) ≤ 2 ^ (0 : Int) :=
        zpow_le_zpow_right₀ one_le_two (by omega)
      rw [zpow_zero] at below
      linarith
    obtain ⟨bits, same⟩ := Int.eq_ofNat_of_zero_le place
    have integral : nearest (whole : ℚ) =
        ((roundHalfEven ((whole : ℚ) / 2 ^ lastPlace (whole : ℚ)) * 2 ^ bits : Int) : ℚ) := by
      rw [nearest_eq, same]
      push_cast
      rw [zpow_natCast]
    rw [nearestInt, integral, Int.floor_intCast]

theorem nearest_int_small {whole : Int} (low : -2 ^ 53 < whole) (high : whole < 2 ^ 53) :
    nearestInt whole = whole := by
  have small : |(whole : ℚ)| < 2 ^ 53 := abs_lt.mpr ⟨by exact_mod_cast low, by exact_mod_cast high⟩
  rw [nearestInt, nearest_int small, Int.floor_intCast]

theorem nearest_int_neg (whole : Int) : nearestInt (-whole) = -nearestInt whole := by
  have mirrored : ((nearestInt (-whole) : Int) : ℚ) = ((-nearestInt whole : Int) : ℚ) := by
    rw [nearest_int_cast, Int.cast_neg, Int.cast_neg, nearest_int_cast, nearest_neg]
  exact_mod_cast mirrored

/-- What needs more than 53 bits is not rounded below them. -/
theorem nearest_int_large {whole : Int} (large : 2 ^ 53 ≤ whole) : 2 ^ 53 ≤ nearestInt whole := by
  have cast : (2 : ℚ) ^ 53 ≤ whole := by exact_mod_cast large
  have positive : (0 : ℚ) < whole := lt_of_lt_of_le (by norm_num) cast
  have bounds := (last_place_bounds positive.ne').2
  rw [abs_of_pos positive] at bounds
  have place : 1 ≤ lastPlace (whole : ℚ) := by
    by_contra small
    have below : (2 : ℚ) ^ lastPlace (whole : ℚ) ≤ 2 ^ (0 : Int) :=
      zpow_le_zpow_right₀ one_le_two (by omega)
    rw [zpow_zero] at below
    linarith
  have unit : (2 : ℚ) ^ (1 : Int) ≤ 2 ^ lastPlace (whole : ℚ) :=
    zpow_le_zpow_right₀ one_le_two place
  have rounded := (nearest_bounds positive).1
  rw [zpow_one] at unit
  have least : (2 : ℚ) ^ 53 ≤ (nearestInt whole : ℚ) := by
    rw [nearest_int_cast]
    linarith
  exact_mod_cast least

theorem nearest_int_nonpos {whole : Int} (nonpos : whole ≤ 0) : nearestInt whole ≤ 0 := by
  have zero : nearestInt 0 = 0 := nearest_int_small (by decide) (by decide)
  rw [← zero]
  exact nearest_int_mono nonpos

theorem one_le_nearest_int {whole : Int} (positive : 0 < whole) : 1 ≤ nearestInt whole := by
  have one : nearestInt 1 = 1 := nearest_int_small (by decide) (by decide)
  rw [← one]
  exact nearest_int_mono positive

theorem nearest_int_nonneg_iff (whole : Int) : 0 ≤ nearestInt whole ↔ 0 ≤ whole := by
  constructor
  · intro rounded
    by_contra negative
    by_cases small : -2 ^ 53 < whole
    · rw [nearest_int_small small (by omega)] at rounded
      exact negative rounded
    · have large := @nearest_int_large (-whole) (by omega)
      rw [nearest_int_neg] at large
      omega
  · intro nonneg
    by_cases small : whole < 2 ^ 53
    · rw [nearest_int_small (by omega) small]
      exact nonneg
    · have large := @nearest_int_large whole (by omega)
      omega

end Foundation.Binary64
