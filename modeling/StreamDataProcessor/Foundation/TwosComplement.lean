import Mathlib.Algebra.Order.Ring.Int
import Mathlib.Algebra.Ring.Divisibility.Basic
import Mathlib.Data.Int.GCD
import Mathlib.Tactic.Ring

/-!
# Sums in 64 bits

A signed sum that leaves 64 bits wraps around. A counter that keeps adding a step comes
through all the numbers that are congruent to its start modulo the greatest power of two
in the step, so the greatest of these bounds it and is reached.
-/

namespace Foundation.TwosComplement

set_option autoImplicit false

def FitsInt64 (value : Int) : Prop := -2 ^ 63 ≤ value ∧ value < 2 ^ 63

instance (value : Int) : Decidable (FitsInt64 value) :=
  inferInstanceAs (Decidable (_ ∧ _))

/-- What 64 bits keep of an integer. -/
def wrap64 (value : Int) : Int := value.bmod (2 ^ 64)

theorem wrap_of_fits {value : Int} (fits : FitsInt64 value) : wrap64 value = value := by
  unfold FitsInt64 at fits
  exact Int.bmod_eq_of_le_mul_two (by omega) (by omega)

theorem wrap_fits (value : Int) : FitsInt64 (wrap64 value) := by
  have lower := @Int.le_bmod value (2 ^ 64) (by decide)
  have upper := @Int.bmod_lt value (2 ^ 64) (by decide)
  unfold FitsInt64 wrap64
  omega

@[simp] theorem wrap_wrap (value : Int) : wrap64 (wrap64 value) = wrap64 value :=
  wrap_of_fits (wrap_fits value)

@[simp] theorem wrap_wrap_add (value other : Int) :
    wrap64 (wrap64 value + other) = wrap64 (value + other) := Int.bmod_add_bmod

@[simp] theorem wrap_wrap_sub (value other : Int) :
    wrap64 (wrap64 value - other) = wrap64 (value - other) := wrap_wrap_add value (-other)

/-- `std::abs` of a 64-bit difference. -/
def absoluteDifference (value other : Int) : Int := wrap64 |wrap64 (value - other)|

theorem absolute_difference_of_fits {value other : Int} (fits : FitsInt64 (value - other))
    (back : FitsInt64 (other - value)) : absoluteDifference value other = |value - other| := by
  rw [absoluteDifference, wrap_of_fits fits]
  have nonneg := abs_nonneg (value - other)
  have below : |value - other| < 2 ^ 63 := abs_lt.mpr ⟨by have := back.2; omega, fits.2⟩
  exact wrap_of_fits ⟨by omega, below⟩

theorem wrap_eq_wrap_iff (value other : Int) :
    wrap64 value = wrap64 other ↔ (2 ^ 64 : Int) ∣ value - other := by
  constructor
  · intro same
    have residues := congrArg (· % ((2 ^ 64 : Nat) : Int)) same
    simp only [wrap64, Int.bmod_emod] at residues
    exact Int.dvd_of_emod_eq_zero (Int.emod_eq_emod_iff_emod_sub_eq_zero.mp residues)
  · intro divides
    have residues : value % ((2 ^ 64 : Nat) : Int) = other % ((2 ^ 64 : Nat) : Int) :=
      Int.emod_eq_emod_iff_emod_sub_eq_zero.mpr (Int.emod_eq_zero_of_dvd divides)
    rw [wrap64, wrap64, ← Int.emod_bmod, residues, Int.emod_bmod]

theorem dvd_wrap_sub (value : Int) : (2 ^ 64 : Int) ∣ wrap64 value - value := by
  rw [← wrap_eq_wrap_iff, wrap_wrap]

section Counter

variable (start step : Int)

/-- How far apart the numbers are that a counter with this step comes through. -/
def stride : Nat := step.gcd (2 ^ 64)

/-- The greatest 64-bit number congruent to the start. -/
def greatest : Int := 2 ^ 63 - stride step + (start + 2 ^ 63) % stride step

theorem stride_dvd : (stride step : Int) ∣ step := Int.gcd_dvd_left ..

theorem stride_dvd_modulus : (stride step : Int) ∣ 2 ^ 64 := Int.gcd_dvd_right ..

theorem stride_pos : 0 < stride step := Int.gcd_pos_of_ne_zero_right _ (by decide)

theorem stride_dvd_wrap (value : Int) : (stride step : Int) ∣ wrap64 value - value :=
  (stride_dvd_modulus step).trans (dvd_wrap_sub value)

theorem greatest_fits : FitsInt64 (greatest start step) := by
  have positive := stride_pos step
  have bound : stride step ≤ 2 ^ 64 :=
    Nat.le_of_dvd (by decide) (by exact_mod_cast stride_dvd_modulus step)
  have nonneg := Int.emod_nonneg (start + 2 ^ 63) (by omega : (stride step : Int) ≠ 0)
  have below := Int.emod_lt_of_pos (start + 2 ^ 63) (by omega : (0 : Int) < stride step)
  unfold FitsInt64 greatest
  omega

/-- The distance from the start to the greatest number is a multiple of the stride. -/
theorem stride_dvd_greatest : (stride step : Int) ∣ greatest start step - start := by
  have quotient := Int.emod_add_mul_ediv (start + 2 ^ 63) (stride step)
  have difference : greatest start step - start =
      2 ^ 64 - stride step - stride step * ((start + 2 ^ 63) / stride step) := by
    unfold greatest
    omega
  rw [difference]
  exact dvd_sub (dvd_sub (stride_dvd_modulus step) dvd_rfl) (Dvd.intro _ rfl)

theorem wrap_le_greatest (count : Nat) :
    wrap64 (start + count * step) ≤ greatest start step := by
  have congruent : (stride step : Int) ∣
      greatest start step - wrap64 (start + count * step) := by
    have parts : greatest start step - wrap64 (start + count * step) =
        greatest start step - start - count * step -
          (wrap64 (start + count * step) - (start + count * step)) := by ring
    rw [parts]
    exact dvd_sub (dvd_sub (stride_dvd_greatest start step) ((stride_dvd step).mul_left _))
      (stride_dvd_wrap step _)
  by_contra above
  have far := Int.le_of_dvd (by omega) (dvd_sub_comm.mp congruent)
  have upper := (wrap_fits (start + count * step)).2
  have nonneg := Int.emod_nonneg (start + 2 ^ 63)
    (Int.natCast_ne_zero.mpr (stride_pos step).ne')
  unfold greatest at far
  omega

/-- The greatest number is reached within `2 ^ 64` steps. -/
theorem greatest_reached :
    ∃ count : Nat, count < 2 ^ 64 ∧ wrap64 (start + count * step) = greatest start step := by
  obtain ⟨factor, distance⟩ := stride_dvd_greatest start step
  have bezout := Int.gcd_eq_gcd_ab step (2 ^ 64)
  let times := factor * Int.gcdA step (2 ^ 64)
  have nonneg := Int.emod_nonneg times (by decide : (2 ^ 64 : Int) ≠ 0)
  have below := Int.emod_lt_of_pos times (by decide : (0 : Int) < 2 ^ 64)
  refine ⟨(times % 2 ^ 64).toNat, by omega, ?_⟩
  rw [Int.toNat_of_nonneg nonneg, ← wrap_of_fits (greatest_fits start step), wrap_eq_wrap_iff]
  have quotient := Int.emod_add_mul_ediv times (2 ^ 64)
  have reduced : start + times % 2 ^ 64 * step - greatest start step =
      2 ^ 64 * (-(times / 2 ^ 64 * step) - factor * Int.gcdB step (2 ^ 64)) := by
    have residue : times % 2 ^ 64 = times - 2 ^ 64 * (times / 2 ^ 64) := by omega
    have total : greatest start step = start +
        (step * Int.gcdA step (2 ^ 64) + 2 ^ 64 * Int.gcdB step (2 ^ 64)) * factor := by
      rw [← bezout]
      have same : (stride step : Int) = (Int.gcd step (2 ^ 64) : Int) := rfl
      rw [← same, ← distance]
      ring
    rw [residue, total]
    ring
  rw [reduced]
  exact Dvd.intro _ rfl

end Counter

end Foundation.TwosComplement
