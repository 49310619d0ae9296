import Mathlib.Algebra.Polynomial.Taylor
import Mathlib.LinearAlgebra.Vandermonde

/-!
# Derivatives from values at nodes

The Taylor coefficients of the nodes at a point form a scaled Vandermonde matrix. Weights that
it sends to a unit vector give a derivative at the point from the values at the nodes, exactly
so for a polynomial with fewer coefficients than there are nodes.
-/

namespace Foundation.FiniteDifference

open Matrix Polynomial

set_option autoImplicit false

variable {K : Type} [Field K] {count : ℕ}

/-- The Taylor coefficients at a point, a column for each node. -/
def taylorMatrix (nodes : Fin count → K) (point : K) : Matrix (Fin count) (Fin count) K :=
  Matrix.of fun power node => (nodes node - point) ^ (power : ℕ) / ((power : ℕ).factorial : K)

theorem taylor_matrix_eq (nodes : Fin count → K) (point : K) :
    taylorMatrix nodes point =
      diagonal (fun power : Fin count => ((power : ℕ).factorial : K)⁻¹) *
        (vandermonde fun node => nodes node - point)ᵀ := by
  ext power node
  rw [diagonal_mul, transpose_apply, vandermonde_apply, taylorMatrix, of_apply, div_eq_inv_mul]

/-- Distinct nodes have a nonsingular matrix. -/
theorem det_taylor_matrix_ne_zero [CharZero K] {nodes : Fin count → K} (point : K)
    (distinct : Function.Injective nodes) : (taylorMatrix nodes point).det ≠ 0 := by
  have shifted : Function.Injective fun node => nodes node - point :=
    (sub_left_injective (b := point)).comp distinct
  have scales : (∏ power : Fin count, ((power : ℕ).factorial : K)⁻¹) ≠ 0 := by
    rw [Finset.prod_ne_zero_iff]
    intro power _
    exact inv_ne_zero (Nat.cast_ne_zero.mpr (power : ℕ).factorial_ne_zero)
  rw [taylor_matrix_eq, det_mul, det_diagonal, det_transpose]
  exact mul_ne_zero scales (det_vandermonde_ne_zero_iff.mpr shifted)

theorem eval_node [CharZero K] (nodes : Fin count → K) (point : K) {polynomial : K[X]}
    (bounded : polynomial.degree < count) (node : Fin count) :
    polynomial.eval (nodes node) =
      ∑ power : Fin count, (derivative^[power] polynomial).eval point *
        taylorMatrix nodes point power node := by
  have nonempty : 0 < count := node.pos
  have degree : (taylor point polynomial).natDegree < count := by
    rw [natDegree_taylor]
    by_cases zero : polynomial = 0
    · rw [zero, natDegree_zero]
      exact nonempty
    · exact (natDegree_lt_iff_degree_lt zero).mpr bounded
  have derivatives : ∀ power : ℕ, (derivative^[power] polynomial).eval point =
      (power.factorial : K) * (taylor point polynomial).coeff power := by
    intro power
    rw [← factorial_smul_hasseDeriv, taylor_coeff, LinearMap.smul_apply, eval_smul,
      nsmul_eq_mul]
  rw [← taylor_eval_sub point polynomial, eval_eq_sum_range' degree, Finset.sum_range]
  apply Finset.sum_congr rfl
  intro power _
  have factorial : ((power : ℕ).factorial : K) ≠ 0 :=
    Nat.cast_ne_zero.mpr (power : ℕ).factorial_ne_zero
  rw [derivatives, taylorMatrix, of_apply]
  field_simp

/-- The weights of a unit vector give the derivative of its order. -/
theorem weighted_values [CharZero K] {nodes : Fin count → K} {point : K} {polynomial : K[X]}
    {order : Fin count} {weights : Fin count → K} (bounded : polynomial.degree < count)
    (solves : taylorMatrix nodes point *ᵥ weights = Pi.single order 1) :
    ∑ node, polynomial.eval (nodes node) * weights node =
      (derivative^[order] polynomial).eval point := by
  calc ∑ node, polynomial.eval (nodes node) * weights node
      = ∑ node, ∑ power : Fin count, (derivative^[power] polynomial).eval point *
          (taylorMatrix nodes point power node * weights node) := by
        apply Finset.sum_congr rfl
        intro node _
        rw [eval_node nodes point bounded node, Finset.sum_mul]
        simp only [mul_assoc]
    _ = ∑ power : Fin count, (derivative^[power] polynomial).eval point *
          (taylorMatrix nodes point *ᵥ weights) power := by
        rw [Finset.sum_comm]
        simp only [mulVec, dotProduct, Finset.mul_sum]
    _ = (derivative^[order] polynomial).eval point := by
        rw [solves]
        simp only [Pi.single_apply, mul_ite, mul_one, mul_zero, Finset.sum_ite_eq',
          Finset.mem_univ, if_true]

end Foundation.FiniteDifference
