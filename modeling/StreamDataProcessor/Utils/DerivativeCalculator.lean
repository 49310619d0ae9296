import StreamDataProcessor.Foundation.FiniteDifference
import Mathlib.LinearAlgebra.Matrix.NonsingularInverse

/-!
# The finite difference calculator

`FDDerivativeCalculator` of `compute_utils.cpp`, over exact numbers. The linear solvers of Eigen
and the rendering of a number in a message are parameters. The order is a `size_t`.
-/

namespace StreamDataProcessor.Utils.DerivativeCalculator

open Foundation.FiniteDifference

set_option autoImplicit false

inductive LinearSolver where
  | auto
  | partialPivLu
  | householderQr
  | colPivHouseholderQr
  deriving DecidableEq

abbrev Solve :=
  ∀ size : Nat, Matrix (Fin size) (Fin size) ℚ → (Fin size → ℚ) → Fin size → ℚ

structure Decompositions where
  partialPivLu : Solve
  householderQr : Solve
  colPivHouseholderQr : Solve

inductive Failure where
  | computeException (message : String)
  | undefined (what : String)
  deriving DecidableEq

section Calculation

variable (renderNumber : ℚ → String)

/-- The arguments in order, each of which is looked up among those before it. -/
def insertArguments : List ℚ → List ℚ → Except Failure (List ℚ)
  | xsSet, [] => .ok xsSet
  | xsSet, x :: rest =>
      if x ∈ xsSet then
        .error (.computeException
          s!"Found repeating argument {renderNumber x} which is not allowed")
      else insertArguments (x :: xsSet) rest

def taylorCoeff (delta : ℚ) : Nat → ℚ
  | 0 => 1
  | n + 1 => taylorCoeff delta n * (delta / (n + 1 : Nat))

def taylorCoeffsMatrix (xs : List ℚ) (xDer : ℚ) :
    Matrix (Fin xs.length) (Fin xs.length) ℚ :=
  Matrix.of fun n k => taylorCoeff (xs.get k - xDer) n

def Decompositions.solve (decompositions : Decompositions) : LinearSolver → Solve
  | .auto | .partialPivLu => decompositions.partialPivLu
  | .householderQr => decompositions.householderQr
  | .colPivHouseholderQr => decompositions.colPivHouseholderQr

def calculateDerivative (decompositions : Decompositions) (linearSolver : LinearSolver)
    (xs ys : List ℚ) (xDer : ℚ) (order : UInt64) : Except Failure ℚ :=
  if xs.length ≠ ys.length then
    .error (.computeException
      s!"Argument and value arrays have different sizes: {xs.length} and {ys.length}")
  else if xs.length < (order + 1).toNat then
    .error (.computeException
      s!"For calculating {order}-order derivative at least {order + 1} values are needed")
  else do
    let _ ← insertArguments renderNumber [] xs
    if order.toNat < xs.length then
      let resultVector : Fin xs.length → ℚ := fun row => if row = order.toNat then 1 else 0
      let derCoeffs := decompositions.solve linearSolver xs.length (taylorCoeffsMatrix xs xDer)
        resultVector
      return (List.finRange xs.length).foldl
        (fun derResult (i : Fin xs.length) => derResult + ys.getD i 0 * derCoeffs i) 0
    else .error (.undefined "result_vector(order) past the end")

variable {renderNumber : ℚ → String}

theorem taylor_coeff_eq (delta : ℚ) (n : Nat) :
    taylorCoeff delta n = delta ^ n / (n.factorial : ℚ) := by
  induction n with
  | zero => rw [taylorCoeff, pow_zero, Nat.factorial_zero, Nat.cast_one, div_one]
  | succ n induction =>
      rw [taylorCoeff, induction, div_mul_div_comm, pow_succ, Nat.factorial_succ, Nat.cast_mul,
        mul_comm ((n + 1 : Nat) : ℚ)]

theorem taylor_coeffs_matrix_eq (xs : List ℚ) (xDer : ℚ) :
    taylorCoeffsMatrix xs xDer = taylorMatrix xs.get xDer := by
  ext n k
  exact taylor_coeff_eq _ _

theorem insert_arguments_ok {xsSet xs : List ℚ} (distinct : (xs ++ xsSet).Nodup) :
    ∃ all, insertArguments renderNumber xsSet xs = .ok all := by
  induction xs generalizing xsSet with
  | nil => exact ⟨xsSet, rfl⟩
  | cons x rest induction =>
      have fresh : x ∉ xsSet := fun found =>
        (List.nodup_cons.mp distinct).1 (List.mem_append_right rest found)
      rw [insertArguments, if_neg fresh]
      exact induction (List.perm_middle.nodup_iff.mpr distinct)

theorem insert_arguments_repeating {xsSet xs : List ℚ} (distinct : xsSet.Nodup)
    (repeating : ¬(xs ++ xsSet).Nodup) :
    ∃ message, insertArguments renderNumber xsSet xs = .error (.computeException message) := by
  induction xs generalizing xsSet with
  | nil => exact absurd distinct repeating
  | cons x rest induction =>
      rw [insertArguments]
      by_cases found : x ∈ xsSet
      · rw [if_pos found]
        exact ⟨_, rfl⟩
      · rw [if_neg found]
        apply induction (List.nodup_cons.mpr ⟨found, distinct⟩)
        rw [List.perm_middle.nodup_iff]
        exact repeating

def SolvesNonsingular (solve : Solve) : Prop :=
  ∀ (size : Nat) (matrix : Matrix (Fin size) (Fin size) ℚ) (vector : Fin size → ℚ),
    matrix.det ≠ 0 → matrix.mulVec (solve size matrix vector) = vector

variable {decompositions : Decompositions} {linearSolver : LinearSolver} {xs ys : List ℚ}
  {xDer : ℚ} {order : UInt64}

theorem calculate_derivative_eq (sizes : xs.length = ys.length) (distinct : xs.Nodup)
    (checked : (order + 1).toNat ≤ xs.length) (bound : order.toNat < xs.length) :
    calculateDerivative renderNumber decompositions linearSolver xs ys xDer order =
      .ok (∑ i : Fin xs.length, ys.getD i 0 *
        decompositions.solve linearSolver xs.length (taylorCoeffsMatrix xs xDer)
          (Pi.single ⟨order.toNat, bound⟩ 1) i) := by
  have fresh : (xs ++ []).Nodup := by rwa [List.append_nil]
  obtain ⟨all, inserted⟩ := @insert_arguments_ok renderNumber [] xs fresh
  have unit : (fun row : Fin xs.length => if row = order.toNat then (1 : ℚ) else 0) =
      Pi.single ⟨order.toNat, bound⟩ 1 := by
    funext row
    rw [Pi.single_apply]
    simp only [Fin.ext_iff]
  rw [calculateDerivative, if_neg (not_not.mpr sizes), if_neg (Nat.not_lt.mpr checked), inserted]
  simp only [bind, Except.bind, if_pos bound, unit]
  rw [Fin.sum_univ_def, List.sum_eq_foldl, List.foldl_map]
  rfl

/-- The derivatives of polynomials, from as many values as they may have coefficients. -/
theorem calculate_derivative_of_polynomial
    (solves : SolvesNonsingular (decompositions.solve linearSolver)) (distinct : xs.Nodup)
    (enough : order.toNat < xs.length) {polynomial : Polynomial ℚ}
    (bounded : polynomial.degree < xs.length) :
    (taylorCoeffsMatrix xs xDer).det ≠ 0 ∧
      calculateDerivative renderNumber decompositions linearSolver xs
          (xs.map fun x => polynomial.eval x) xDer order =
        .ok ((Polynomial.derivative^[order.toNat] polynomial).eval xDer) := by
  have nonsingular : (taylorCoeffsMatrix xs xDer).det ≠ 0 := by
    rw [taylor_coeffs_matrix_eq]
    exact det_taylor_matrix_ne_zero xDer (List.nodup_iff_injective_get.mp distinct)
  have checked : (order + 1).toNat ≤ xs.length := by
    have wraps : (order + 1).toNat = (order.toNat + 1) % 2 ^ 64 := by
      rw [UInt64.toNat_add]
      rfl
    have less := Nat.mod_le (order.toNat + 1) (2 ^ 64)
    omega
  refine ⟨nonsingular, ?_⟩
  rw [calculate_derivative_eq (by rw [List.length_map]) distinct checked enough]
  have solved := solves xs.length (taylorCoeffsMatrix xs xDer)
    (Pi.single ⟨order.toNat, enough⟩ 1) nonsingular
  rw [taylor_coeffs_matrix_eq] at solved ⊢
  rw [← weighted_values bounded solved]
  congr 1
  apply Finset.sum_congr rfl
  intro i _
  simp

def ThrowsComputeException (result : Except Failure ℚ) : Prop :=
  ∃ message, result = .error (.computeException message)

/-- What a calculation is refused for. -/
def Refusable (xs ys : List ℚ) (order : UInt64) : Prop :=
  xs.length ≠ ys.length ∨ xs.length < order.toNat + 1 ∨ ¬xs.Nodup

/-- The derivative of a polynomial is exact, and what is refused is just what can be. -/
structure Exact (renderNumber : ℚ → String) (decompositions : Decompositions)
    (linearSolver : LinearSolver) (xs ys : List ℚ) (xDer : ℚ) (order : UInt64) : Prop where
  polynomials : ∀ polynomial : Polynomial ℚ, polynomial.degree < xs.length →
    ys = xs.map (fun x => polynomial.eval x) → xs.Nodup → order.toNat < xs.length →
      (taylorCoeffsMatrix xs xDer).det ≠ 0 ∧
        calculateDerivative renderNumber decompositions linearSolver xs ys xDer order =
          .ok ((Polynomial.derivative^[order.toNat] polynomial).eval xDer)
  refuses : ThrowsComputeException
      (calculateDerivative renderNumber decompositions linearSolver xs ys xDer order) ↔
    Refusable xs ys order

/-- Too few values are refused unless the number that is needed wraps around. -/
theorem refuses_iff :
    ThrowsComputeException
        (calculateDerivative renderNumber decompositions linearSolver xs ys xDer order) ↔
      xs.length ≠ ys.length ∨ xs.length < (order + 1).toNat ∨ ¬xs.Nodup := by
  by_cases sizes : xs.length = ys.length
  · by_cases few : xs.length < (order + 1).toNat
    · rw [calculateDerivative, if_neg (not_not.mpr sizes), if_pos few]
      exact ⟨fun _ => .inr (.inl few), fun _ => ⟨_, rfl⟩⟩
    · by_cases distinct : xs.Nodup
      · have returned : ∀ message, calculateDerivative renderNumber decompositions linearSolver
            xs ys xDer order ≠ .error (.computeException message) := by
          intro message
          by_cases bound : order.toNat < xs.length
          · rw [calculate_derivative_eq sizes distinct (Nat.not_lt.mp few) bound]
            intro thrown
            cases thrown
          · have fresh : (xs ++ []).Nodup := by rwa [List.append_nil]
            obtain ⟨all, inserted⟩ := @insert_arguments_ok renderNumber [] xs fresh
            rw [calculateDerivative, if_neg (not_not.mpr sizes), if_neg few, inserted]
            simp only [bind, Except.bind, if_neg bound]
            simp
        constructor
        · rintro ⟨message, thrown⟩
          exact absurd thrown (returned message)
        · rintro (other | less | repeating)
          · exact absurd sizes other
          · exact absurd less few
          · exact absurd distinct repeating
      · have repeating : ¬(xs ++ []).Nodup := by rwa [List.append_nil]
        obtain ⟨message, thrown⟩ :=
          @insert_arguments_repeating renderNumber [] xs List.nodup_nil repeating
        rw [calculateDerivative, if_neg (not_not.mpr sizes), if_neg few, thrown]
        exact ⟨fun _ => .inr (.inr distinct), fun _ => ⟨message, rfl⟩⟩
  · rw [calculateDerivative, if_pos sizes]
    exact ⟨fun _ => .inl sizes, fun _ => ⟨_, rfl⟩⟩

/-- A calculation is as it should be just when the number of values that it needs, where it is
compared at all, does not wrap around. -/
theorem exact_iff
    (solves : ∀ linearSolver, SolvesNonsingular (decompositions.solve linearSolver)) :
    Exact renderNumber decompositions linearSolver xs ys xDer order ↔
      order.toNat + 1 < 2 ^ 64 ∨ 2 ^ 64 ≤ xs.length ∨ xs.length ≠ ys.length ∨ ¬xs.Nodup := by
  have wraps : (order + 1).toNat = (order.toNat + 1) % 2 ^ 64 := by
    rw [UInt64.toNat_add]
    rfl
  have bound := order.toNat_lt
  have same : (xs.length ≠ ys.length ∨ xs.length < (order + 1).toNat ∨ ¬xs.Nodup ↔
      Refusable xs ys order) ↔
        order.toNat + 1 < 2 ^ 64 ∨ 2 ^ 64 ≤ xs.length ∨ xs.length ≠ ys.length ∨ ¬xs.Nodup := by
    unfold Refusable
    by_cases sizes : xs.length ≠ ys.length
    · simp [sizes]
    · by_cases distinct : xs.Nodup
      · simp only [sizes, distinct, not_true_eq_false, false_or, or_false]
        omega
      · simp [distinct]
  rw [← same, ← refuses_iff]
  constructor
  · exact Exact.refuses
  · intro refuses
    refine ⟨?_, refuses⟩
    rintro polynomial bounded rfl distinct enough
    exact calculate_derivative_of_polynomial (solves linearSolver) distinct enough bounded

end Calculation

def cramerSolve : Solve := fun _ matrix vector => matrix.det⁻¹ • matrix.cramer vector

theorem cramer_solve_solves : SolvesNonsingular cramerSolve := by
  intro size matrix vector nonsingular
  rw [cramerSolve, Matrix.mulVec_smul, Matrix.mulVec_cramer, smul_smul,
    inv_mul_cancel₀ nonsingular, one_smul]

/-- The slope of a line through two points. -/
theorem slope_exact : Exact toString ⟨cramerSolve, cramerSolve, cramerSolve⟩ .auto [0, 1] [1, 3] 5 1 :=
  (exact_iff (by
    rintro (_ | _ | _ | _)
    all_goals exact cramer_solve_solves)).mpr (.inl (by decide))

/-- No values are enough for the derivative of the greatest order. -/
theorem greatest_order_not_refused :
    ¬(ThrowsComputeException (calculateDerivative toString
        ⟨cramerSolve, cramerSolve, cramerSolve⟩ .auto [] [] 0 18446744073709551615) ↔
      Refusable [] [] 18446744073709551615) := by
  have wraps : ((18446744073709551615 : UInt64) + 1).toNat = 0 := by decide
  rw [refuses_iff, Refusable, wraps]
  simp

end StreamDataProcessor.Utils.DerivativeCalculator
