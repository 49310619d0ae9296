import Mathlib.Data.List.Basic
import Mathlib.Tactic.Common

/-!
# Binary search for the first position that passes a test

The test may fail to answer. Without any order the search still ends at a
boundary of the test; with a monotone test the boundary is the only one, and
cutting a list there is filtering it.
-/

namespace Foundation.BinarySearch

set_option autoImplicit false

variable {Error : Type*}

def narrow (probe : Nat → Except Error Bool) (stuck : Error) :
    Nat → Nat → Nat → Except Error (Nat × Nat)
  | 0, _, _ => .error stuck
  | fuel + 1, left, right =>
      if left + 1 = right then .ok (left, right)
      else do
        let middle := (left + right) / 2
        if ← probe middle then narrow probe stuck fuel left middle
        else narrow probe stuck fuel middle right

def lowerBound (probe : Nat → Except Error Bool) (stuck : Error) (length : Nat) :
    Except Error Nat := do
  let (left, right) ← narrow probe stuck (length + 1) 0 length
  if ← probe left then return left else return right

/-- The test changes at the position, or the position is an end that it allows. -/
structure Boundary (test : Nat → Bool) (length position : Nat) : Prop where
  bound : position ≤ length
  passes : position < length → test position = true
  fails : 0 < position → test (position - 1) = false

theorem narrow_ends {probe : Nat → Except Error Bool} {stuck : Error} {test : Nat → Bool}
    {length fuel left right : Nat}
    (answers : ∀ index, index < length → probe index = .ok (test index))
    (ordered : left < right) (within : right ≤ length) (enough : right - left ≤ fuel)
    (leftFails : left = 0 ∨ test left = false)
    (rightPasses : right = length ∨ test right = true) :
    ∃ final, narrow probe stuck fuel left right = .ok (final, final + 1) ∧
      final < length ∧ (final = 0 ∨ test final = false) ∧
      (final + 1 = length ∨ test (final + 1) = true) := by
  induction fuel generalizing left right with
  | zero => omega
  | succ fuel induction =>
      rw [narrow]
      by_cases adjacent : left + 1 = right
      · subst adjacent
        exact ⟨left, by rw [if_pos rfl], by omega, leftFails, rightPasses⟩
      · rw [if_neg adjacent]
        have probed := answers ((left + right) / 2) (by omega)
        simp only [probed, Except.bind, bind]
        cases verdict : test ((left + right) / 2) with
        | true =>
            exact induction (by omega) (by omega) (by omega) leftFails (.inr verdict)
        | false =>
            exact induction (by omega) within (by omega) (.inr verdict) rightPasses

theorem lower_bound_boundary {probe : Nat → Except Error Bool} (stuck : Error)
    {test : Nat → Bool} {length : Nat}
    (answers : ∀ index, index < length → probe index = .ok (test index))
    (nonempty : 0 < length) :
    ∃ position, lowerBound probe stuck length = .ok position ∧
      Boundary test length position := by
  obtain ⟨final, narrowed, within, fails, passes⟩ := @narrow_ends _ _ stuck _ _ (length + 1) 0
      length answers nonempty (Nat.le_refl _) (by omega)
    (.inl rfl) (.inl rfl)
  have probed := answers final within
  simp only [lowerBound, narrowed, probed, bind, Except.bind]
  cases verdict : test final with
  | true =>
      have first : final = 0 := fails.resolve_right (by simp [verdict])
      exact ⟨final, rfl, by omega, fun _ => verdict, by omega⟩
  | false =>
      exact ⟨final + 1, rfl, by omega, fun short => passes.resolve_left (by omega),
        fun _ => verdict⟩

theorem boundary_before_last {test : Nat → Bool} {length position : Nat}
    (boundary : Boundary test length position) (nonempty : 0 < length)
    (last : test (length - 1) = true) : position < length := by
  rcases Nat.lt_or_eq_of_le boundary.bound with inside | atEnd
  · exact inside
  · have fails := boundary.fails (by omega)
    rw [atEnd, last] at fails
    cases fails

/-- With a test that, once passed, stays passed, the boundary is the first position that passes. -/
theorem boundary_iff {test : Nat → Bool} {length position : Nat}
    (boundary : Boundary test length position)
    (monotone : ∀ earlier later, earlier ≤ later → later < length → test earlier = true →
      test later = true) {index : Nat} (within : index < length) :
    test index = true ↔ position ≤ index := by
  constructor
  · intro passed
    by_contra before
    have fails := boundary.fails (by omega)
    have last : position - 1 < length := by
      have := boundary.bound
      omega
    rw [monotone index (position - 1) (by omega) last passed] at fails
    cases fails
  · intro after
    exact monotone position index after within (boundary.passes (by omega))

section Lists

variable {Item : Type*}

theorem take_of_boundary {items : List Item} {test : Item → Bool} {position : Nat}
    (below : ∀ index, (bound : index < items.length) → index < position →
      test items[index] = false)
    (above : ∀ index, (bound : index < items.length) → position ≤ index →
      test items[index] = true) :
    items.take position = items.filter (fun item => !test item) ∧
      items.drop position = items.filter test := by
  have kept : ∀ item ∈ items.take position, test item = false := by
    intro item member
    obtain ⟨index, bound, rfl⟩ := List.mem_iff_getElem.mp member
    rw [List.length_take] at bound
    rw [List.getElem_take]
    exact below index (by omega) (by omega)
  have rest : ∀ item ∈ items.drop position, test item = true := by
    intro item member
    obtain ⟨index, bound, rfl⟩ := List.mem_iff_getElem.mp member
    rw [List.length_drop] at bound
    rw [List.getElem_drop]
    exact above _ (by omega) (by omega)
  constructor
  · conv_rhs => rw [← List.take_append_drop position items]
    rw [List.filter_append, List.filter_eq_self.mpr (by simpa using kept),
      List.filter_eq_nil_iff.mpr (by simpa using rest), List.append_nil]
  · conv_rhs => rw [← List.take_append_drop position items]
    rw [List.filter_append, List.filter_eq_nil_iff.mpr (by simpa using kept),
      List.filter_eq_self.mpr rest, List.nil_append]

/-- At a boundary of a test that, once passed, stays passed, the list is filtered. -/
theorem cut_at_boundary {items : List Item} {test : Item → Bool} {position : Nat}
    (sorted : items.Pairwise fun earlier later => test earlier = true → test later = true)
    (boundary : Boundary (fun index => (items[index]?).any test) items.length position) :
    items.take position = items.filter (fun item => !test item) ∧
      items.drop position = items.filter test := by
  have monotone : ∀ earlier later, earlier ≤ later → later < items.length →
      (items[earlier]?).any test = true → (items[later]?).any test = true := by
    intro earlier later le bound passed
    rcases Nat.lt_or_eq_of_le le with before | rfl
    · rw [List.getElem?_eq_getElem (by omega), Option.any_some] at passed ⊢
      exact List.pairwise_iff_getElem.mp sorted earlier later (by omega) bound before passed
    · exact passed
  have passes : ∀ index, (bound : index < items.length) →
      (test items[index] = true ↔ position ≤ index) := by
    intro index bound
    rw [← boundary_iff boundary monotone bound, List.getElem?_eq_getElem bound, Option.any_some]
  apply take_of_boundary
  · intro index bound before
    rw [← Bool.not_eq_true, passes index bound]
    omega
  · intro index bound after
    exact (passes index bound).mpr after

end Lists

end Foundation.BinarySearch
