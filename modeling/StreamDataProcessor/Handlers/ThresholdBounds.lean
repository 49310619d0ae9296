import StreamDataProcessor.Handlers.ThresholdLaw

/-!
# Where the adaptive threshold stays

Raising and lowering are clamped. Flapping back from a decrease scales the threshold too,
and is not.
-/

namespace StreamDataProcessor.Handlers.Threshold

open Foundation.Machine

set_option autoImplicit false

structure ValidOptions (options : Options ℚ) : Prop where
  minNonnegative : 0 ≤ options.minThreshold
  defaultAboveMin : options.minThreshold ≤ options.defaultThreshold
  defaultBelowMax : options.defaultThreshold ≤ options.maxThreshold
  increases : 1 ≤ options.increaseScaleFactor
  decreaseNonnegative : 0 ≤ options.decreaseScaleFactor
  decreases : options.decreaseScaleFactor ≤ 1
  triggerNonnegative : 0 ≤ options.decreaseTriggerFactor
  triggers : options.decreaseTriggerFactor ≤ 1

def Bounded (options : Options ℚ) (threshold : ℚ) : Prop :=
  options.minThreshold ≤ threshold ∧ threshold ≤ options.maxThreshold

/-- The row does not flap back from a decrease to a threshold under the least one. -/
def KeepsMinimum (options : Options ℚ) (state : ThresholdState ℚ) (row : WatchedRow) : Prop :=
  match state with
  | .decrease threshold _ =>
      row.value > threshold * options.decreaseTriggerFactor ∧ row.value ≤ threshold →
        options.minThreshold ≤ threshold * options.decreaseScaleFactor
  | _ => True

section Bounds

variable {options : Options ℚ} (valid : ValidOptions options)

include valid

theorem raised_bounded {threshold : ℚ} (bounded : Bounded options threshold) :
    Bounded options (min (threshold * options.increaseScaleFactor) options.maxThreshold) := by
  have nonnegative : 0 ≤ threshold := valid.minNonnegative.trans bounded.1
  have grows : threshold ≤ threshold * options.increaseScaleFactor :=
    le_mul_of_one_le_right nonnegative valid.increases
  exact ⟨le_min (bounded.1.trans grows) (bounded.1.trans bounded.2), min_le_right _ _⟩

theorem scaled_at_most {threshold : ℚ} (bounded : Bounded options threshold) :
    threshold * options.decreaseScaleFactor ≤ options.maxThreshold := by
  have nonnegative : 0 ≤ threshold := valid.minNonnegative.trans bounded.1
  have shrinks : threshold * options.decreaseScaleFactor ≤ threshold :=
    mul_le_of_le_one_right nonnegative valid.decreases
  exact shrinks.trans bounded.2

theorem lowered_bounded {threshold : ℚ} (bounded : Bounded options threshold) :
    Bounded options (max (threshold * options.decreaseScaleFactor) options.minThreshold) :=
  ⟨le_max_right _ _, max_le (scaled_at_most valid bounded) (bounded.1.trans bounded.2)⟩

theorem transition_bounded {state after : ThresholdState ℚ} {row : WatchedRow}
    (bounded : Bounded options state.currentThreshold)
    (keeps : KeepsMinimum options state row) (transition : Transition options row state after) :
    Bounded options after.currentThreshold := by
  cases transition with
  | observe observed =>
      rw [observed_threshold observed]
      exact bounded
  | staysAbove exceeds => exact bounded
  | staysBelow triggers => exact bounded
  | raise exceeds elapsed observed =>
      rw [observed_threshold observed]
      exact raised_bounded valid bounded
  | lower triggers elapsed observed =>
      rw [observed_threshold observed]
      exact lowered_bounded valid bounded
  | flapBack recovered low => exact ⟨keeps ⟨recovered, low⟩, scaled_at_most valid bounded⟩

theorem run_bounded {state : ThresholdState ℚ} {rows : List WatchedRow}
    (bounded : Bounded options state.currentThreshold)
    (keeps : StepsMeet (rowStep options) (KeepsMinimum options) state rows) :
    ∀ threshold ∈ (run (rowStep options) state rows).2, Bounded options threshold := by
  induction rows generalizing state with
  | nil => simp
  | cons row rest induction =>
      obtain ⟨first, others⟩ := keeps
      have next := transition_bounded valid bounded first (row_step_transition options state row)
      intro threshold member
      rw [run_cons] at member
      rcases List.mem_cons.mp member with rfl | later
      · rcases row_step_appends options state row with before | after
        · rw [before]
          exact bounded
        · rw [after]
          exact next
      · exact induction next others threshold later

/-- The thresholds that are written and the thresholds of all states reached stay between the
bounds exactly when no row of the run flaps back from a decrease below the least threshold. -/
theorem thresholds_bounded_iff (rows : List WatchedRow) :
    ((∀ threshold ∈ (run (rowStep options) (initialState options) rows).2,
        Bounded options threshold) ∧
      ∀ count ≤ rows.length, Bounded options (thresholdAfter options rows count)) ↔
    StepsMeet (rowStep options) (KeepsMinimum options) (initialState options) rows := by
  have initial : Bounded options (initialState options).currentThreshold :=
    ⟨valid.defaultAboveMin, valid.defaultBelowMax⟩
  constructor
  · intro bounded
    rw [steps_meet_iff]
    intro index bound
    have next := bounded.2 (index + 1) bound
    have before : stateAt (rowStep options) (initialState options) rows index =
        stateAfter options rows index := rfl
    rw [before]
    rw [thresholdAfter, state_after_succ index bound] at next
    cases state : stateAfter options rows index with
    | ok threshold => trivial
    | increase threshold start => trivial
    | decrease threshold start =>
        intro flaps
        rw [state, state_decrease_flap options threshold start _ flaps.1 flaps.2] at next
        exact next.1
  · intro keeps
    refine ⟨run_bounded valid initial keeps, ?_⟩
    intro count _
    exact state_at_invariant (rowStep options)
      (fun state row bounded keeps =>
        transition_bounded valid bounded keeps (row_step_transition options state row))
      initial keeps count

end Bounds

def boundedOptions : Options ℚ := { flappingOptions with minThreshold := 6 }

theorem bounded_options_valid : ValidOptions boundedOptions := by
  constructor <;> decide +kernel

theorem steady_rows_bounded :
    ((∀ threshold ∈ (run (rowStep boundedOptions) (initialState boundedOptions)
          [⟨8, 0⟩, ⟨12, 5⟩]).2, Bounded boundedOptions threshold) ∧
      ∀ count ≤ [WatchedRow.mk 8 0, ⟨12, 5⟩].length,
        Bounded boundedOptions (thresholdAfter boundedOptions [⟨8, 0⟩, ⟨12, 5⟩] count)) ↔
    StepsMeet (rowStep boundedOptions) (KeepsMinimum boundedOptions)
      (initialState boundedOptions) [⟨8, 0⟩, ⟨12, 5⟩] :=
  thresholds_bounded_iff bounded_options_valid _

/-- One second under the trigger level and back: the threshold is 5, under the least one. -/
theorem flap_undercuts_minimum :
    ¬∀ options, ValidOptions options → ∀ rows : List WatchedRow,
      (∀ threshold ∈ (run (rowStep options) (initialState options) rows).2,
        Bounded options threshold) ∧
      ∀ count ≤ rows.length, Bounded options (thresholdAfter options rows count) := by
  intro claim
  have low := ((claim boundedOptions bounded_options_valid [⟨4, 0⟩, ⟨8, 1⟩]).2 2 (by decide)).1
  exact absurd low (by decide +kernel)

end StreamDataProcessor.Handlers.Threshold
