import StreamDataProcessor.Foundation.Machine
import StreamDataProcessor.Handlers.ThresholdStateMachine
import Mathlib.Tactic.Linarith

/-!
# When the adaptive threshold moves

Rows are read off a batch once; the machine then runs over their values and
times. A row either leaves the threshold, moves it after a condition that has
been sustained, or flaps back from a decrease.
-/

namespace StreamDataProcessor.Handlers.Threshold

open Foundation.Effect Foundation.Machine Arrow Metadata

set_option autoImplicit false

@[simp] theorem keep_exact (value : Int) : Arithmetic.keep ℚ value = value := rfl

structure WatchedRow where
  value : ℚ
  time : Int
  deriving DecidableEq

/-- One row through the machine: the next state and the appended threshold. -/
def rowStep (options : Options ℚ) (state : ThresholdState ℚ) (row : WatchedRow) :
    ThresholdState ℚ × ℚ :=
  match addThresholdForRow options (.ok row.value) (.ok row.time) state with
  | .ok threshold after => (after, threshold)
  | .error _ after => (after, after.currentThreshold)

/-- What `StateOK` makes of a row under the threshold it is given. -/
inductive Observed (options : Options ℚ) (row : WatchedRow) (threshold : ℚ) :
    ThresholdState ℚ → Prop where
  | within : Observed options row threshold (.ok threshold)
  | above (exceeds : row.value > threshold) :
      Observed options row threshold (.increase threshold row.time)
  | below (triggers : row.value ≤ threshold * options.decreaseTriggerFactor) :
      Observed options row threshold (.decrease threshold row.time)

inductive Transition (options : Options ℚ) (row : WatchedRow) :
    ThresholdState ℚ → ThresholdState ℚ → Prop where
  | observe {state after : ThresholdState ℚ}
      (observed : Observed options row state.currentThreshold after) :
      Transition options row state after
  | staysAbove {threshold : ℚ} {start : Int} (exceeds : row.value > threshold) :
      Transition options row (.increase threshold start) (.increase threshold start)
  | staysBelow {threshold : ℚ} {start : Int}
      (triggers : row.value ≤ threshold * options.decreaseTriggerFactor) :
      Transition options row (.decrease threshold start) (.decrease threshold start)
  | raise {threshold : ℚ} {start : Int} {after : ThresholdState ℚ}
      (exceeds : row.value > threshold) (elapsed : row.time - start > options.increaseAfter)
      (observed : Observed options row
        (min (threshold * options.increaseScaleFactor) options.maxThreshold) after) :
      Transition options row (.increase threshold start) after
  | lower {threshold : ℚ} {start : Int} {after : ThresholdState ℚ}
      (triggers : row.value ≤ threshold * options.decreaseTriggerFactor)
      (elapsed : row.time - start > options.decreaseAfter)
      (observed : Observed options row
        (max (threshold * options.decreaseScaleFactor) options.minThreshold) after) :
      Transition options row (.decrease threshold start) after
  | flapBack {threshold : ℚ} {start : Int}
      (recovered : row.value > threshold * options.decreaseTriggerFactor)
      (bounded : row.value ≤ threshold) :
      Transition options row (.decrease threshold start)
        (.ok (threshold * options.decreaseScaleFactor))

theorem observed_threshold {options : Options ℚ} {row : WatchedRow} {threshold : ℚ}
    {after : ThresholdState ℚ} (observed : Observed options row threshold after) :
    after.currentThreshold = threshold := by
  cases observed <;> rfl

theorem state_ok_observes (options : Options ℚ) (threshold : ℚ) (row : WatchedRow) :
    ∃ after, StateOK.addThresholdForRow options threshold (.ok row.value) (.ok row.time)
        (.ok threshold) = .ok threshold after ∧
      Observed options row threshold after := by
  simp only [StateOK.addThresholdForRow, bind_of_ok (of_except_ok _ _)]
  by_cases within : row.value ≤ threshold ∧
      row.value ≥ threshold * options.decreaseTriggerFactor
  · rw [if_pos within]
    exact ⟨_, rfl, .within⟩
  · rw [if_neg within]
    simp only [bind_of_ok (of_except_ok _ _)]
    by_cases exceeds : row.value > threshold
    · rw [if_pos exceeds]
      exact ⟨_, rfl, .above exceeds⟩
    · rw [if_neg exceeds]
      by_cases triggers : row.value ≤ threshold * options.decreaseTriggerFactor
      · rw [if_pos triggers]
        exact ⟨_, rfl, .below triggers⟩
      · rw [if_neg triggers]
        exact ⟨_, rfl, .within⟩

theorem state_increase_transition (options : Options ℚ) (threshold : ℚ) (start : Int)
    (row : WatchedRow) :
    ∃ appended after, StateIncrease.addThresholdForRow options threshold start
        (.ok row.value) (.ok row.time) (.increase threshold start) = .ok appended after ∧
      Transition options row (.increase threshold start) after ∧
      (appended = threshold ∨ appended = after.currentThreshold) := by
  simp only [StateIncrease.addThresholdForRow, bind_of_ok (of_except_ok _ _), keep_exact]
  by_cases fires : row.value > threshold ∧ row.time > start ∧
      row.time - start > options.increaseAfter
  · rw [if_pos fires, bind_of_ok (set_apply _ _)]
    obtain ⟨after, delegated, observed⟩ := state_ok_observes options
      (min (threshold * options.increaseScaleFactor) options.maxThreshold) row
    exact ⟨_, after, delegated, .raise fires.1 fires.2.2 observed,
      .inr (observed_threshold observed).symm⟩
  · rw [if_neg fires]
    by_cases bounded : row.value ≤ threshold
    · rw [if_pos bounded]
      exact ⟨_, _, rfl, .observe .within, .inl rfl⟩
    · rw [if_neg bounded]
      exact ⟨_, _, rfl, .staysAbove (not_le.mp bounded), .inl rfl⟩

theorem state_decrease_transition (options : Options ℚ) (threshold : ℚ) (start : Int)
    (row : WatchedRow) :
    ∃ appended after, StateDecrease.addThresholdForRow options threshold start
        (.ok row.value) (.ok row.time) (.decrease threshold start) = .ok appended after ∧
      Transition options row (.decrease threshold start) after ∧
      (appended = threshold ∨ appended = after.currentThreshold) := by
  simp only [StateDecrease.addThresholdForRow, bind_of_ok (of_except_ok _ _), keep_exact]
  by_cases fires : row.value ≤ threshold * options.decreaseTriggerFactor ∧
      row.time > start ∧ row.time - start > options.decreaseAfter
  · rw [if_pos fires, bind_of_ok (set_apply _ _)]
    obtain ⟨after, delegated, observed⟩ := state_ok_observes options
      (max (threshold * options.decreaseScaleFactor) options.minThreshold) row
    exact ⟨_, after, delegated, .lower fires.1 fires.2.2 observed,
      .inr (observed_threshold observed).symm⟩
  · rw [if_neg fires]
    by_cases exceeds : row.value > threshold
    · rw [if_pos exceeds]
      exact ⟨_, _, rfl, .observe (.above exceeds), .inl rfl⟩
    · rw [if_neg exceeds]
      by_cases recovered : row.value > threshold * options.decreaseTriggerFactor
      · rw [if_pos recovered]
        exact ⟨_, _, rfl, .flapBack recovered (not_lt.mp exceeds), .inl rfl⟩
      · rw [if_neg recovered]
        exact ⟨_, _, rfl, .staysBelow (not_lt.mp recovered), .inl rfl⟩

theorem row_transition (options : Options ℚ) (state : ThresholdState ℚ) (row : WatchedRow) :
    ∃ appended after, addThresholdForRow options (.ok row.value) (.ok row.time) state =
        .ok appended after ∧
      Transition options row state after ∧
      (appended = state.currentThreshold ∨ appended = after.currentThreshold) := by
  cases state with
  | ok threshold =>
      obtain ⟨after, returned, observed⟩ := state_ok_observes options threshold row
      exact ⟨_, after, returned, .observe observed, .inl rfl⟩
  | increase threshold start => exact state_increase_transition options threshold start row
  | decrease threshold start => exact state_decrease_transition options threshold start row

theorem row_step_returns (options : Options ℚ) (state : ThresholdState ℚ) (row : WatchedRow) :
    addThresholdForRow options (.ok row.value) (.ok row.time) state =
      .ok (rowStep options state row).2 (rowStep options state row).1 := by
  obtain ⟨appended, after, returned, _⟩ := row_transition options state row
  simp only [rowStep, returned]

theorem row_step_transition (options : Options ℚ) (state : ThresholdState ℚ) (row : WatchedRow) :
    Transition options row state (rowStep options state row).1 := by
  obtain ⟨appended, after, returned, transition, _⟩ := row_transition options state row
  simpa only [rowStep, returned] using transition

theorem row_step_appends (options : Options ℚ) (state : ThresholdState ℚ) (row : WatchedRow) :
    (rowStep options state row).2 = state.currentThreshold ∨
      (rowStep options state row).2 = (rowStep options state row).1.currentThreshold := by
  obtain ⟨appended, after, returned, _, appends⟩ := row_transition options state row
  simpa only [rowStep, returned] using appends

/-- The rows of a batch as the machine reads them. -/
def ReadsRow (options : Options ℚ) (batch : RecordBatch) (index : Nat) (row : WatchedRow) :
    Prop :=
  getColumnValueAtRow batch options.watchColumnName index = .ok row.value ∧
    getTimeAtRow ℚ batch index = .ok row.time

theorem add_threshold_for_rows_runs (options : Options ℚ) (batch : RecordBatch)
    (indices : List Nat) (rows : List WatchedRow) (state : ThresholdState ℚ)
    (read : List.Forall₂ (ReadsRow options batch) indices rows) :
    addThresholdForRows options batch indices state =
      .ok (run (rowStep options) state rows).2 (run (rowStep options) state rows).1 := by
  induction read generalizing state with
  | nil => rfl
  | @cons index row indices rows read others induction =>
      rw [addThresholdForRows, read.1, read.2,
        bind_of_ok (row_step_returns options state row), bind_of_ok (induction _)]
      rfl

/-- A batch whose rows can be read leaves the machine where the run over them ends,
whether or not the threshold column can then be added. -/
theorem handle_runs_rows (options : Options ℚ) (batch : RecordBatch) (rows : List WatchedRow)
    (state : ThresholdState ℚ)
    (read : List.Forall₂ (ReadsRow options batch) (List.range batch.numRows) rows) :
    (∃ result, handle options batch state =
        .ok result (run (rowStep options) state rows).1) ∨
      ∃ fault, handle options batch state =
        .error fault (run (rowStep options) state rows).1 := by
  unfold handle
  rw [bind_of_ok (add_threshold_for_rows_runs options batch _ rows state read)]
  cases batch.addColumn { name := options.thresholdColumnName, type := .double }
      (thresholdArray (run (rowStep options) state rows).2) with
  | error fault => exact .inr ⟨fault, rfl⟩
  | ok result =>
      rw [bind_of_ok (of_except_ok _ _)]
      cases setColumnTypeMetadata result options.thresholdColumnName
          options.thresholdColumnType with
      | error fault => exact .inr ⟨fault, rfl⟩
      | ok typed => exact .inl ⟨[typed], rfl⟩

section Law

variable (options : Options ℚ) (rows : List WatchedRow)

def stateAfter (count : Nat) : ThresholdState ℚ :=
  stateAt (rowStep options) (initialState options) rows count

/-- The threshold in force after the first `count` rows. -/
def thresholdAfter (count : Nat) : ℚ := (stateAfter options rows count).currentThreshold

/-- From row `start` on, up to `stop` rows in all, every value meets the condition
and `threshold` is what each of these rows leaves in force. -/
structure SustainedFrom (condition : ℚ → Prop) (threshold : ℚ) (start stop : Nat) :
    Prop where
  values : ∀ index, (bound : index < rows.length) → start ≤ index → index < stop →
    condition rows[index].value
  inForce : ∀ count, start < count → count ≤ stop → thresholdAfter options rows count = threshold

def Exceeds (threshold value : ℚ) : Prop := value > threshold

def Triggers (threshold value : ℚ) : Prop :=
  value ≤ threshold * options.decreaseTriggerFactor

/-- The timer of the state is the time of a row since which its condition holds. -/
def TimerJustified (count : Nat) : ThresholdState ℚ → Prop
  | .ok _ => True
  | .increase threshold start => ∃ index, ∃ bound : index < rows.length,
      index < count ∧ rows[index].time = start ∧
        SustainedFrom options rows (Exceeds threshold) threshold index count
  | .decrease threshold start => ∃ index, ∃ bound : index < rows.length,
      index < count ∧ rows[index].time = start ∧
        SustainedFrom options rows (Triggers options threshold) threshold index count

/-- The row at `index` moves the threshold only after a sustained condition. -/
def MovesOnlyWhenSustained (index : Nat) (bound : index < rows.length) : Prop :=
  let threshold := thresholdAfter options rows index
  let next := thresholdAfter options rows (index + 1)
  next ≠ threshold →
    (∃ start, ∃ before : start < index,
      SustainedFrom options rows (Exceeds threshold) threshold start index ∧
      Exceeds threshold rows[index].value ∧
      rows[index].time - rows[start].time > options.increaseAfter ∧
      next = min (threshold * options.increaseScaleFactor) options.maxThreshold) ∨
    (∃ start, ∃ before : start < index,
      SustainedFrom options rows (Triggers options threshold) threshold start index ∧
      Triggers options threshold rows[index].value ∧
      rows[index].time - rows[start].time > options.decreaseAfter ∧
      next = max (threshold * options.decreaseScaleFactor) options.minThreshold)

/-- The row does not flap back from a decrease under a factor that moves the
threshold. -/
def NoScalingFlap (state : ThresholdState ℚ) (row : WatchedRow) : Prop :=
  match state with
  | .decrease threshold _ =>
      ¬(row.value > threshold * options.decreaseTriggerFactor ∧ row.value ≤ threshold ∧
        threshold * options.decreaseScaleFactor ≠ threshold)
  | _ => True

variable {options rows}

theorem state_after_succ (index : Nat) (bound : index < rows.length) :
    stateAfter options rows (index + 1) =
      (rowStep options (stateAfter options rows index) rows[index]).1 :=
  state_at_succ (rowStep options) (initialState options) rows index bound

theorem transition_at (index : Nat) (bound : index < rows.length) :
    Transition options rows[index] (stateAfter options rows index)
      (stateAfter options rows (index + 1)) := by
  rw [state_after_succ index bound]
  exact row_step_transition options _ _

theorem sustained_from_self {condition : ℚ → Prop} {threshold : ℚ} (index : Nat)
    (bound : index < rows.length) (holds : condition rows[index].value)
    (inForce : thresholdAfter options rows (index + 1) = threshold) :
    SustainedFrom options rows condition threshold index (index + 1) where
  values := by
    intro row rowBound lower upper
    obtain rfl : row = index := by omega
    exact holds
  inForce := by
    intro count lower upper
    obtain rfl : count = index + 1 := by omega
    exact inForce

theorem sustained_from_extend {condition : ℚ → Prop} {threshold : ℚ} {start index : Nat}
    (sustained : SustainedFrom options rows condition threshold start index)
    (bound : index < rows.length) (holds : condition rows[index].value)
    (inForce : thresholdAfter options rows (index + 1) = threshold) :
    SustainedFrom options rows condition threshold start (index + 1) where
  values := by
    intro row rowBound lower upper
    rcases Nat.lt_succ_iff_lt_or_eq.mp upper with earlier | rfl
    · exact sustained.values row rowBound lower earlier
    · exact holds
  inForce := by
    intro count lower upper
    rcases Nat.le_succ_iff.mp upper with earlier | rfl
    · exact sustained.inForce count lower earlier
    · exact inForce

/-- A state `StateOK` has just chosen starts its timer at the row itself. -/
theorem observed_timer_justified {threshold : ℚ} (index : Nat) (bound : index < rows.length)
    (observed : Observed options rows[index] threshold
      (stateAfter options rows (index + 1))) :
    TimerJustified options rows (index + 1) (stateAfter options rows (index + 1)) := by
  have inForce : thresholdAfter options rows (index + 1) = threshold :=
    observed_threshold observed
  generalize stateAfter options rows (index + 1) = after at observed
  cases observed with
  | within => trivial
  | above exceeds =>
      exact ⟨index, bound, by omega, rfl, sustained_from_self index bound exceeds inForce⟩
  | below triggers =>
      exact ⟨index, bound, by omega, rfl, sustained_from_self index bound triggers inForce⟩

theorem timer_justified_step (index : Nat) (bound : index < rows.length)
    (justified : TimerJustified options rows index (stateAfter options rows index)) :
    TimerJustified options rows (index + 1) (stateAfter options rows (index + 1)) := by
  have transition := (@transition_at options) index bound
  have observes := fun threshold =>
    (@observed_timer_justified options _ threshold) index bound
  have inForce : ∀ threshold start,
      (stateAfter options rows (index + 1) = .increase threshold start ∨
        stateAfter options rows (index + 1) = .decrease threshold start) →
      thresholdAfter options rows (index + 1) = threshold := by
    intro threshold start states
    unfold thresholdAfter
    rcases states with state | state <;> rw [state] <;> rfl
  generalize stateAfter options rows (index + 1) = after at transition observes inForce
  generalize stateAfter options rows index = before at transition justified
  cases transition with
  | observe observed => exact observes _ observed
  | raise exceeds elapsed observed => exact observes _ observed
  | lower triggers elapsed observed => exact observes _ observed
  | flapBack recovered bounded => trivial
  | staysAbove exceeds =>
      obtain ⟨start, startBound, earlier, time, sustained⟩ := justified
      exact ⟨start, startBound, by omega, time,
        sustained_from_extend sustained bound exceeds (inForce _ _ (.inl rfl))⟩
  | staysBelow triggers =>
      obtain ⟨start, startBound, earlier, time, sustained⟩ := justified
      exact ⟨start, startBound, by omega, time,
        sustained_from_extend sustained bound triggers (inForce _ _ (.inr rfl))⟩

theorem timer_justified (count : Nat) (bound : count ≤ rows.length) :
    TimerJustified options rows count (stateAfter options rows count) := by
  induction count with
  | zero => trivial
  | succ index induction =>
      exact timer_justified_step index bound (induction (by omega))

theorem moves_only_when_sustained_of_no_flap (index : Nat) (bound : index < rows.length)
    (noFlap : NoScalingFlap options (stateAfter options rows index) rows[index]) :
    MovesOnlyWhenSustained options rows index bound := by
  have transition := (@transition_at options) index bound
  have justified := (@timer_justified options) index bound.le
  unfold MovesOnlyWhenSustained
  have before : thresholdAfter options rows index =
      (stateAfter options rows index).currentThreshold := rfl
  have next : thresholdAfter options rows (index + 1) =
      (stateAfter options rows (index + 1)).currentThreshold := rfl
  rw [next, before]
  dsimp only
  intro moved
  generalize stateAfter options rows (index + 1) = after at transition moved ⊢
  generalize stateAfter options rows index = state at transition justified noFlap moved ⊢
  cases transition with
  | observe observed => exact absurd (observed_threshold observed) moved
  | staysAbove exceeds => exact absurd rfl moved
  | staysBelow triggers => exact absurd rfl moved
  | raise exceeds elapsed observed =>
      obtain ⟨start, startBound, earlier, time, sustained⟩ := justified
      exact .inl ⟨start, earlier, sustained, exceeds, time ▸ elapsed,
        observed_threshold observed⟩
  | lower triggers elapsed observed =>
      obtain ⟨start, startBound, earlier, time, sustained⟩ := justified
      exact .inr ⟨start, earlier, sustained, triggers, time ▸ elapsed,
        observed_threshold observed⟩
  | flapBack recovered bounded => exact absurd ⟨recovered, bounded, moved⟩ noFlap

theorem state_decrease_flap (options : Options ℚ) (threshold : ℚ) (start : Int)
    (row : WatchedRow) (recovered : row.value > threshold * options.decreaseTriggerFactor)
    (bounded : row.value ≤ threshold) :
    (rowStep options (.decrease threshold start) row).1 =
      .ok (threshold * options.decreaseScaleFactor) := by
  have quiet : ¬(row.value ≤ threshold * options.decreaseTriggerFactor ∧ row.time > start ∧
      row.time - start > options.decreaseAfter) := fun fires => not_le.mpr recovered fires.1
  have returned : addThresholdForRow options (.ok row.value) (.ok row.time)
      (.decrease threshold start) =
        .ok threshold (.ok (threshold * options.decreaseScaleFactor)) := by
    simp only [addThresholdForRow, bind_of_ok (get_apply _), StateDecrease.addThresholdForRow,
      bind_of_ok (of_except_ok _ _), keep_exact]
    rw [if_neg quiet, if_neg (not_lt.mpr bounded), if_pos recovered]
    rfl
  simp only [rowStep, returned]

theorem no_flap_of_moves_only_when_sustained (index : Nat) (bound : index < rows.length)
    (law : MovesOnlyWhenSustained options rows index bound) :
    NoScalingFlap options (stateAfter options rows index) rows[index] := by
  cases state : stateAfter options rows index with
  | ok threshold => trivial
  | increase threshold start => trivial
  | decrease threshold start =>
      rintro ⟨recovered, bounded, scaled⟩
      have before : thresholdAfter options rows index = threshold := by
        rw [thresholdAfter, state]
        rfl
      have next : thresholdAfter options rows (index + 1) =
          threshold * options.decreaseScaleFactor := by
        rw [thresholdAfter, state_after_succ index bound, state,
          state_decrease_flap options threshold start _ recovered bounded]
        rfl
      unfold MovesOnlyWhenSustained at law
      rw [before, next] at law
      rcases law scaled with ⟨_, _, _, exceeds, _⟩ | ⟨_, _, _, triggers, _⟩
      · exact absurd bounded (not_le.mpr exceeds)
      · exact absurd triggers (not_le.mpr recovered)

end Law

/-- The threshold moves only after a sustained condition, along a whole run, exactly
when no row of the run flaps back under a factor that moves the threshold. -/
theorem threshold_moves_only_when_sustained_iff (options : Options ℚ)
    (rows : List WatchedRow) :
    (∀ index, (bound : index < rows.length) →
        MovesOnlyWhenSustained options rows index bound) ↔
      StepsMeet (rowStep options) (NoScalingFlap options) (initialState options) rows := by
  rw [steps_meet_iff]
  constructor
  · intro law index bound
    exact no_flap_of_moves_only_when_sustained index bound (law index bound)
  · intro noFlap index bound
    exact moves_only_when_sustained_of_no_flap index bound (noFlap index bound)

def flappingOptions : Options ℚ where
  watchColumnName := "value"
  thresholdColumnName := "threshold"
  defaultThreshold := 10
  increaseScaleFactor := 2
  increaseAfter := 10
  decreaseTriggerFactor := 1 / 2
  decreaseScaleFactor := 1 / 2
  decreaseAfter := 10
  minThreshold := 0
  maxThreshold := 100

/-- One second under the trigger level and back: the threshold is halved. -/
theorem threshold_moves_on_a_flap :
    ¬∀ index, (bound : index < [WatchedRow.mk 4 0, WatchedRow.mk 8 1].length) →
      MovesOnlyWhenSustained flappingOptions [WatchedRow.mk 4 0, WatchedRow.mk 8 1] index
        bound := by
  intro law
  have decreasing : stateAfter flappingOptions [WatchedRow.mk 4 0, WatchedRow.mk 8 1] 1 =
      .decrease 10 0 := by decide +kernel
  have noFlap := no_flap_of_moves_only_when_sustained 1 (by decide) (law 1 (by decide))
  rw [decreasing] at noFlap
  exact noFlap (by decide +kernel)

end StreamDataProcessor.Handlers.Threshold
