import StreamDataProcessor.Handlers.DerivativeFailure
import StreamDataProcessor.Handlers.ThresholdFailure
import StreamDataProcessor.Handlers.WindowFailure

/-!
# Runs of the stateful handlers with failed calls

Each handler changes its state before the last check of a call. In a run whose calls
meet the condition of their handler, the failed calls might never have been made.
-/

namespace StreamDataProcessor.Handlers

open Foundation.Attempts Foundation.Binary64 Foundation.Effect Foundation.Machine
open Foundation.TwosComplement Arrow Metadata

set_option autoImplicit false

/-- Every call that fails with a status leaves the state, and the calls after it go as if
it had not been made. -/
structure Undisturbed {State : Type} (call : RecordBatch → EStateM Fault State (List RecordBatch))
    (start : State) (batches : List RecordBatch) : Prop where
  unchanged : FailuresAtomic IsStatus call start batches
  forgotten : ∀ earlier failed later fault, batches = earlier ++ failed :: later →
    IsStatus fault →
    (attempt call (run (attempt call) start earlier).1 failed).2 = .error fault →
    run (attempt call) start batches =
      ((run (attempt call) start (earlier ++ later)).1,
        (run (attempt call) start earlier).2 ++ .error fault ::
          (run (attempt call) (run (attempt call) start earlier).1 later).2)

theorem undisturbed_of_meets {State : Type}
    {call : RecordBatch → EStateM Fault State (List RecordBatch)}
    {condition : State → RecordBatch → Prop}
    (atomic : ∀ state batch, condition state batch → Atomic IsStatus (call batch) state)
    (start : State) (batches : List RecordBatch)
    (meets : StepsMeet (attempt call) condition start batches) : Undisturbed call start batches := by
  have unchanged := failures_atomic_of_meets atomic meets
  refine ⟨unchanged, ?_⟩
  intro earlier failed later fault split isStatus fails
  subst split
  exact run_without_failed unchanged isStatus fails

/-- A call on a batch whose times are not parsed, under the condition of its handler. -/
def Meets {State : Type} (condition : State → RecordBatch → Prop) (state : State)
    (batch : RecordBatch) : Prop :=
  TimesUnparsed batch ∧ condition state batch

/-- In runs whose calls all meet the conditions of their handlers, failed calls leave no
trace. -/
theorem failed_calls_leave_no_trace (batches : List RecordBatch) :
    (∀ start,
      StepsMeet (attempt (Window.handleIn wrap64)) (Meets (Window.FailsFirst wrap64)) start
        batches →
        Undisturbed (Window.handleIn wrap64) start batches) ∧
    (∀ options start,
      StepsMeet (attempt (DynamicWindow.handle (DynamicWindow.windowHandlerIn wrap64) options))
        (Meets (DynamicWindow.FailsFirst wrap64 options)) start batches →
        Undisturbed (DynamicWindow.handle (DynamicWindow.windowHandlerIn wrap64) options) start
          batches) ∧
    (∀ calculator options start,
      StepsMeet (attempt (Derivative.handle calculator options))
        (Meets (Derivative.FailsFirst options)) start batches →
        Undisturbed (Derivative.handle calculator options) start batches) ∧
    ∀ (options : Threshold.Options Double) start,
      StepsMeet (attempt (Threshold.handle options)) (Meets (Threshold.FailsFirst options)) start
        batches →
        Undisturbed (Threshold.handle options) start batches := by
  refine ⟨?_, ?_, ?_, ?_⟩
  · intro start meets
    refine undisturbed_of_meets ?_ start batches meets
    exact fun _ _ meets => Window.handle_atomic meets.2
  · intro options start meets
    refine undisturbed_of_meets ?_ start batches meets
    exact fun _ _ meets => DynamicWindow.handle_atomic meets.2
  · intro calculator options start meets
    refine undisturbed_of_meets ?_ start batches meets
    exact fun _ _ meets => Derivative.handle_atomic meets.2
  · intro options start meets
    refine undisturbed_of_meets ?_ start batches meets
    exact fun _ _ meets => Threshold.handle_atomic meets.2

def untimedBatch : RecordBatch where
  schema := { fields := [{ name := "value", type := .utf8 }] }
  rows := [[some (.string "1")]]
  conforms := by
    intro row member
    rw [List.mem_singleton.mp member]
    exact .cons rfl .nil

def levelOptions : Threshold.Options Double where
  watchColumnName := "value"
  thresholdColumnName := "level"
  defaultThreshold := .finite 10
  increaseScaleFactor := .finite 2
  increaseAfter := 60
  decreaseTriggerFactor := .finite 0
  decreaseScaleFactor := .finite 0
  decreaseAfter := 0
  minThreshold := .finite 0
  maxThreshold := .finite 100

theorem untimed_batch_leaves_no_trace :
    Undisturbed (Window.handleIn wrap64) { options := { period := 10, every := 5 } }
        [untimedBatch] ∧
      Undisturbed (DynamicWindow.handle (DynamicWindow.windowHandlerIn wrap64) {})
        { options := { period := 10, every := 5 } } [untimedBatch] ∧
      Undisturbed (Derivative.handle (fun _ => none) ⟨1, 1, [], false⟩) {} [untimedBatch] ∧
      Undisturbed (Threshold.handle levelOptions) (.ok (.finite 10)) [untimedBatch] := by
  obtain ⟨window, dynamic, derivative, threshold⟩ := failed_calls_leave_no_trace [untimedBatch]
  have unparsed : TimesUnparsed untimedBatch := by
    intro name column named
    cases named
  refine ⟨window _ ⟨⟨unparsed, ?_⟩, trivial⟩, dynamic _ _ ⟨⟨unparsed, ?_⟩, trivial⟩,
    derivative _ _ _ ⟨⟨unparsed, ?_⟩, trivial⟩, threshold _ _ ⟨⟨unparsed, ?_⟩, trivial⟩⟩
  · intro name sorted column start maxTs named
    cases named
  · intro period every name sorted first _ _ named
    cases named
  · intro prepared isPrepared
    cases isPrepared
  · intro row _ moves
    obtain ⟨value, rowTime, valued, _⟩ := moves
    cases valued

def levelBatch : RecordBatch where
  schema := {
    fields := [{ name := "time", type := .timestamp .second }, { name := "value", type := .int64 },
      { name := "level", type := .int64 }]
    metadata := { timeColumnName := some "time" } }
  rows := [[some (.integer 5), some (.integer 20), some (.integer 10)]]
  conforms := by
    intro row member
    rw [List.mem_singleton.mp member]
    exact .cons rfl (.cons rfl (.cons rfl .nil))

def faultOf {Value : Type} : Outcome Value → Option Fault
  | .ok _ => none
  | .error fault => some fault

/-- The threshold column cannot be typed, but the alert has begun. -/
theorem level_batch_begins_alert :
    ¬((∀ options batches, Undisturbed (Window.handleIn wrap64) { options } batches) ∧
      (∀ options windowOptions batches,
        Undisturbed (DynamicWindow.handle (DynamicWindow.windowHandlerIn wrap64) options)
          { options := windowOptions } batches) ∧
      (∀ calculator options batches,
        Undisturbed (Derivative.handle calculator options) {} batches) ∧
      ∀ (options : Threshold.Options Double) batches,
        Undisturbed (Threshold.handle options) (Threshold.initialState options) batches) := by
  intro claim
  have moved : (attempt (Threshold.handle levelOptions) (.ok (.finite 10)) levelBatch).1 =
      .increase (.finite 10) 5 := by decide +kernel
  have raised : faultOf (attempt (Threshold.handle levelOptions) (.ok (.finite 10)) levelBatch).2 =
      some (.status ⟨.keyError, "No such column: level"⟩) := by decide +kernel
  cases failed : (attempt (Threshold.handle levelOptions) (.ok (.finite 10)) levelBatch).2 with
  | ok result =>
      rw [failed] at raised
      cases raised
  | error fault =>
      rw [failed] at raised
      cases raised
      have unchanged := (claim.2.2.2 levelOptions [levelBatch]).unchanged 0 (by decide) _ ⟨_, rfl⟩
        failed
      have same : (attempt (Threshold.handle levelOptions) (.ok (.finite 10)) levelBatch).1 = .ok (.finite 10) :=
        unchanged
      rw [moved] at same
      cases same

end StreamDataProcessor.Handlers
