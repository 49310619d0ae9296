import StreamDataProcessor.Handlers.Emissions

/-!
# Where no sum of seconds wraps around

The handler of the program takes the turns of the handler on unbounded seconds as long as
the first boundary, the one after each boundary that the clock has reached and the starts
of their periods fit 64 bits.
-/

namespace StreamDataProcessor.Handlers.Window

open Foundation Foundation.Effect Foundation.HoppingWindow Foundation.TwosComplement
  Arrow Metadata Utils

set_option autoImplicit false

section Plans

variable {keep : Int → Int} {holds : WindowOptions → Int → Prop}

/-- A step that keeps a property of the options and of `next_emit_`. -/
abbrev KeepsPlan {Value : Type} (holds : WindowOptions → Int → Prop) (step : Step Value) : Prop :=
  Preserves (fun handler => holds handler.options handler.nextEmit) step

theorem remove_old_records_keeps_plan : KeepsPlan holds (removeOldRecordsIn keep) := by
  refine preserves_get_bind fun handler same => ?_
  exact preserves_bind (preserves_set same) fun _ => preserves_of_except _

theorem emit_window_keeps_plan : KeepsPlan holds (emitWindowIn keep) := by
  refine preserves_bind remove_old_records_keeps_plan fun _ => ?_
  refine preserves_get_bind fun handler _ => ?_
  cases handler.bufferedRecordBatches with
  | nil => exact preserves_pure []
  | cons front rest => exact preserves_of_except _

theorem emit_buffered_keeps_plan : KeepsPlan holds (emitBufferedIn keep) :=
  preserves_get_bind fun _ _ => preserves_ite emit_window_keeps_plan (preserves_pure [])

theorem plan_unmoved {Value : Type} {step : Step Value}
    (keeps : ∀ holds, KeepsPlan holds step) (handler : WindowHandler) :
    Ends (fun _ _ => True)
      (fun _ after => after.options = handler.options ∧ after.nextEmit = handler.nextEmit)
      (step handler) :=
  ends_mono (keeps (fun options next => options = handler.options ∧ next = handler.nextEmit)
    handler ⟨rfl, rfl⟩) (fun _ _ _ => trivial) fun _ _ plan => plan

/-- The turns of a loop keep what the next boundary has again. -/
theorem emit_due_keeps_plan
    (moves : ∀ options next, holds options next → holds options (keep (next + options.every)))
    (timeColumnName : String) (sortedRecordBatch : RecordBatch) :
    KeepsPlan holds (emitDueIn keep timeColumnName sortedRecordBatch) := by
  refine preserves_get_bind fun handler same => ?_
  cases sortedRecordBatch.getColumnByName timeColumnName with
  | none => exact preserves_throw _
  | some timeColumn =>
      refine preserves_bind (preserves_of_except _) fun divideIndex => ?_
      refine preserves_bind (preserves_set same) fun _ => ?_
      refine preserves_bind emit_buffered_keeps_plan fun window => ?_
      refine preserves_get_bind fun emitted sameEmitted => ?_
      refine preserves_bind (preserves_set (moves _ _ sameEmitted)) fun _ => ?_
      exact preserves_bind remove_old_records_keeps_plan fun _ => preserves_pure _

theorem emission_turns_keep_plan
    (moves : ∀ options next, holds options next → holds options (keep (next + options.every)))
    (timeColumnName : String) (maxTs : Int) (fuel : Nat) (sortedRecordBatch : RecordBatch) :
    KeepsPlan holds (emissionTurnsIn keep timeColumnName maxTs fuel sortedRecordBatch) := by
  induction fuel generalizing sortedRecordBatch with
  | zero => exact preserves_throw _
  | succ fuel induction =>
      refine preserves_get_bind fun handler _ => preserves_ite ?_ (preserves_pure _)
      refine preserves_bind (emit_due_keeps_plan moves _ _) fun turn => ?_
      exact preserves_bind (induction _) fun _ => preserves_pure _

theorem handle_emitting_keeps_plan
    (moves : ∀ options next, holds options next → holds options (keep (next + options.every)))
    (starts : ∀ options minTs, holds options 0 → holds options (firstEmitIn keep options minTs))
    (recordBatch : RecordBatch) : KeepsPlan holds (handleEmittingIn keep recordBatch) := by
  refine preserves_bind (preserves_of_except _) fun timeColumnName => ?_
  refine preserves_bind (preserves_of_except _) fun sortedRecordBatch => ?_
  cases sortedRecordBatch.getColumnByName timeColumnName with
  | none => exact preserves_of_except _
  | some timeColumn =>
      refine preserves_bind (preserves_get_bind fun handler same => ?_) fun _ => ?_
      · by_cases fresh : handler.nextEmit = 0
        · rw [if_pos fresh]
          refine preserves_bind (preserves_of_except _) fun minTs => preserves_set ?_
          rw [fresh] at same
          exact starts _ minTs same
        · rw [if_neg fresh]
          exact preserves_pure ()
      · refine preserves_bind (preserves_of_except _) fun maxTs => ?_
        refine preserves_get_bind fun started _ => ?_
        refine preserves_bind (emission_turns_keep_plan moves _ _ _ _) fun turn => ?_
        refine preserves_get_bind fun after same => ?_
        exact preserves_bind (preserves_set same) fun _ => preserves_pure _

theorem handle_keeps_plan
    (moves : ∀ options next, holds options next → holds options (keep (next + options.every)))
    (starts : ∀ options minTs, holds options 0 → holds options (firstEmitIn keep options minTs))
    (recordBatch : RecordBatch) : KeepsPlan holds (handleIn keep recordBatch) := by
  rw [handle_eq_emitting]
  exact preserves_bind (handle_emitting_keeps_plan moves starts recordBatch) fun _ =>
    preserves_pure _

end Plans

/-- No sum that the emission loop forms leaves 64 bits: at each boundary that the clock has
reached the start of its period, the next boundary and the start of the period of that. -/
def SumsFit (options : WindowOptions) (maxTs nextEmit : Int) : Prop :=
  ∀ index, boundary nextEmit options.every index ≤ maxTs →
    FitsInt64 (boundary nextEmit options.every index - options.period) ∧
    FitsInt64 (boundary nextEmit options.every (index + 1)) ∧
    FitsInt64 (boundary nextEmit options.every (index + 1) - options.period)

section Agreement

theorem remove_old_records_agrees {handler : WindowHandler}
    (fits : FitsInt64 (handler.nextEmit - handler.options.period)) :
    removeOldRecordsIn wrap64 handler = removeOldRecordsIn id handler := by
  simp only [removeOldRecordsIn, bind_of_ok (get_apply _), wrap_of_fits fits,
    id_eq]

theorem emit_buffered_agrees {handler : WindowHandler}
    (fits : FitsInt64 (handler.nextEmit - handler.options.period)) :
    emitBufferedIn wrap64 handler = emitBufferedIn id handler := by
  simp only [emitBufferedIn, bind_of_ok (get_apply handler)]
  split
  · simp only [emitWindowIn, bind_apply, remove_old_records_agrees fits]
  · rfl

theorem emit_due_agrees (timeColumnName : String) (sortedRecordBatch : RecordBatch)
    {handler : WindowHandler}
    (own : FitsInt64 (handler.nextEmit - handler.options.period))
    (next : FitsInt64 (handler.nextEmit + handler.options.every))
    (later : FitsInt64 (handler.nextEmit + handler.options.every - handler.options.period)) :
    emitDueIn wrap64 timeColumnName sortedRecordBatch handler =
      emitDueIn id timeColumnName sortedRecordBatch handler := by
  simp only [emitDueIn, bind_of_ok (get_apply handler)]
  cases sortedRecordBatch.getColumnByName timeColumnName with
  | none => rfl
  | some timeColumn =>
      simp only [bind_apply]
      cases tsLowerBound timeColumn (fun ts => decide (ts ≥ handler.nextEmit)) .second with
      | error fault => rfl
      | ok divideIndex =>
          simp only [of_except_ok, set_apply]
          generalize buffers : (if divideIndex > 0 then handler.bufferedRecordBatches ++
            [sortedRecordBatch.slice 0 divideIndex] else handler.bufferedRecordBatches) = buffered
          rw [@emit_buffered_agrees { handler with bufferedRecordBatches := buffered } own]
          have plan := plan_unmoved (fun _ => @emit_buffered_keeps_plan id _)
            { handler with bufferedRecordBatches := buffered }
          cases emits : emitBufferedIn id { handler with bufferedRecordBatches := buffered } with
          | error fault emitted => rfl
          | ok window emitted =>
              rw [emits] at plan
              obtain ⟨sameOptions, sameNext⟩ := plan
              simp only [get_apply, sameOptions, sameNext, wrap_of_fits next, id_eq]
              rw [remove_old_records_agrees later]

theorem emit_due_moves {keep : Int → Int} (timeColumnName : String)
    (sortedRecordBatch : RecordBatch) (handler : WindowHandler) :
    Ends (fun _ _ => True)
      (fun _ after => after.options = handler.options ∧
        after.nextEmit = keep (handler.nextEmit + handler.options.every))
      (emitDueIn keep timeColumnName sortedRecordBatch handler) := by
  rw [emitDueIn, bind_of_ok (get_apply handler)]
  cases sortedRecordBatch.getColumnByName timeColumnName with
  | none => trivial
  | some timeColumn =>
      cases searched : tsLowerBound timeColumn (fun ts => decide (ts ≥ handler.nextEmit))
          .second with
      | error fault =>
          dsimp only
          rw [searched, bind_of_error (of_except_error _ _)]
          trivial
      | ok divideIndex =>
          dsimp only
          rw [searched, bind_of_ok (of_except_ok _ _), bind_of_ok (set_apply _ _)]
          apply ends_bind (plan_unmoved (fun _ => emit_buffered_keeps_plan) _)
          rintro window emitted ⟨sameOptions, sameNext⟩
          dsimp only at sameOptions sameNext
          rw [bind_of_ok (get_apply emitted), bind_of_ok (set_apply _ _)]
          apply ends_bind (plan_unmoved (fun _ => remove_old_records_keeps_plan) _)
          rintro _ after ⟨lastOptions, lastNext⟩
          exact ⟨lastOptions.trans sameOptions, by rw [lastNext, sameNext, sameOptions]⟩

theorem emission_turns_agree (timeColumnName : String) {maxTs : Int} (fuel : Nat)
    (sortedRecordBatch : RecordBatch) {handler : WindowHandler}
    (fits : SumsFit handler.options maxTs handler.nextEmit) :
    emissionTurnsIn wrap64 timeColumnName maxTs fuel sortedRecordBatch handler =
      emissionTurnsIn id timeColumnName maxTs fuel sortedRecordBatch handler := by
  induction fuel generalizing sortedRecordBatch handler with
  | zero => rfl
  | succ fuel induction =>
      simp only [emissionTurnsIn, bind_of_ok (get_apply handler)]
      by_cases due : maxTs ≥ handler.nextEmit
      · rw [if_pos due, if_pos due]
        obtain ⟨own, next, later⟩ := fits 0 (by simpa [boundary] using due)
        simp only [boundary, Nat.cast_zero, Nat.cast_one, Int.zero_mul, Int.one_mul, Int.add_zero,
          zero_add] at own next later
        have moves := @emit_due_moves id timeColumnName sortedRecordBatch handler
        rw [bind_apply, bind_apply, emit_due_agrees _ _ own next later]
        cases emits : emitDueIn id timeColumnName sortedRecordBatch handler with
        | error fault after => rfl
        | ok turn after =>
            rw [emits] at moves
            obtain ⟨sameOptions, isNext⟩ := moves
            have remaining : SumsFit after.options maxTs after.nextEmit := by
              rw [sameOptions, isNext, id_eq]
              intro index reached
              rw [← boundary_succ] at reached ⊢
              rw [← boundary_succ]
              exact fits (index + 1) reached
            dsimp only
            rw [bind_apply, bind_apply, induction turn.2 remaining]
      · rw [if_neg due, if_neg due]

/-- The sums of a call on a batch under a time column fit 64 bits. -/
structure CallFits (time : TimeColumn) (handler : WindowHandler) (recordBatch : RecordBatch) :
    Prop where
  first : handler.nextEmit = 0 →
    FitsInt64 (firstEmit handler.options (firstSeconds (recordBatch.sortRows time.index)))
  sums : SumsFit handler.options (lastSeconds (recordBatch.sortRows time.index))
    (started handler (recordBatch.sortRows time.index)).nextEmit

theorem first_emit_agrees {options : WindowOptions} {minTs : Int}
    (fits : FitsInt64 (firstEmit options minTs)) :
    firstEmitIn wrap64 options minTs = firstEmitIn id options minTs := by
  rw [first_emit_eq] at fits
  unfold firstEmitIn
  split
  · next fills =>
    rw [if_pos fills] at fits
    exact wrap_of_fits fits
  · next fills =>
    rw [if_neg fills] at fits
    exact wrap_of_fits fits

/-- A call whose sums fit is the call on unbounded seconds. -/
theorem handle_emitting_agrees {handler : WindowHandler} {recordBatch : RecordBatch}
    {time : TimeColumn} (found : timeColumn recordBatch.schema = some time)
    (nonempty : recordBatch.rows ≠ []) (fits : CallFits time handler recordBatch) :
    handleEmittingIn wrap64 recordBatch handler = handleEmittingIn id recordBatch handler := by
  have sameStart : startedIn wrap64 handler (recordBatch.sortRows time.index) =
      startedIn id handler (recordBatch.sortRows time.index) := by
    unfold startedIn
    split
    · next fresh => rw [first_emit_agrees (fits.first fresh)]
    · rfl
  have sums := fits.sums
  rw [← started_options handler (recordBatch.sortRows time.index)] at sums
  rw [handle_emitting_in_eq found nonempty, handle_emitting_in_eq found nonempty]
  dsimp only
  rw [sameStart, emission_turns_agree time.name _ _ sums]

theorem handle_agrees {handler : WindowHandler} {recordBatch : RecordBatch}
    {time : TimeColumn} (found : timeColumn recordBatch.schema = some time)
    (nonempty : recordBatch.rows ≠ []) (fits : CallFits time handler recordBatch) :
    handleIn wrap64 recordBatch handler = handleIn id recordBatch handler := by
  rw [handle_eq_emitting, handle_eq_emitting, bind_apply, bind_apply,
    handle_emitting_agrees found nonempty fits]

end Agreement

/-- The boundaries that a handler with fixed options plans from its first one on fit 64 bits:
the first, and the next of each that some row has reached. -/
structure PlanFits (options : WindowOptions) (first : Int) (batches : List RecordBatch) : Prop where
  period : FitsInt64 options.period
  start : FitsInt64 first
  next : ∀ batch ∈ batches, ∀ row ∈ batch.rows, ∀ index,
    boundary first options.every index ≤ batchSeconds batch row →
      FitsInt64 (boundary first options.every (index + 1))

section Runs

variable {options : WindowOptions} {first : Int}

/-- It is enough that one more window after the newest row fits. -/
theorem plan_fits_of_latest {batches : List RecordBatch} {latest : Int}
    (period : FitsInt64 options.period) (start : FitsInt64 first) (apart : 1 ≤ options.every)
    (newest : ∀ batch ∈ batches, ∀ row ∈ batch.rows, batchSeconds batch row ≤ latest)
    (later : latest + options.every < 2 ^ 63) : PlanFits options first batches := by
  refine ⟨period, start, ?_⟩
  intro batch inBatches row inRows index reached
  have bound := newest batch inBatches row inRows
  have next := boundary_add first options.every index 1
  have above := first_le_boundary first (show 0 < options.every by omega) index
  simp only [boundary, Nat.cast_one, Int.one_mul] at next above reached
  unfold FitsInt64 at start ⊢
  unfold boundary
  omega

/-- The next emission of a handler with fixed options is at one of its boundaries. -/
def OnPlan (options : WindowOptions) (first : Int) (handler : WindowHandler) : Prop :=
  handler.options = options ∧ ∃ index, handler.nextEmit = boundary first options.every index

theorem on_plan_kept (apart : 1 ≤ options.every) (ahead : 0 < first) (recordBatch : RecordBatch) :
    Preserves (OnPlan options first) (handleEmittingIn id recordBatch) := by
  refine @handle_emitting_keeps_plan id (fun own next => own = options ∧
    ∃ index, next = boundary first options.every index) ?_ ?_ recordBatch
  · rintro own next ⟨rfl, index, rfl⟩
    refine ⟨rfl, index + 1, ?_⟩
    rw [boundary_add]
    simp [boundary]
  · rintro own minTs ⟨_, index, isBoundary⟩
    have later := first_le_boundary first (show 0 < options.every by omega) index
    omega

theorem last_seconds_of_row {batch : RecordBatch} (index : Nat) (nonempty : batch.rows ≠ []) :
    ∃ row ∈ batch.rows, lastSeconds (batch.sortRows index) = batchSeconds batch row := by
  have sortedNonempty := sort_rows_ne_nil index nonempty
  refine ⟨(batch.sortRows index).rows.getLast sortedNonempty, ?_, last_seconds_eq sortedNonempty⟩
  exact (sort_rows_perm batch index).mem_iff.mp (List.getLast_mem sortedNonempty)

theorem call_fits_of_plan {batches : List RecordBatch} {batch : RecordBatch} {time : TimeColumn}
    {handler : WindowHandler} (apart : 1 ≤ options.every) (period : 0 ≤ options.period)
    (ahead : 0 < first) (fits : PlanFits options first batches) (member : batch ∈ batches)
    (nonempty : batch.rows ≠ []) (planned : OnPlan options first handler) :
    CallFits time handler batch := by
  obtain ⟨rfl, start, isBoundary⟩ := planned
  have later := first_le_boundary first (show 0 < handler.options.every by omega)
  have own := later start
  have running : handler.nextEmit ≠ 0 := by omega
  refine ⟨fun fresh => absurd fresh running, ?_⟩
  obtain ⟨row, inBatch, isLast⟩ := last_seconds_of_row time.index nonempty
  intro index reached
  rw [started, startedIn, if_neg running, isBoundary, ← boundary_add] at reached ⊢
  rw [← boundary_add, ← Nat.add_assoc]
  rw [isLast] at reached
  have next := fits.next batch member row inBatch (start + index) reached
  have bounds := fits.period
  have earlier := @boundary_mono first _ (show 0 < handler.options.every by omega) _ _
    (Nat.le_add_right (start + index) 1)
  have above := later (start + index)
  unfold FitsInt64 at next bounds ⊢
  omega

theorem handle_all_emitting_agrees {batches : List RecordBatch} {handler : WindowHandler}
    (apart : 1 ≤ options.every) (period : 0 ≤ options.period) (ahead : 0 < first)
    (timed : ∀ batch ∈ batches, Timed batch.schema) (nonempty : ∀ batch ∈ batches, batch.rows ≠ [])
    (fits : PlanFits options first batches) (planned : OnPlan options first handler) :
    handleAllEmittingIn wrap64 batches handler = handleAllEmittingIn id batches handler := by
  induction batches generalizing handler with
  | nil => rfl
  | cons batch rest induction =>
      obtain ⟨time, found⟩ := timed_cases (timed batch List.mem_cons_self)
      have some := nonempty batch List.mem_cons_self
      have call := @call_fits_of_plan options first (batch :: rest) batch time handler apart period
        ahead fits List.mem_cons_self some planned
      have kept := on_plan_kept apart ahead batch handler planned
      rw [handleAllEmittingIn, handleAllEmittingIn, bind_apply, bind_apply,
        handle_emitting_agrees found some call]
      cases emits : handleEmittingIn id batch handler with
      | error fault after => rfl
      | ok emissions after =>
          rw [emits] at kept
          dsimp only
          rw [bind_apply, bind_apply, induction
            (fun other member => timed other (List.mem_cons_of_mem _ member))
            (fun other member => nonempty other (List.mem_cons_of_mem _ member))
            ⟨fits.period, fits.start, fun other member =>
              fits.next other (List.mem_cons_of_mem _ member)⟩ kept]

theorem handle_emitting_fresh {keep : Int → Int} {batch : RecordBatch} {time : TimeColumn}
    (found : timeColumn batch.schema = some time) (nonempty : batch.rows ≠ [])
    (isFirst : firstEmitIn keep options (firstSeconds (batch.sortRows time.index)) = first)
    (ahead : first ≠ 0) :
    handleEmittingIn keep batch { options := options } =
      handleEmittingIn keep batch { options := options, nextEmit := first } := by
  rw [handle_emitting_in_eq found nonempty, handle_emitting_in_eq found nonempty]
  simp only [startedIn, if_true, if_neg ahead, isFirst]

/-- A run of a fresh handler whose plan fits is the run on unbounded seconds. -/
theorem fresh_run_agrees {batches : List RecordBatch} (apart : 1 ≤ options.every)
    (period : 0 ≤ options.period) (ahead : 0 < first)
    (timed : ∀ batch ∈ batches, Timed batch.schema) (nonempty : ∀ batch ∈ batches, batch.rows ≠ [])
    (fits : PlanFits options first batches)
    (isFirst : ∀ batch ∈ batches.head?, ∀ time, timeColumn batch.schema = some time →
      firstEmit options (firstSeconds (batch.sortRows time.index)) = first) :
    handleAllEmittingIn wrap64 batches { options := options } =
      handleAllEmittingIn id batches { options := options } := by
  cases batches with
  | nil => rfl
  | cons batch rest =>
      obtain ⟨time, found⟩ := timed_cases (timed batch List.mem_cons_self)
      have some := nonempty batch List.mem_cons_self
      have start := isFirst batch rfl time found
      have fitsStart : FitsInt64 (firstEmit options (firstSeconds (batch.sortRows time.index))) := by
        rw [start]
        exact fits.start
      have wrapped := (first_emit_agrees fitsStart).trans start
      have planned : OnPlan options first { options := options, nextEmit := first } :=
        ⟨rfl, 0, by simp [boundary]⟩
      have agree := handle_all_emitting_agrees apart period ahead timed nonempty fits planned
      rw [handleAllEmittingIn, handleAllEmittingIn, bind_apply, bind_apply] at agree ⊢
      rw [handle_emitting_fresh found some wrapped ahead.ne',
        handle_emitting_fresh found some start ahead.ne']
      exact agree

theorem fresh_windows_agree {batches : List RecordBatch} (apart : 1 ≤ options.every)
    (period : 0 ≤ options.period) (ahead : 0 < first)
    (timed : ∀ batch ∈ batches, Timed batch.schema) (nonempty : ∀ batch ∈ batches, batch.rows ≠ [])
    (fits : PlanFits options first batches)
    (isFirst : ∀ batch ∈ batches.head?, ∀ time, timeColumn batch.schema = some time →
      firstEmit options (firstSeconds (batch.sortRows time.index)) = first) :
    handleAllIn wrap64 batches { options := options } =
      handleAllIn id batches { options := options } := by
  rw [handle_all_eq_emitting, handle_all_eq_emitting, bind_apply, bind_apply,
    fresh_run_agrees apart period ahead timed nonempty fits isFirst]

end Runs

end StreamDataProcessor.Handlers.Window
