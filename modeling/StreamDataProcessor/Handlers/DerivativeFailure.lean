import StreamDataProcessor.Handlers.DerivativeSteps
import StreamDataProcessor.Handlers.ReadableTimes

/-!
# What a failed call leaves of the derivative handler

A call fails before its loop, or it can read every time and every value that it comes to.
-/

namespace StreamDataProcessor.Handlers

open Foundation.Effect Foundation.Attempts Arrow Metadata Utils

set_option autoImplicit false

namespace Derivative

section Failures

variable [Numbers]

structure Prepared where
  concatRecordBatch : RecordBatch
  timeColumn : Column
  valueColumns : List (String × Column)
  bounds : Bounds

def prepare (options : DerivativeOptions) (handler : DerivativeHandler)
    (recordBatch : RecordBatch) : Outcome Prepared := do
  let timeColumnName ← getTimeColumnNameMetadata recordBatch
  let sortedRecordBatch ← sortByColumn timeColumnName recordBatch
  let concatRecordBatch ← concatenateBuffered handler.bufferedBatch sortedRecordBatch
  match concatRecordBatch.getColumnByName timeColumnName with
  | none =>
      fail .invalid s!"Concatenated RecordBatch has no time column with name {timeColumnName}"
  | some timeColumn => do
      let valueColumns ← findValueColumns concatRecordBatch options.derivativeCases []
      let leftBoundTime ← firstLeftBound options timeColumn handler.allBufferedTimes
      let rightBoundRow := (handler.bufferedBatch.map RecordBatch.numRows).getD 0
      let rightBoundTime ← getScaledPositionTime options rightBoundRow timeColumn
      return ⟨concatRecordBatch, timeColumn, valueColumns,
        ⟨leftBoundTime, rightBoundTime, rightBoundRow⟩⟩

def finish (calculator : DerivativeCalculator) (options : DerivativeOptions)
    (recordBatch : RecordBatch) (prepared : Prepared) :
    Step (List RecordBatch × List (List CalculatorCall)) := do
  let concatRecordBatch := prepared.concatRecordBatch
  let totalRows := concatRecordBatch.numRows
  let calls ← calculateRows options prepared.timeColumn prepared.valueColumns totalRows totalRows 0
    prepared.bounds
  let after ← get
  set { after with bufferedBatch := some (concatRecordBatch.sliceFrom calls.length) }
  let calculatedBatch := copySchemaMetadata recordBatch (concatRecordBatch.slice 0 calls.length)
  let result ← ofExcept
    (addDerivatives calculator calls 0 options.derivativeCases calculatedBatch)
  pure ([result], calls)

theorem handle_with_calls_eq (calculator : DerivativeCalculator) (options : DerivativeOptions)
    (recordBatch : RecordBatch) (handler : DerivativeHandler) :
    handleWithCalls calculator options recordBatch handler =
      (ofExcept (prepare options handler recordBatch) >>=
        finish calculator options recordBatch) handler := by
  rw [handleWithCalls, prepare, of_except_bind]
  apply of_except_bind_congr
  intro name _
  rw [of_except_bind]
  apply of_except_bind_congr
  intro sorted _
  rw [of_except_bind, bind_of_ok (get_apply handler)]
  apply of_except_bind_congr
  intro concat _
  cases concat.getColumnByName name with
  | none => rfl
  | some timeColumn =>
      dsimp only
      rw [of_except_bind]
      apply of_except_bind_congr
      intro valueColumns _
      rw [of_except_bind]
      apply of_except_bind_congr
      intro leftBoundTime _
      rw [of_except_bind]
      apply of_except_bind_congr
      intro rightBoundTime _
      rfl

/-- A call that gets to its loop can read all the times and values of its rows. -/
def FailsFirst (options : DerivativeOptions) (handler : DerivativeHandler)
    (recordBatch : RecordBatch) : Prop :=
  ∀ prepared, prepare options handler recordBatch = .ok prepared →
    CastableColumn prepared.timeColumn ∧ Castable prepared.valueColumns

section Loops

variable {options : DerivativeOptions} {timeColumn : Column}
  {valueColumns : List (String × Column)} {totalRows : Nat}

theorem scaled_time_avoids (castable : CastableColumn timeColumn) {row : Nat}
    (bound : row < timeColumn.cells.length) :
    ∀ fault, getScaledPositionTime options row timeColumn = .error fault → ¬IsStatus fault := by
  intro fault raised
  obtain ⟨cell, isCell⟩ : ∃ cell, timeColumn.cells[row]? = some cell :=
    ⟨_, List.getElem?_eq_getElem bound⟩
  have member := List.mem_of_getElem? isCell
  obtain ⟨timestamp, casts⟩ := (cast_timestamp_ok_iff (timeColumn.conforms cell member) .nano).mpr
    (castable.imp id fun null => null cell member)
  simp only [getScaledPositionTime, Column.getScalar, isCell, casts, bind, Except.bind] at raised
  split at raised
  · cases raised
    simp [IsStatus]
  · split at raised
    · cases raised
      simp [IsStatus]
    · cases raised

theorem move_left_avoids (derivativeTime leftBoundTime : Int) (times : List Int)
    (values : String → Option BufferedValues) :
    ∀ fault, moveLeftBound options derivativeTime leftBoundTime times values = .error fault →
      ¬IsStatus fault := by
  induction times generalizing leftBoundTime values with
  | nil =>
      intro fault raised
      rw [moveLeftBound] at raised
      split at raised
      · cases raised
        simp [IsStatus]
      · cases raised
  | cons time rest induction =>
      intro fault raised
      rw [moveLeftBound] at raised
      split at raised
      · exact induction _ _ fault raised
      · cases raised

omit [Numbers] in
theorem push_values_avoid (time : Int) {row : Nat} (columns : List (String × Column))
    (values : Castable columns) (lengths : ∀ entry ∈ columns, row < entry.2.cells.length)
    (handler : DerivativeHandler) :
    Ends (fun fault _ => ¬IsStatus fault) (fun _ _ => True)
      (pushValues time row columns handler) := by
  induction columns generalizing handler with
  | nil => trivial
  | cons entry rest induction =>
      obtain ⟨name, column⟩ := entry
      have others := induction (fun other member => values other (by simp [member]))
        fun other member => lengths other (by simp [member])
      obtain ⟨cell, isCell⟩ : ∃ cell, column.cells[row]? = some cell :=
        ⟨_, List.getElem?_eq_getElem (lengths (name, column) (by simp))⟩
      have scalar : column.getScalar row = .ok cell := by rw [Column.getScalar, isCell]
      rw [pushValues, scalar, bind_of_ok (of_except_ok cell handler)]
      cases cell with
      | none => exact others handler
      | some value =>
          obtain ⟨cast, casts⟩ := values (name, column) (by simp) _ (List.mem_of_getElem? isCell)
          simp only [casts, bind_of_ok (of_except_ok cast handler),
            bind_of_ok (get_apply handler), bind_of_ok (set_apply _ handler)]
          exact others _

structure Reads (timeColumn : Column) (valueColumns : List (String × Column)) (totalRows : Nat) :
    Prop where
  times : CastableColumn timeColumn
  values : Castable valueColumns
  timeCount : timeColumn.cells.length = totalRows
  valueCounts : ∀ entry ∈ valueColumns, entry.2.cells.length = totalRows

theorem move_right_avoids (reads : Reads timeColumn valueColumns totalRows)
    (derivativeTime : Int) (rowsLeft : Nat) (rightBoundTime : Int) (rightBoundRow : Nat)
    (rows : rightBoundRow + rowsLeft = totalRows) (handler : DerivativeHandler) :
    Ends (fun fault _ => ¬IsStatus fault) (fun bound _ => bound.2 ≤ totalRows)
      (moveRightBound options timeColumn valueColumns derivativeTime rowsLeft rightBoundTime
        rightBoundRow handler) := by
  induction rowsLeft generalizing rightBoundTime rightBoundRow handler with
  | zero =>
      rw [moveRightBound]
      exact Nat.le_of_eq rows
  | succ rowsLeft induction =>
      rw [moveRightBound]
      split
      · have time : Ends (fun fault _ => ¬IsStatus fault) (fun _ _ => True)
            (pushTime rightBoundTime handler) := trivial
        apply ends_bind time
        intro _ pushed _
        apply ends_bind (push_values_avoid rightBoundTime valueColumns reads.values
          (fun entry member => by rw [reads.valueCounts entry member]; omega) pushed)
        intro _ after _
        split
        · exact (by omega : rightBoundRow + 1 ≤ totalRows)
        · next more =>
          have next : Ends (fun fault _ => ¬IsStatus fault) (fun _ _ => True)
              ((ofExcept (getScaledPositionTime options (rightBoundRow + 1) timeColumn) :
                Step Int) after) :=
            ends_of_except (scaled_time_avoids reads.times (by rw [reads.timeCount]; omega))
              fun _ _ => trivial
          apply ends_bind next
          intro time last _
          exact induction time (rightBoundRow + 1) (by omega) last
      · exact (by omega : rightBoundRow ≤ totalRows)

omit [Numbers] in
theorem case_calls_avoid (derivativeTime : Int) (cases : List (String × DerivativeCase))
    (handler : DerivativeHandler) :
    Ends (fun fault _ => ¬IsStatus fault) (fun calls _ => calls.length = cases.length)
      (caseCalls derivativeTime cases handler) := by
  induction cases with
  | nil => exact rfl
  | cons entry rest induction =>
      obtain ⟨name, derivativeCase⟩ := entry
      rw [caseCalls, bind_of_ok (get_apply handler)]
      cases handler.bufferedValues derivativeCase.valuesColumnName with
      | none => simp [Ends, IsStatus, throw_apply]
      | some buffered =>
          apply ends_bind induction
          intro calls _ count
          exact congrArg (· + 1) count

theorem calculate_rows_avoid (reads : Reads timeColumn valueColumns totalRows) (rowsLeft row : Nat)
    (rows : row + rowsLeft = totalRows) (bounds : Bounds)
    (within : bounds.rightBoundRow ≤ totalRows) (handler : DerivativeHandler) :
    Ends (fun fault _ => ¬IsStatus fault) (fun calls _ => calls.length ≤ rowsLeft ∧
        ∀ rowCalls ∈ calls, rowCalls.length = options.derivativeCases.length)
      (calculateRows options timeColumn valueColumns totalRows rowsLeft row bounds handler) := by
  induction rowsLeft generalizing row bounds handler with
  | zero => exact ⟨Nat.le_refl _, by simp⟩
  | succ rowsLeft induction =>
      rw [calculateRows]
      have time : Ends (fun fault _ => ¬IsStatus fault) (fun _ _ => True)
          ((ofExcept (getScaledPositionTime options row timeColumn) : Step Int) handler) :=
        ends_of_except (scaled_time_avoids reads.times (by rw [reads.timeCount]; omega))
          fun _ _ => trivial
      apply ends_bind time
      intro derivativeTime current _
      rw [bind_of_ok (get_apply current)]
      have left : Ends (fun fault _ => ¬IsStatus fault) (fun _ _ => True)
          ((ofExcept (moveLeftBound options derivativeTime bounds.leftBoundTime
            current.allBufferedTimes current.bufferedValues) :
              Step (Int × List Int × (String → Option BufferedValues))) current) :=
        ends_of_except (move_left_avoids _ _ _ _) fun _ _ => trivial
      apply ends_bind left
      intro moved popped _
      obtain ⟨leftBoundTime, times, values⟩ := moved
      dsimp only
      rw [bind_of_ok (set_apply _ popped)]
      apply ends_bind (move_right_avoids reads derivativeTime (totalRows - bounds.rightBoundRow)
        bounds.rightBoundTime bounds.rightBoundRow (by omega) _)
      intro right pushed inside
      obtain ⟨rightBoundTime, rightBoundRow⟩ := right
      dsimp only
      split
      · exact ⟨Nat.zero_le _, by simp⟩
      · apply ends_bind (case_calls_avoid derivativeTime options.derivativeCases pushed)
        intro calls called count
        apply ends_bind (induction (row + 1) (by omega)
          ⟨leftBoundTime, rightBoundTime, rightBoundRow⟩ inside called)
        intro later last others
        refine ⟨Nat.succ_le_succ others.1, ?_⟩
        intro rowCalls member
        rcases List.mem_cons.mp member with rfl | inLater
        · exact count
        · exact others.2 rowCalls inLater

end Loops

theorem reads_of_prepared {options : DerivativeOptions} {handler : DerivativeHandler}
    {batch : RecordBatch} {prepared : Prepared}
    (isPrepared : prepare options handler batch = .ok prepared)
    (times : CastableColumn prepared.timeColumn) (values : Castable prepared.valueColumns) :
    Reads prepared.timeColumn prepared.valueColumns prepared.concatRecordBatch.numRows ∧
      prepared.bounds.rightBoundRow ≤ prepared.concatRecordBatch.numRows := by
  obtain ⟨name, _, afterName⟩ := except_bind_ok_cases isPrepared
  obtain ⟨sorted, _, afterSort⟩ := except_bind_ok_cases afterName
  obtain ⟨concat, _, afterConcat⟩ := except_bind_ok_cases afterSort
  cases found : concat.getColumnByName name with
  | none =>
      rw [found] at afterConcat
      cases afterConcat
  | some timeColumn =>
      rw [found] at afterConcat
      obtain ⟨valueColumns, valued, afterValues⟩ := except_bind_ok_cases afterConcat
      obtain ⟨leftBoundTime, _, afterLeft⟩ := except_bind_ok_cases afterValues
      obtain ⟨rightBoundTime, right, isLast⟩ := except_bind_ok_cases afterLeft
      have timeCount : timeColumn.cells.length = concat.numRows := by
        rw [(get_column_by_name_cells found).1, List.length_map, RecordBatch.numRows]
      have reads := (reads_values_of_found valued).cells
      have inside : (handler.bufferedBatch.map RecordBatch.numRows).getD 0 <
          timeColumn.cells.length := by
        unfold getScaledPositionTime Column.getScalar at right
        split at right
        · next isCell => exact (List.getElem?_eq_some_iff.mp isCell).1
        · cases right
      cases isLast
      refine ⟨⟨times, values, timeCount, ?_⟩, by rw [← timeCount]; exact Nat.le_of_lt inside⟩
      intro entry member
      rw [reads entry member, List.length_map, RecordBatch.numRows]

theorem finish_avoids {calculator : DerivativeCalculator} {options : DerivativeOptions}
    {batch : RecordBatch} {prepared : Prepared}
    (reads : Reads prepared.timeColumn prepared.valueColumns prepared.concatRecordBatch.numRows)
    (within : prepared.bounds.rightBoundRow ≤ prepared.concatRecordBatch.numRows)
    (handler : DerivativeHandler) :
    Ends (fun fault _ => ¬IsStatus fault) (fun _ _ => True)
      (finish calculator options batch prepared handler) := by
  rw [finish]
  apply ends_bind (calculate_rows_avoid reads prepared.concatRecordBatch.numRows 0
    (Nat.zero_add _) prepared.bounds within handler)
  intro calls after counts
  obtain ⟨short, lengths⟩ := counts
  rw [bind_of_ok (get_apply after), bind_of_ok (set_apply _ after)]
  have calculated : calls.length = (copySchemaMetadata batch
      (prepared.concatRecordBatch.slice 0 calls.length)).rows.length := by
    have rows : (prepared.concatRecordBatch.slice 0 calls.length).rows.length = calls.length := by
      rw [slice_rows, List.length_take, List.drop_zero, RecordBatch.numRows] at *
      omega
    unfold copySchemaMetadata
    split
    · exact rows.symm
    · exact rows.symm
  obtain ⟨result, added, _⟩ := add_derivatives_eq calculator options.derivativeCases calculated
    (fun row member => by rw [lengths row member, Nat.zero_add])
  rw [added, bind_of_ok (of_except_ok result _)]
  trivial

theorem handle_atomic {calculator : DerivativeCalculator} {options : DerivativeOptions}
    {handler : DerivativeHandler} {batch : RecordBatch}
    (failsFirst : FailsFirst options handler batch) :
    Atomic IsStatus (handle calculator options batch) handler := by
  have inner : Atomic IsStatus (ofExcept (prepare options handler batch) >>=
      finish calculator options batch) handler := by
    apply atomic_of_except_bind
    intro prepared isPrepared
    obtain ⟨times, values⟩ := failsFirst prepared isPrepared
    obtain ⟨reads, within⟩ := reads_of_prepared isPrepared times values
    exact atomic_of_ends (finish_avoids reads within handler)
  rw [atomic_iff_ends] at inner ⊢
  rw [handle]
  apply ends_bind (by rw [handle_with_calls_eq]; exact inner)
  intro _ _ _
  trivial

end Failures

end Derivative

end StreamDataProcessor.Handlers
