import StreamDataProcessor.Foundation.HoppingWindow
import StreamDataProcessor.Handlers.Window

/-!
# The emissions of the window handler

The loop of `handle` with what each turn emits kept apart, under the boundary and the
period of the turn. Of a buffer only the times of its rows matter, in the order in which
they came: removing old records drops times from the front.
-/

namespace StreamDataProcessor.Handlers.Window

open Foundation Foundation.Effect Foundation.HoppingWindow Arrow Metadata Utils

set_option autoImplicit false

/-- What a turn of the emission loop emits at a boundary, under the period in force. -/
structure Emission where
  boundary : Int
  period : Int
  window : List RecordBatch

section Sums

variable (keep : Int → Int)

/-- `emissionLoopIn`, with the emission of each turn. -/
def emissionTurnsIn (timeColumnName : String) (maxTs : Int) :
    Nat → RecordBatch → Step (List Emission × RecordBatch)
  | 0, _ => throw .diverges
  | fuel + 1, sortedRecordBatch => do
      let handler ← get
      if maxTs ≥ handler.nextEmit then
        let (window, rest) ← emitDueIn keep timeColumnName sortedRecordBatch
        let (emissions, last) ← emissionTurnsIn timeColumnName maxTs fuel rest
        pure (⟨handler.nextEmit, handler.options.period, window⟩ :: emissions, last)
      else pure ([], sortedRecordBatch)

/-- `handleIn`, with the emissions it returns the windows of. -/
def handleEmittingIn (recordBatch : RecordBatch) : Step (List Emission) := do
  let timeColumnName ← ofExcept (getTimeColumnNameMetadata recordBatch)
  let sortedRecordBatch ← ofExcept (sortByColumn timeColumnName recordBatch)
  match sortedRecordBatch.getColumnByName timeColumnName with
  | none =>
      ofExcept (fail .invalid s!"RecordBatch has no time column with name {timeColumnName}")
  | some timeColumn =>
      setFirstEmitIn keep timeColumn
      let maxTs ← ofExcept (lastTimestamp timeColumn sortedRecordBatch.numRows)
      let started ← get
      let (emissions, rest) ← emissionTurnsIn keep timeColumnName maxTs
        (turnBound maxTs started.nextEmit) sortedRecordBatch
      let after ← get
      set { after with bufferedRecordBatches := after.bufferedRecordBatches ++ [rest] }
      pure emissions

end Sums

abbrev emissionTurns (timeColumnName : String) (maxTs : Int) (fuel : Nat)
    (sortedRecordBatch : RecordBatch) : Step (List Emission × RecordBatch) :=
  emissionTurnsIn id timeColumnName maxTs fuel sortedRecordBatch

abbrev handleEmitting (recordBatch : RecordBatch) : Step (List Emission) :=
  handleEmittingIn id recordBatch

def handleAllIn (keep : Int → Int) : List RecordBatch → Step (List RecordBatch)
  | [] => pure []
  | batch :: rest => do
      let result ← handleIn keep batch
      let results ← handleAllIn keep rest
      pure (result ++ results)

abbrev handleAll (batches : List RecordBatch) : Step (List RecordBatch) := handleAllIn id batches

def handleAllEmittingIn (keep : Int → Int) : List RecordBatch → Step (List Emission)
  | [] => pure []
  | batch :: rest => do
      let emissions ← handleEmittingIn keep batch
      let later ← handleAllEmittingIn keep rest
      pure (emissions ++ later)

abbrev handleAllEmitting (batches : List RecordBatch) : Step (List Emission) :=
  handleAllEmittingIn id batches

def times (batch : RecordBatch) : List Int := batch.rows.map (batchSeconds batch)

def bufferTimes (buffer : List RecordBatch) : List Int := buffer.flatMap times

/-- The rows emitted are of the period that ends before the boundary. -/
def Emission.Sound (emission : Emission) : Prop :=
  ∀ batch ∈ emission.window, ∀ row ∈ batch.rows,
    emission.boundary - emission.period ≤ batchSeconds batch row ∧
      batchSeconds batch row < emission.boundary

section Turns

variable {keep : Int → Int}

theorem emission_loop_eq (timeColumnName : String) (maxTs : Int) (fuel : Nat)
    (sortedRecordBatch : RecordBatch) (result : List RecordBatch) :
    emissionLoopIn keep timeColumnName maxTs fuel sortedRecordBatch result =
      (emissionTurnsIn keep timeColumnName maxTs fuel sortedRecordBatch >>= fun turns =>
        pure (result ++ turns.1.flatMap Emission.window, turns.2)) := by
  induction fuel generalizing sortedRecordBatch result with
  | zero => rfl
  | succ fuel induction =>
      funext handler
      rw [emissionLoopIn, emissionTurnsIn]
      by_cases due : maxTs ≥ handler.nextEmit
      · simp only [bind_apply, get_apply, if_pos due]
        cases emitDueIn keep timeColumnName sortedRecordBatch handler with
        | error fault after => rfl
        | ok turn after =>
            simp only [induction, bind_apply]
            cases emissionTurnsIn keep timeColumnName maxTs fuel turn.2 after with
            | error fault final => rfl
            | ok turns final =>
                simp only [pure_apply, List.flatMap_cons, List.append_assoc]
      · simp only [bind_apply, get_apply, if_neg due, pure_apply, List.flatMap_nil,
          List.append_nil]

theorem handle_eq_emitting (recordBatch : RecordBatch) :
    handleIn keep recordBatch = (handleEmittingIn keep recordBatch >>= fun emissions =>
      pure (emissions.flatMap Emission.window)) := by
  funext handler
  unfold handleIn handleEmittingIn
  simp only [bind_apply]
  cases getTimeColumnNameMetadata recordBatch with
  | error fault => rfl
  | ok timeColumnName =>
      simp only [of_except_ok]
      cases sortByColumn timeColumnName recordBatch with
      | error fault => rfl
      | ok sortedRecordBatch =>
          simp only [of_except_ok]
          cases sortedRecordBatch.getColumnByName timeColumnName with
          | none => rfl
          | some timeColumn =>
              simp only [bind_apply, emission_loop_eq]
              cases setFirstEmitIn keep timeColumn handler with
              | error fault after => rfl
              | ok started ready =>
                  dsimp only
                  cases lastTimestamp timeColumn sortedRecordBatch.numRows with
                  | error fault => rfl
                  | ok maxTs =>
                      simp only [of_except_ok, get_apply]
                      cases emissionTurnsIn keep timeColumnName maxTs
                          (turnBound maxTs ready.nextEmit) sortedRecordBatch ready with
                      | error fault after => rfl
                      | ok turns after => rfl

theorem handle_all_eq_emitting (batches : List RecordBatch) :
    handleAllIn keep batches = (handleAllEmittingIn keep batches >>= fun emissions =>
      pure (emissions.flatMap Emission.window)) := by
  induction batches with
  | nil => rfl
  | cons batch rest induction =>
      funext handler
      simp only [handleAllIn, handleAllEmittingIn, handle_eq_emitting, induction, bind_apply]
      cases handleEmittingIn keep batch handler with
      | error fault after => rfl
      | ok emissions after =>
          simp only [pure_apply]
          cases handleAllEmittingIn keep rest after with
          | error fault final => rfl
          | ok later final => simp only [List.flatMap_append]

/-- The rule of the emission turns: an invariant that every due turn keeps, with a property
of what the turn emits. -/
theorem emission_turns_return {time : TimeColumn} {maxTs : Int}
    (invariant : WindowHandler → RecordBatch → Prop) (holding : Emission → Prop)
    (keeps : ∀ handler sortedRecordBatch position kept final window,
      invariant handler sortedRecordBatch → maxTs ≥ handler.nextEmit →
      Running time maxTs handler sortedRecordBatch →
      DueTurn handler sortedRecordBatch position kept final window →
      invariant
        { handler with
          bufferedRecordBatches := final
          emittedFirst := true
          nextEmit := handler.nextEmit + handler.options.every }
        (sortedRecordBatch.sliceFrom position) ∧
      holding ⟨handler.nextEmit, handler.options.period, window⟩)
    {fuel : Nat} {handler : WindowHandler} {sortedRecordBatch : RecordBatch}
    (running : Running time maxTs handler sortedRecordBatch)
    (holds : invariant handler sortedRecordBatch) (positive : 1 ≤ handler.options.every)
    (enough : (maxTs - handler.nextEmit + 1).toNat < fuel) :
    ∃ emissions rest after,
      emissionTurns time.name maxTs fuel sortedRecordBatch handler =
        .ok (emissions, rest) after ∧
      invariant after rest ∧ Running time maxTs after rest ∧
      after.options = handler.options ∧
      (∀ emission ∈ emissions, holding emission) ∧
      emissions.map Emission.boundary =
        (List.range (dueCount handler.nextEmit handler.options.every maxTs)).map
          (boundary handler.nextEmit handler.options.every) ∧
      after.nextEmit = boundary handler.nextEmit handler.options.every
        (dueCount handler.nextEmit handler.options.every maxTs) ∧
      after.emittedFirst = (handler.emittedFirst || decide (maxTs ≥ handler.nextEmit)) := by
  induction fuel generalizing handler sortedRecordBatch with
  | zero => omega
  | succ fuel induction =>
      simp only [emissionTurns, emissionTurnsIn, bind_of_ok (get_apply _)]
      by_cases due : maxTs ≥ handler.nextEmit
      · rw [if_pos due]
        obtain ⟨position, kept, final, window, after, rfl, emitted, turn, runs⟩ :=
          running_turn running due
        obtain ⟨invariantNext, own⟩ := keeps _ _ _ _ _ _ holds due running turn
        rw [bind_of_ok emitted]
        obtain ⟨emissions, rest, after, returned, invariantLast, runsLast, options, each,
          boundaries, last, emittedFirst⟩ :=
          induction runs invariantNext positive (by dsimp only; omega)
        dsimp only at boundaries last emittedFirst options
        refine ⟨_, rest, after, by rw [bind_of_ok returned]; rfl, invariantLast, runsLast, options,
          ?_, ?_, ?_, ?_⟩
        · intro emission member
          rcases List.mem_cons.mp member with rfl | later
          · exact own
          · exact each emission later
        · rw [List.map_cons, boundaries, due_count_succ (by omega) due,
            List.range_succ_eq_map, List.map_cons, List.map_map]
          congr 1
          · simp [boundary]
          · apply List.map_congr_left
            intro index _
            exact (boundary_succ _ _ _).symm
        · rw [last, due_count_succ (by omega) due, boundary_succ]
        · rw [emittedFirst, decide_eq_true due]
          simp
      · rw [if_neg due]
        have none := (@due_count_eq_zero handler.nextEmit handler.options.every maxTs)
          (by omega) (by omega)
        refine ⟨[], sortedRecordBatch, handler, rfl, holds, running, rfl, by simp, ?_, ?_, ?_⟩
        · rw [none]
          rfl
        · rw [none]
          simp [boundary]
        · rw [decide_eq_false due, Bool.or_false]

/-- A call on a batch with rows under a time column is its emission turns. -/
theorem handle_emitting_in_eq {handler : WindowHandler} {recordBatch : RecordBatch}
    {time : TimeColumn} (found : timeColumn recordBatch.schema = some time)
    (nonempty : recordBatch.rows ≠ []) :
    handleEmittingIn keep recordBatch handler =
      let sortedRecordBatch := recordBatch.sortRows time.index
      let maxTs := lastSeconds sortedRecordBatch
      let ready := startedIn keep handler sortedRecordBatch
      bufferRest (emissionTurnsIn keep time.name maxTs (turnBound maxTs ready.nextEmit)
        sortedRecordBatch ready) := by
  obtain ⟨column, located, start, last⟩ := @call_starts keep _ _ found nonempty handler
  simp only [handleEmittingIn, time_column_name_of_timed found, sort_by_time_column found, located,
    last, bind_of_ok (of_except_ok _ _), bind_of_ok start, bind_of_ok (get_apply _),
    buffer_rest_bind]

theorem handle_emitting_eq {handler : WindowHandler} {recordBatch : RecordBatch}
    {time : TimeColumn} (found : timeColumn recordBatch.schema = some time)
    (nonempty : recordBatch.rows ≠ []) :
    handleEmitting recordBatch handler =
      let sortedRecordBatch := recordBatch.sortRows time.index
      let maxTs := lastSeconds sortedRecordBatch
      let ready := started handler sortedRecordBatch
      bufferRest (emissionTurns time.name maxTs (turnBound maxTs ready.nextEmit)
        sortedRecordBatch ready) :=
  handle_emitting_in_eq found nonempty

end Turns

structure Kept (name : String) (batch : RecordBatch) : Prop where
  buffered : Buffered batch
  named : batch.schema.metadata.timeColumnName = some name
  chronological : Chronological batch

section Times

variable {name : String}

@[simp] theorem buffer_times_append (earlier later : List RecordBatch) :
    bufferTimes (earlier ++ later) = bufferTimes earlier ++ bufferTimes later :=
  List.flatMap_append

theorem sound_iff (emission : Emission) :
    emission.Sound ↔ ∀ time ∈ bufferTimes emission.window,
      emission.boundary - emission.period ≤ time ∧ time < emission.boundary := by
  constructor
  · intro sound time member
    obtain ⟨batch, inWindow, inTimes⟩ := List.mem_flatMap.mp member
    obtain ⟨row, inRows, rfl⟩ := List.mem_map.mp inTimes
    exact sound batch inWindow row inRows
  · intro sound batch inWindow row inRows
    exact sound _ (List.mem_flatMap.mpr ⟨batch, inWindow, List.mem_map_of_mem inRows⟩)

theorem times_sorted {batch : RecordBatch} (chronological : Chronological batch) :
    (times batch).Pairwise fun earlier later => earlier ≤ later :=
  List.pairwise_map.mpr chronological

theorem kept_slice_from {batch : RecordBatch} {position : Nat} (kept : Kept name batch)
    (nonempty : (batch.sliceFrom position).rows ≠ []) : Kept name (batch.sliceFrom position) where
  buffered := ⟨kept.buffered.timed, nonempty⟩
  named := kept.named
  chronological := List.Pairwise.sublist (List.drop_sublist _ _) kept.chronological

/-- Of times in order, those that are left when the old ones in front are dropped. -/
theorem drop_old_of_sorted {oldest : Int} {times : List Int}
    (sorted : times.Pairwise fun earlier later => earlier ≤ later) :
    times.dropWhile (fun time => decide (time < oldest)) =
      times.filter fun time => decide (oldest ≤ time) := by
  induction times with
  | nil => rfl
  | cons time rest induction =>
      rw [List.pairwise_cons] at sorted
      by_cases old : time < oldest
      · rw [List.dropWhile_cons_of_pos (by simpa using old),
          List.filter_cons_of_neg (by simpa using old), induction sorted.2]
      · rw [List.dropWhile_cons_of_neg (by simpa using old), eq_comm, List.filter_eq_self]
        intro other member
        rcases List.mem_cons.mp member with rfl | inRest
        · simpa using old
        · have le := sorted.1 other inRest
          simp only [decide_eq_true_eq]
          omega

theorem trimmed_times {oldest : Int} {buffer kept : List RecordBatch}
    (trimmed : Trimmed oldest buffer kept) (keeps : ∀ batch ∈ buffer, Kept name batch) :
    (∀ batch ∈ kept, Kept name batch) ∧
      bufferTimes kept =
        (bufferTimes buffer).dropWhile fun time => decide (time < oldest) := by
  induction trimmed with
  | empty => exact ⟨keeps, rfl⟩
  | @dropped batch rest kept old others induction =>
      obtain ⟨keptNext, times⟩ := induction fun other member => keeps other (by simp [member])
      refine ⟨keptNext, ?_⟩
      rw [times, bufferTimes, bufferTimes, List.flatMap_cons]
      refine (@drop_old_append _ id _ _ _ ?_).symm
      intro time member
      obtain ⟨row, inRows, rfl⟩ := List.mem_map.mp member
      exact old (keeps batch (by simp)).chronological row inRows
  | @cut batch rest position recent filtered =>
      have own := keeps batch (by simp)
      refine ⟨?_, ?_⟩
      · intro other member
        rcases List.mem_cons.mp member with rfl | inRest
        · exact kept_slice_from own recent
        · exact keeps other (by simp [inRest])
      · have left : times (batch.sliceFrom position) =
            (times batch).dropWhile fun time => decide (time < oldest) := by
          rw [drop_old_of_sorted (times_sorted own.chronological), times, times,
            List.filter_map, filtered own.chronological]
          rfl
        have inhabited : (times batch).dropWhile (fun time => decide (time < oldest)) ≠ [] := by
          rw [← left]
          simpa [times] using recent
        rw [bufferTimes, bufferTimes, List.flatMap_cons, List.flatMap_cons, left,
          List.dropWhile_append, if_neg (by simpa using inhabited)]

theorem seconds_of_equal_fields {left right : Schema} (same : left.equalFields right)
    (named : left.metadata.timeColumnName = right.metadata.timeColumnName) :
    seconds left = seconds right := by
  have columns : timeColumn left = timeColumn right := by
    simp only [timeColumn, named, Schema.fieldIndex, equal_fields_names same,
      equal_fields_types same]
  funext row
  rw [seconds, seconds, columns]

theorem joined_times {run : List RecordBatch} {result : RecordBatch} (joined : Joined run result)
    (named : ∀ batch ∈ run, batch.schema.metadata.timeColumnName = some name) :
    times result = bufferTimes run := by
  have own : result.schema.metadata.timeColumnName = some name := by
    have schemaOf := joined.schema
    cases run with
    | nil => cases schemaOf
    | cons batch batches =>
        rw [List.head?_cons, Option.map_some, Option.some.injEq] at schemaOf
        rw [← schemaOf]
        exact named batch (by simp)
  rw [times, joined.rows, List.map_flatMap, bufferTimes]
  apply List.flatMap_congr
  intro batch member
  have reads := seconds_of_equal_fields (joined.fields batch member)
    ((named batch member).trans own.symm)
  unfold times batchSeconds
  rw [reads]

theorem emitted_times {kept window : List RecordBatch} (emitted : EmittedAs kept window)
    (named : ∀ batch ∈ kept, batch.schema.metadata.timeColumnName = some name) :
    bufferTimes window = bufferTimes kept := by
  obtain ⟨⟨runs, covers, joined⟩, longest⟩ := emitted
  subst covers
  clear longest
  induction joined with
  | nil => rfl
  | @cons run result runs others first rest induction =>
      have namedRun : ∀ batch ∈ run, batch.schema.metadata.timeColumnName = some name :=
        fun batch member => named batch (by simp [member])
      have own := joined_times first namedRun
      have later := induction fun batch member => named batch (by
        rw [List.flatten_cons]
        exact List.mem_append_right _ member)
      rw [List.flatten_cons, buffer_times_append, ← own, ← later]
      rfl

structure TurnTimes (name : String) (handler : WindowHandler) (sortedRecordBatch : RecordBatch)
    (position : Nat) (final window : List RecordBatch) : Prop where
  kept : ∀ batch ∈ final, Kept name batch
  rest : Kept name (sortedRecordBatch.sliceFrom position)
  emitted : bufferTimes window =
    (bufferTimes handler.bufferedRecordBatches ++ (times sortedRecordBatch).filter fun time =>
      decide (time < handler.nextEmit)).dropWhile fun time =>
        decide (time < handler.nextEmit - handler.options.period)
  final : bufferTimes final = (bufferTimes window).dropWhile fun time =>
    decide (time < handler.nextEmit + handler.options.every - handler.options.period)
  split : times sortedRecordBatch = ((times sortedRecordBatch).filter fun time =>
    decide (time < handler.nextEmit)) ++ times (sortedRecordBatch.sliceFrom position)

theorem due_turn_times {handler : WindowHandler} {sortedRecordBatch : RecordBatch}
    {position : Nat} {kept final window : List RecordBatch}
    (keeps : ∀ batch ∈ handler.bufferedRecordBatches, Kept name batch)
    (own : Kept name sortedRecordBatch)
    (turn : DueTurn handler sortedRecordBatch position kept final window) :
    TurnTimes name handler sortedRecordBatch position final window := by
  have taken := (turn.cuts own.chronological).1
  have sliceTimes : times (sortedRecordBatch.slice 0 position) =
      (times sortedRecordBatch).filter fun time => decide (time < handler.nextEmit) := by
    rw [times, times, List.filter_map]
    exact congrArg (List.map _) (by rw [slice_rows, List.drop_zero, taken]; rfl)
  have due : (∀ batch ∈ dueBuffer handler sortedRecordBatch position, Kept name batch) ∧
      bufferTimes (dueBuffer handler sortedRecordBatch position) =
        bufferTimes handler.bufferedRecordBatches ++ (times sortedRecordBatch).filter fun time =>
          decide (time < handler.nextEmit) := by
    unfold dueBuffer
    split
    · next some =>
      constructor
      · intro batch member
        rcases List.mem_append.mp member with earlier | isSlice
        · exact keeps batch earlier
        · rw [List.mem_singleton.mp isSlice]
          refine ⟨⟨own.buffered.timed, ?_⟩, own.named, ?_⟩
          · intro empty
            have length := congrArg List.length empty
            have remains := turn.remains
            simp only [slice_rows, List.drop_zero, List.length_take, List.length_nil] at length
            omega
          · exact List.Pairwise.sublist (List.take_sublist _ _) own.chronological
      · rw [buffer_times_append, ← sliceTimes]
        simp [bufferTimes]
    · next none =>
      obtain rfl : position = 0 := by omega
      refine ⟨keeps, ?_⟩
      rw [← sliceTimes]
      simp [times]
  obtain ⟨keptKept, keptTimes⟩ := trimmed_times turn.trims due.1
  obtain ⟨finalKept, finalTimes⟩ := trimmed_times turn.advances keptKept
  have windowTimes := emitted_times turn.emits fun batch member => (keptKept batch member).named
  have remaining : (sortedRecordBatch.sliceFrom position).rows ≠ [] :=
    (slice_from_last_seconds turn.remains).1
  refine ⟨finalKept, kept_slice_from own remaining, ?_, ?_, ?_⟩
  · rw [windowTimes, keptTimes, due.2]
  · rw [windowTimes, finalTimes]
  · have whole := congrArg (List.map (batchSeconds sortedRecordBatch))
      (List.take_append_drop position sortedRecordBatch.rows)
    rw [List.map_append] at whole
    rw [← sliceTimes]
    exact whole.symm

theorem kept_sort_rows {batch : RecordBatch} {time : TimeColumn}
    (found : timeColumn batch.schema = some time) (nonempty : batch.rows ≠ [])
    (full : FullyTimed batch.schema batch.rows) : Kept time.name (batch.sortRows time.index) where
  buffered := ⟨by rw [Timed]; exact Option.isSome_iff_exists.mpr ⟨time, found⟩,
    sort_rows_ne_nil time.index nonempty⟩
  named := (time_column_cases found).1
  chronological := sort_rows_chronological found full

end Times

end StreamDataProcessor.Handlers.Window
