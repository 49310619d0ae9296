import StreamDataProcessor.Handlers.Emissions
import StreamDataProcessor.Handlers.WindowSpec

/-!
# Rows that come late

Old records leave the buffer from its front only. A row older than the period that came
after one that is not stays behind it, and is emitted with the next window.
-/

namespace StreamDataProcessor.Handlers.Window

open Foundation Foundation.Effect Foundation.HoppingWindow Foundation.TwosComplement
  Arrow Metadata Utils

set_option autoImplicit false

/-- Batches with rows under one time column, in any order of their times. -/
structure AnyOrder (name : String) (batches : List RecordBatch) : Prop where
  timed : ∀ batch ∈ batches, Timed batch.schema
  named : ∀ batch ∈ batches, batch.schema.metadata.timeColumnName = some name
  nonempty : ∀ batch ∈ batches, batch.rows ≠ []
  full : ∀ batch ∈ batches, FullyTimed batch.schema batch.rows
  nonneg : ∀ batch ∈ batches, ∀ row ∈ batch.rows, 0 ≤ rawTime batch.schema row

def arrived (batch : RecordBatch) : List Int := (times batch).insertionSort (· ≤ ·)

def clock (batch : RecordBatch) : Int := (arrived batch).getLastD 0

/-- At each boundary that a batch reaches, of the rows received before the boundary none older
than the period has come after one that is not. -/
def NoStragglers (options : WindowOptions) : Int → List Int → List RecordBatch → Prop
  | _, _, [] => True
  | next, received, batch :: rest =>
      let items := received ++ arrived batch
      let reached := dueCount next options.every (clock batch)
      (∀ index < reached,
        let upper := boundary next options.every index
        NoneStray id (upper - options.period) (items.filter (· < upper))) ∧
      NoStragglers options (boundary next options.every reached) items rest

def decideNoStragglers (options : WindowOptions) : (next : Int) → (received : List Int) →
    (batches : List RecordBatch) → Decidable (NoStragglers options next received batches)
  | _, _, [] => .isTrue trivial
  | next, received, batch :: rest =>
      have := decideNoStragglers options
        (boundary next options.every (dueCount next options.every (clock batch)))
        (received ++ arrived batch) rest
      inferInstanceAs (Decidable (_ ∧ _))

/-- No straggler in a run from the start: its first boundary is set by its first batch. -/
def InTime (options : WindowOptions) : List RecordBatch → Prop
  | [] => True
  | batch :: rest =>
      NoStragglers options (firstEmit options ((arrived batch).headD 0)) [] (batch :: rest)

instance (options : WindowOptions) (next : Int) (received : List Int)
    (batches : List RecordBatch) : Decidable (NoStragglers options next received batches) :=
  decideNoStragglers options next received batches

instance (options : WindowOptions) (batches : List RecordBatch) :
    Decidable (InTime options batches) :=
  match batches with
  | [] => .isTrue trivial
  | _ :: _ => inferInstanceAs (Decidable (NoStragglers _ _ _ _))

section Runs

variable {name : String} {options : WindowOptions}

theorem arrived_eq {batch : RecordBatch} {time : TimeColumn}
    (found : timeColumn batch.schema = some time)
    (full : FullyTimed batch.schema batch.rows) :
    times (batch.sortRows time.index) = arrived batch := by
  have sorted := times_sorted (sort_rows_chronological found full)
  have perm : List.Perm (times (batch.sortRows time.index)) (arrived batch) :=
    ((sort_rows_perm batch time.index).map _).trans (List.perm_insertionSort _ _).symm
  exact perm.eq_of_pairwise (fun _ _ _ _ => Int.le_antisymm) sorted
    (List.pairwise_insertionSort _ _)

theorem clock_eq {batch : RecordBatch} {time : TimeColumn}
    (found : timeColumn batch.schema = some time)
    (full : FullyTimed batch.schema batch.rows) :
    lastSeconds (batch.sortRows time.index) = clock batch := by
  rw [clock, ← arrived_eq found full, List.getLastD_eq_getLast?, times, List.getLast?_map]
  rfl

theorem first_seconds_arrived {batch : RecordBatch} {time : TimeColumn}
    (found : timeColumn batch.schema = some time)
    (full : FullyTimed batch.schema batch.rows) :
    firstSeconds (batch.sortRows time.index) = (arrived batch).headD 0 := by
  rw [← arrived_eq found full, List.headD_eq_head?_getD, times, List.head?_map]
  rfl

/-- The handler when the loop of a call begins, or between two of its turns, with the rows
received and the batch that is left. -/
structure Behind (name : String) (options : WindowOptions) (items : List Int)
    (handler : WindowHandler) (rest : List Int) : Prop where
  sameOptions : handler.options = options
  kept : ∀ batch ∈ handler.bufferedRecordBatches, Kept name batch
  early : ∀ time ∈ bufferTimes handler.bufferedRecordBatches, time < handler.nextEmit
  retains : Retains id (handler.nextEmit - options.period) items
    (bufferTimes handler.bufferedRecordBatches ++ rest)

theorem behind_turn {items : List Int} {handler : WindowHandler}
    {sortedRecordBatch : RecordBatch} {position : Nat} {kept final window : List RecordBatch}
    (positive : 1 ≤ options.every) (own : Kept name sortedRecordBatch)
    (behind : Behind name options items handler (times sortedRecordBatch))
    (turn : DueTurn handler sortedRecordBatch position kept final window) :
    Behind name options items
        { handler with
          bufferedRecordBatches := final
          emittedFirst := true
          nextEmit := handler.nextEmit + handler.options.every }
        (times (sortedRecordBatch.sliceFrom position)) ∧
      bufferTimes window = lateWindowAt id options.period handler.nextEmit items := by
  obtain ⟨rfl, keeps, early, retains⟩ := behind
  obtain ⟨keptFinal, _, emitted, finalTimes, split⟩ := due_turn_times keeps own turn
  have before : (bufferTimes handler.bufferedRecordBatches ++
      (times sortedRecordBatch).filter fun time => decide (time < handler.nextEmit)) =
      (bufferTimes handler.bufferedRecordBatches ++ times sortedRecordBatch).filter
        fun time => decide (time < handler.nextEmit) := by
    have all : (bufferTimes handler.bufferedRecordBatches).filter
        (fun time => decide (time < handler.nextEmit)) =
          bufferTimes handler.bufferedRecordBatches :=
      List.filter_eq_self.mpr fun time member => decide_eq_true (early time member)
    rw [List.filter_append, all]
  have windowEarly : ∀ time ∈ bufferTimes window, time < handler.nextEmit := by
    intro time member
    rw [emitted, before] at member
    have inFilter := (List.dropWhile_sublist _).subset member
    simpa using (List.mem_filter.mp inFilter).2
  refine ⟨⟨rfl, keptFinal, ?_, ?_⟩, ?_⟩
  · intro time member
    rw [finalTimes] at member
    have ahead := windowEarly time ((List.dropWhile_sublist _).subset member)
    dsimp only
    omega
  · dsimp only
    refine retains_trans (by omega) retains ?_
    rw [split, ← List.append_assoc]
    apply retains_append
    rw [finalTimes]
    refine retains_trans ?_ (emitted ▸ retains_drop_old _ _) (retains_drop_old _ _)
    omega
  · rw [emitted, before, late_window_of_retains retains le_rfl]
    rfl

/-- One call: what it emits at each boundary that its batch reaches. -/
theorem behind_call {next : Int} {received : List Int} {handler : WindowHandler}
    {batch : RecordBatch} {time : TimeColumn} (positive : 1 ≤ options.every)
    (found : timeColumn batch.schema = some time) (named : time.name = name)
    (nonempty : batch.rows ≠ []) (full : FullyTimed batch.schema batch.rows)
    (isNext : (started handler (batch.sortRows time.index)).nextEmit = next)
    (behind : Behind name options received (started handler (batch.sortRows time.index)) []) :
    ∃ emissions after, handleEmitting batch handler = .ok emissions after ∧
      (∀ emission ∈ emissions, emission.period = options.period ∧
        bufferTimes emission.window =
          lateWindowAt id options.period emission.boundary (received ++ arrived batch)) ∧
      emissions.map Emission.boundary =
        (List.range (dueCount next options.every (clock batch))).map
          (boundary next options.every) ∧
      after.nextEmit = boundary next options.every (dueCount next options.every (clock batch)) ∧
      Behind name options (received ++ arrived batch) after [] := by
  subst named
  have own := kept_sort_rows found nonempty full
  have running : Running time (lastSeconds (batch.sortRows time.index))
      (started handler (batch.sortRows time.index)) (batch.sortRows time.index) :=
    ⟨found, own.buffered.nonempty, rfl, fun other member => (behind.kept other member).buffered⟩
  have ready : Behind time.name options (received ++ arrived batch)
      (started handler (batch.sortRows time.index)) (times (batch.sortRows time.index)) := by
    refine ⟨behind.sameOptions, behind.kept, behind.early, ?_⟩
    have retains := retains_append behind.retains (arrived batch)
    rw [List.append_nil] at retains
    rw [arrived_eq found full]
    exact retains
  obtain ⟨emissions, rest, after, looped, ⟨final, restKept⟩, runs, sameOptions, each, boundaries,
    last, _⟩ := @emission_turns_return time (lastSeconds (batch.sortRows time.index))
      (fun handler rest => Behind time.name options (received ++ arrived batch) handler
        (times rest) ∧ Kept time.name rest)
      (fun emission => emission.period = options.period ∧ bufferTimes emission.window =
        lateWindowAt id options.period emission.boundary (received ++ arrived batch))
      (by
        rintro handler sorted position kept final window ⟨holds, keptSorted⟩ due _ turn
        obtain ⟨next, emitted⟩ := behind_turn positive keptSorted holds turn
        refine ⟨⟨next, (due_turn_times holds.kept keptSorted turn).rest⟩, ?_, emitted⟩
        rw [holds.sameOptions])
      (turnBound (lastSeconds (batch.sortRows time.index))
        (started handler (batch.sortRows time.index)).nextEmit) _ _ running
      ⟨ready, own⟩ (by rw [behind.sameOptions]; exact positive) (lt_turn_bound _ _)
  have ended := @lt_boundary_due_count next options.every (clock batch) (by omega)
  rw [behind.sameOptions, isNext, clock_eq found full] at boundaries last
  refine ⟨emissions, { after with
    bufferedRecordBatches := after.bufferedRecordBatches ++ [rest] }, ?_, each, boundaries, last,
    ⟨final.sameOptions, ?_, ?_, ?_⟩⟩
  · rw [handle_emitting_eq found nonempty]
    simp only [looped, buffer_rest_ok]
  · intro other member
    rcases List.mem_append.mp member with earlier | isRest
    · exact final.kept other earlier
    · rw [List.mem_singleton.mp isRest]
      exact restKept
  · intro moment member
    rw [buffer_times_append] at member
    rcases List.mem_append.mp member with earlier | inRest
    · exact final.early moment earlier
    · have inTimes : moment ∈ times rest := by simpa [bufferTimes] using inRest
      have upTo : moment ≤ lastSeconds rest := by
        rw [last_seconds_eq restKept.buffered.nonempty]
        obtain ⟨row, inRows, rfl⟩ := List.mem_map.mp inTimes
        have sorted := restKept.chronological
        rw [Chronological, ← List.dropLast_append_getLast restKept.buffered.nonempty] at sorted
        rw [← List.dropLast_append_getLast restKept.buffered.nonempty] at inRows
        rcases List.mem_append.mp inRows with before | isLast
        · exact (List.pairwise_append.mp sorted).2.2 row before _ (by simp)
        · rw [List.mem_singleton.mp isLast]
      rw [runs.clock, clock_eq found full] at upTo
      dsimp only
      omega
  · have retains := final.retains
    dsimp only
    rw [buffer_times_append, List.append_nil]
    simpa [bufferTimes] using retains

theorem sound_emissions_iff {next : Int} {items : List Int} {count : Nat}
    {emissions : List Emission}
    (each : ∀ emission ∈ emissions, emission.period = options.period ∧
      bufferTimes emission.window = lateWindowAt id options.period emission.boundary items)
    (boundaries : emissions.map Emission.boundary =
      (List.range count).map (boundary next options.every)) :
    (∀ emission ∈ emissions, emission.Sound) ↔
      ∀ index < count,
        NoneStray id (boundary next options.every index - options.period)
          (items.filter (· < boundary next options.every index)) := by
  have byBoundary : (∀ emission ∈ emissions, emission.Sound) ↔
      ∀ upper ∈ emissions.map Emission.boundary,
        NoneStray id (upper - options.period) (items.filter (· < upper)) := by
    rw [List.forall_mem_map]
    apply forall_congr'
    intro emission
    apply imp_congr_right
    intro member
    obtain ⟨period, windowTimes⟩ := each emission member
    rw [sound_iff, windowTimes, period]
    exact late_window_sound_iff
  rw [byBoundary, boundaries, List.forall_mem_map]
  simp only [List.mem_range]

theorem behind_run {next : Int} {received : List Int} {handler : WindowHandler}
    {batches : List RecordBatch} (positive : 1 ≤ options.every) (ahead : 0 < next)
    (stream : AnyOrder name batches)
    (ready : ∀ first ∈ batches.head?, ∀ time, timeColumn first.schema = some time →
      (started handler (first.sortRows time.index)).nextEmit = next ∧
      Behind name options received (started handler (first.sortRows time.index)) []) :
    ∃ emissions after, handleAllEmitting batches handler = .ok emissions after ∧
      (∀ emission ∈ emissions, emission.period = options.period) ∧
      ((∀ emission ∈ emissions, emission.Sound) ↔
        NoStragglers options next received batches) := by
  induction batches generalizing next received handler with
  | nil => exact ⟨[], handler, rfl, by simp, by simp [NoStragglers]⟩
  | cons batch rest induction =>
      obtain ⟨timed, named, nonempty, full, nonneg⟩ := stream
      obtain ⟨time, found⟩ := timed_cases (timed batch (by simp))
      obtain ⟨isNext, behind⟩ := ready batch rfl time found
      have isNamed : time.name = name := by
        have own := named batch (by simp)
        rw [(time_column_cases found).1, Option.some.injEq] at own
        exact own
      obtain ⟨emissions, after, handled, each, boundaries, last, behindNext⟩ :=
        behind_call positive found isNamed (nonempty batch (by simp)) (full batch (by simp))
          isNext behind
      have later := @le_boundary next options.every (by omega)
        (dueCount next options.every (clock batch))
      have startedAgain : ∀ sorted, started after sorted = after := by
        intro sorted
        rw [started, startedIn, if_neg (by omega)]
      obtain ⟨others, final, handledRest, periods, sound⟩ := @induction
        (boundary next options.every (dueCount next options.every (clock batch)))
        (received ++ arrived batch) after (by omega)
        ⟨fun other member => timed other (by simp [member]),
          fun other member => named other (by simp [member]),
          fun other member => nonempty other (by simp [member]),
          fun other member => full other (by simp [member]),
          fun other member => nonneg other (by simp [member])⟩
        (by
          intro first _ time _
          rw [startedAgain]
          exact ⟨last, behindNext⟩)
      refine ⟨emissions ++ others, final, ?_, ?_, ?_⟩
      · simp only [handleAllEmitting, handleAllEmittingIn, bind_of_ok handled, bind_of_ok handledRest, pure_apply]
      · intro emission member
        rcases List.mem_append.mp member with own | inRest
        · exact (each emission own).1
        · exact periods emission inRest
      · rw [List.forall_mem_append, sound, sound_emissions_iff each boundaries, NoStragglers]

theorem first_boundary_pos {batch : RecordBatch} (period : 1 ≤ options.period)
    (every : 1 ≤ options.every) (nonneg : ∀ row ∈ batch.rows, 0 ≤ rawTime batch.schema row) :
    0 < firstEmit options ((arrived batch).headD 0) := by
  have start : 0 ≤ (arrived batch).headD 0 := by
    rw [List.headD_eq_head?_getD]
    cases first : (arrived batch).head? with
    | none => exact le_refl _
    | some moment =>
        have inTimes := (List.mem_insertionSort _).mp (List.mem_of_head? first)
        obtain ⟨row, inRows, rfl⟩ := List.mem_map.mp inTimes
        exact seconds_nonneg (nonneg row inRows)
  rw [first_emit_eq]
  split <;> omega

/-- The boundaries that a fresh handler plans from the least time of its first batch on fit
64 bits. -/
def LatePlanFits (options : WindowOptions) (batches : List RecordBatch) : Prop :=
  ∀ first ∈ batches.head?, PlanFits options (firstEmit options ((arrived first).headD 0)) batches

/-- In a run of a window handler over batches in any order whose boundaries fit 64 bits, all
windows emitted are of their period just when no row strays behind a younger one. -/
theorem late_rows_sound_iff {name : String} {batches : List RecordBatch}
    (options : WindowOptions) (period : 1 ≤ options.period) (every : 1 ≤ options.every)
    (stream : AnyOrder name batches) (fits : LatePlanFits options batches) :
    ∃ emissions after,
      handleAllEmittingIn wrap64 batches { options := options } = .ok emissions after ∧
      handleAllIn wrap64 batches { options := options } =
        .ok (emissions.flatMap Emission.window) after ∧
      (∀ emission ∈ emissions, emission.period = options.period) ∧
      ((∀ emission ∈ emissions, emission.Sound) ↔ InTime options batches) := by
  rw [handle_all_eq_emitting]
  cases batches with
  | nil => exact ⟨[], _, rfl, rfl, by simp, by simp [InTime]⟩
  | cons batch rest =>
      have full := stream.full batch (by simp)
      have ahead := first_boundary_pos period every (stream.nonneg batch (by simp))
      have agree : handleAllEmittingIn wrap64 (batch :: rest) { options := options } =
          handleAllEmittingIn id (batch :: rest) { options := options } := by
        refine fresh_run_agrees every (by omega) ahead stream.timed stream.nonempty
          (fits batch rfl) ?_
        intro other isBatch time found
        obtain rfl : batch = other := by simpa using isBatch
        rw [first_seconds_arrived found full]
      obtain ⟨emissions, after, returned, periods, sound⟩ := @behind_run name options
        (firstEmit options ((arrived batch).headD 0)) [] { options := options } (batch :: rest)
        every ahead stream (by
          rintro first isFirst time found
          obtain rfl : batch = first := by simpa using isFirst
          rw [started, startedIn, if_pos rfl]
          refine ⟨?_, rfl, by simp, by simp [bufferTimes], retains_refl _ _⟩
          rw [first_seconds_arrived found full])
      have wrapped := agree.trans returned
      exact ⟨emissions, after, wrapped, by rw [bind_of_ok wrapped, pure_apply], periods, sound⟩

end Runs

theorem late_within_period_sound :
    ∃ emissions after,
      handleAllEmittingIn wrap64 ([[100, 104], [103], [111]].map (timesBatch none))
        { options := ⟨10, 5, false⟩ } = .ok emissions after ∧
      ∀ emission ∈ emissions, emission.Sound := by
  obtain ⟨emissions, after, returned, _, _, sound⟩ := @late_rows_sound_iff "time"
    ([[100, 104], [103], [111]].map (timesBatch none)) ⟨10, 5, false⟩ (by decide) (by decide) {
      timed := by decide
      named := by decide
      nonempty := by simp [timesBatch]
      full := by
        intro batch member time found row inRows
        obtain ⟨times, _, rfl⟩ := List.mem_map.mp member
        exact times_fully_timed none [times] time found row (by
          simpa [bufferRows] using inRows)
      nonneg := by decide } (by
        intro first isFirst
        obtain rfl : timesBatch none [100, 104] = first := by simpa using isFirst
        exact @plan_fits_of_latest _ _ _ 111 (by decide) (by decide) (by decide) (by decide)
          (by decide))
  refine ⟨emissions, after, returned, sound.mpr ?_⟩
  decide

/-- A row of 101 that comes behind one of 112 is in the window of 110 to 120. -/
theorem late_row_outside_window :
    ∃ emissions after,
      handleAllEmittingIn wrap64 ([[100], [112], [101], [125]].map (timesBatch none))
        { options := ⟨10, 10, false⟩ } = .ok emissions after ∧
      ¬∀ emission ∈ emissions, emission.Sound := by
  have emitted : (match handleAllEmittingIn wrap64 ([[100], [112], [101], [125]].map (timesBatch none))
        { options := ⟨10, 10, false⟩ } with
      | .ok emissions _ => some (emissions.map fun emission =>
          (emission.boundary, emission.period, bufferTimes emission.window))
      | .error _ _ => none) = some [(110, 10, [100]), (120, 10, [112, 101])] := by
    decide +kernel
  cases returned : handleAllEmittingIn wrap64 ([[100], [112], [101], [125]].map (timesBatch none))
      { options := ⟨10, 10, false⟩ } with
  | error fault after =>
      rw [returned] at emitted
      cases emitted
  | ok emissions after =>
      rw [returned, Option.some.injEq] at emitted
      refine ⟨emissions, after, rfl, ?_⟩
      intro sound
      have second : (120, 10, [112, 101]) ∈ emissions.map fun emission =>
          (emission.boundary, emission.period, bufferTimes emission.window) := by
        rw [emitted]
        simp
      obtain ⟨emission, member, same⟩ := List.mem_map.mp second
      simp only [Prod.mk.injEq] at same
      obtain ⟨upper, period, windowTimes⟩ := same
      have bounds := (sound_iff emission).mp (sound emission member) 101 (by
        rw [windowTimes]
        simp)
      omega

end StreamDataProcessor.Handlers.Window
