import StreamDataProcessor.Handlers.LateRows
import StreamDataProcessor.Handlers.WrappedRecords

/-!
# Windows under changing options

A change of an option may move `next_emit_`, but not before the time of the change. On a
stream in order the boundaries only grow. A row in the buffer can have the very time to which
a change moves the boundary, and is then emitted with the window that ends there.
-/

namespace StreamDataProcessor.Handlers.DynamicWindow

open Foundation Foundation.Effect Foundation.HoppingWindow Foundation.TwosComplement Arrow
  Metadata Utils Window

set_option autoImplicit false

section Calls

variable {name : String}

/-- Between the turns of a call that found some times in its buffer and batch, with its first
boundary at `start`. -/
structure Turning (name : String) (options : WindowOptions) (items : List Int) (early doomed : Prop)
    (start : Int) (handler : WindowHandler) (rest : RecordBatch) : Prop where
  sameOptions : handler.options = options
  kept : ∀ batch ∈ handler.bufferedRecordBatches, Kept name batch
  own : Kept name rest
  within : (bufferTimes handler.bufferedRecordBatches ++ times rest).Sublist items
  early : early → ∀ time ∈ bufferTimes handler.bufferedRecordBatches, time < handler.nextEmit
  doomed : doomed → (handler.nextEmit = start ∧
    start ∈ bufferTimes handler.bufferedRecordBatches) ∨ start < handler.nextEmit

theorem turning_turn {options : WindowOptions} {items : List Int} {early doomed : Prop}
    {start : Int} {handler : WindowHandler} {sortedRecordBatch : RecordBatch} {position : Nat}
    {kept final window : List RecordBatch} (period : 1 ≤ options.period)
    (every : 1 ≤ options.every) (sorted : items.Pairwise (· ≤ ·))
    (turning : Turning name options items early doomed start handler sortedRecordBatch)
    (turn : DueTurn handler sortedRecordBatch position kept final window) :
    Turning name options items early doomed start
        { handler with
          bufferedRecordBatches := final
          emittedFirst := true
          nextEmit := handler.nextEmit + handler.options.every }
        (sortedRecordBatch.sliceFrom position) ∧
      (early → (Emission.mk handler.nextEmit handler.options.period window).Sound) ∧
      (doomed → handler.nextEmit = start → start ∈ bufferTimes window) := by
  obtain ⟨rfl, keeps, own, within, isEarly, isDoomed⟩ := turning
  obtain ⟨keptFinal, restKept, emitted, finalTimes, split⟩ := due_turn_times keeps own turn
  have inOrder : (bufferTimes handler.bufferedRecordBatches ++
      (times sortedRecordBatch).filter fun time => decide (time < handler.nextEmit)).Pairwise
        (· ≤ ·) := by
    refine List.Pairwise.sublist ?_ (List.Pairwise.sublist within sorted)
    exact List.Sublist.append (List.Sublist.refl _) List.filter_sublist
  have windowEarly : early → ∀ time ∈ bufferTimes window, time < handler.nextEmit := by
    intro holds time member
    rw [emitted] at member
    rcases List.mem_append.mp ((List.dropWhile_sublist _).subset member) with earlier | fresh
    · exact isEarly holds time earlier
    · simpa using (List.mem_filter.mp fresh).2
  refine ⟨⟨rfl, keptFinal, restKept, ?_, ?_, ?_⟩, ?_, ?_⟩
  · refine List.Sublist.trans ?_ within
    rw [split, ← List.append_assoc]
    refine List.Sublist.append ?_ (List.Sublist.refl _)
    rw [finalTimes, emitted]
    exact (List.dropWhile_sublist _).trans (List.dropWhile_sublist _)
  · intro holds time member
    rw [finalTimes] at member
    have before := windowEarly holds time ((List.dropWhile_sublist _).subset member)
    dsimp only
    omega
  · intro holds
    refine .inr ?_
    dsimp only
    rcases isDoomed holds with ⟨same, _⟩ | passed
    · omega
    · omega
  · intro holds
    rw [sound_iff]
    intro time member
    refine ⟨?_, windowEarly holds time member⟩
    rw [emitted, drop_old_of_sorted inOrder] at member
    simpa using (List.mem_filter.mp member).2
  · intro holds same
    rcases isDoomed holds with ⟨_, inBuffer⟩ | passed
    · rw [emitted, drop_old_of_sorted inOrder]
      apply List.mem_filter.mpr
      refine ⟨List.mem_append_left _ inBuffer, ?_⟩
      simp only [decide_eq_true_eq]
      omega
    · omega

structure Slice (name : String) (batch : RecordBatch) : Prop where
  timed : Timed batch.schema
  named : batch.schema.metadata.timeColumnName = some name
  nonempty : batch.rows ≠ []
  full : FullyTimed batch.schema batch.rows

theorem slice_time {slice : RecordBatch} (isSlice : Slice name slice) :
    ∃ time, timeColumn slice.schema = some time ∧ time.name = name := by
  obtain ⟨time, found⟩ := timed_cases isSlice.timed
  have own := isSlice.named
  rw [(time_column_cases found).1, Option.some.injEq] at own
  exact ⟨time, found, own⟩

theorem arrived_of_sorted {slice : RecordBatch} (sorted : (times slice).Pairwise (· ≤ ·)) :
    arrived slice = times slice := List.Pairwise.insertionSort_eq sorted

theorem le_clock {slice : RecordBatch} (sorted : (times slice).Pairwise (· ≤ ·)) {time : Int}
    (member : time ∈ times slice) : time ≤ clock slice := by
  have nonempty : times slice ≠ [] := List.ne_nil_of_mem member
  rw [clock, arrived_of_sorted sorted, List.getLastD_eq_getLast?,
    List.getLast?_eq_some_getLast nonempty, Option.getD_some]
  rw [← List.dropLast_append_getLast nonempty] at sorted member
  rcases List.mem_append.mp member with before | isLast
  · exact (List.pairwise_append.mp sorted).2.2 time before _ (by simp)
  · rw [List.mem_singleton.mp isLast]

theorem clock_mem {slice : RecordBatch} (isSlice : Slice name slice) :
    clock slice ∈ times slice := by
  have nonempty : arrived slice ≠ [] := by
    intro empty
    have length := congrArg List.length empty
    rw [arrived, List.length_insertionSort, times, List.length_map, List.length_nil] at length
    exact isSlice.nonempty (List.length_eq_zero_iff.mp length)
  rw [clock, List.getLastD_eq_getLast?, List.getLast?_eq_some_getLast nonempty, Option.getD_some]
  exact (List.mem_insertionSort _).mp (List.getLast_mem nonempty)

def nextOf (handler : WindowHandler) (slice : RecordBatch) : Int :=
  if handler.nextEmit = 0 then firstEmit handler.options ((times slice).headD 0)
  else handler.nextEmit

structure SliceCall (name : String) (handler : WindowHandler) (slice : RecordBatch)
    (emissions : List Emission) (after : WindowHandler) : Prop where
  boundaries : emissions.map Emission.boundary =
    (List.range (dueCount (nextOf handler slice) handler.options.every (clock slice))).map
      (boundary (nextOf handler slice) handler.options.every)
  next : after.nextEmit = boundary (nextOf handler slice) handler.options.every
    (dueCount (nextOf handler slice) handler.options.every (clock slice))
  emittedFirst : after.emittedFirst =
    (handler.emittedFirst || decide (clock slice ≥ nextOf handler slice))
  sameOptions : after.options = handler.options
  kept : ∀ batch ∈ after.bufferedRecordBatches, Kept name batch
  within : (bufferTimes after.bufferedRecordBatches).Sublist
    (bufferTimes handler.bufferedRecordBatches ++ times slice)
  sound : (∀ time ∈ bufferTimes handler.bufferedRecordBatches, time < nextOf handler slice) →
    ∀ emission ∈ emissions, emission.Sound
  unsound : nextOf handler slice ∈ bufferTimes handler.bufferedRecordBatches →
    nextOf handler slice ≤ clock slice → ∃ emission ∈ emissions, ¬emission.Sound

theorem slice_call {handler : WindowHandler} {slice : RecordBatch}
    (period : 1 ≤ handler.options.period) (every : 1 ≤ handler.options.every)
    (kept : ∀ batch ∈ handler.bufferedRecordBatches, Kept name batch) (isSlice : Slice name slice)
    (sorted : (bufferTimes handler.bufferedRecordBatches ++ times slice).Pairwise (· ≤ ·)) :
    ∃ emissions after, handleEmitting slice handler = .ok emissions after ∧
      SliceCall name handler slice emissions after := by
  obtain ⟨time, found, named⟩ := slice_time isSlice
  subst named
  have own := kept_sort_rows found isSlice.nonempty isSlice.full
  have sliceSorted := (List.pairwise_append.mp sorted).2.1
  have sortedTimes : times (slice.sortRows time.index) = times slice :=
    (arrived_eq found isSlice.full).trans (arrived_of_sorted sliceSorted)
  have start : (started handler (slice.sortRows time.index)).nextEmit = nextOf handler slice := by
    rw [started, startedIn, nextOf, first_seconds_arrived found isSlice.full, arrived_of_sorted sliceSorted]
    split <;> rfl
  have running : Running time (lastSeconds (slice.sortRows time.index))
      (started handler (slice.sortRows time.index)) (slice.sortRows time.index) := by
    refine ⟨found, own.buffered.nonempty, rfl, ?_⟩
    rw [started_buffer]
    exact fun other member => (kept other member).buffered
  have turning : Turning time.name handler.options
      (bufferTimes handler.bufferedRecordBatches ++ times slice)
      (∀ time ∈ bufferTimes handler.bufferedRecordBatches, time < nextOf handler slice)
      (nextOf handler slice ∈ bufferTimes handler.bufferedRecordBatches) (nextOf handler slice)
      (started handler (slice.sortRows time.index)) (slice.sortRows time.index) := by
    refine ⟨started_options _ _, ?_, own, ?_, ?_, ?_⟩
    · rw [started_buffer]
      exact kept
    · rw [started_buffer, sortedTimes]
    · rw [started_buffer, start]
      exact id
    · rw [started_buffer, start]
      exact fun doomed => .inl ⟨rfl, doomed⟩
  obtain ⟨emissions, rest, after, looped, final, runs, sameOptions, each, boundaries, last,
    emittedFirst⟩ := @emission_turns_return time (lastSeconds (slice.sortRows time.index))
      (fun handler' rest => Turning time.name handler.options
        (bufferTimes handler.bufferedRecordBatches ++ times slice)
        (∀ time ∈ bufferTimes handler.bufferedRecordBatches, time < nextOf handler slice)
        (nextOf handler slice ∈ bufferTimes handler.bufferedRecordBatches) (nextOf handler slice)
        handler' rest)
      (fun emission =>
        ((∀ time ∈ bufferTimes handler.bufferedRecordBatches, time < nextOf handler slice) →
          emission.Sound) ∧
        (nextOf handler slice ∈ bufferTimes handler.bufferedRecordBatches →
          emission.boundary = nextOf handler slice →
            nextOf handler slice ∈ bufferTimes emission.window))
      (fun _ _ _ _ _ _ holds _ _ turn => turning_turn period every sorted holds turn)
      (turnBound (lastSeconds (slice.sortRows time.index))
        (started handler (slice.sortRows time.index)).nextEmit) _ _ running turning
      (by rw [started_options]; exact every) (lt_turn_bound _ _)
  rw [started_options, start, clock_eq found isSlice.full] at boundaries last
  rw [start, clock_eq found isSlice.full] at emittedFirst
  rw [started_options] at sameOptions
  refine ⟨emissions, { after with
    bufferedRecordBatches := after.bufferedRecordBatches ++ [rest] }, ?_,
    ⟨boundaries, last, ?_, sameOptions, ?_, ?_, ?_, ?_⟩⟩
  · rw [handle_emitting_eq found isSlice.nonempty]
    simp only [looped, buffer_rest_ok]
  · rw [emittedFirst, started, startedIn]
    split <;> rfl
  · intro other member
    rcases List.mem_append.mp member with earlier | isRest
    · exact final.kept other earlier
    · rw [List.mem_singleton.mp isRest]
      exact final.own
  · rw [buffer_times_append]
    simpa [bufferTimes] using final.within
  · intro early emission member
    exact (each emission member).1 early
  · intro doomed due
    have first : nextOf handler slice ∈ emissions.map Emission.boundary := by
      rw [boundaries]
      apply List.mem_map.mpr
      refine ⟨0, ?_, by simp [boundary]⟩
      rw [List.mem_range, lt_due_count_iff (by omega)]
      simpa [boundary] using due
    obtain ⟨emission, member, isFirst⟩ := List.mem_map.mp first
    refine ⟨emission, member, ?_⟩
    intro sound
    have inWindow := (each emission member).2 doomed isFirst
    have bounds := (sound_iff emission).mp sound _ inWindow
    omega

end Calls

section Changes

variable {name : String}

structure Ready (name : String) (coming : List Int) (floor : Option Int)
    (handler : WindowHandler) : Prop where
  kept : ∀ batch ∈ handler.bufferedRecordBatches, Kept name batch
  ordered : (bufferTimes handler.bufferedRecordBatches ++ coming).Pairwise (· ≤ ·)
  passed : ∀ last ∈ floor, last < handler.nextEmit ∧ ∀ time ∈ coming, last ≤ time
  emitted : handler.emittedFirst = floor.isSome

/-- The next boundary is as far from the last as the windows in force are apart. -/
def Spaced (floor : Option Int) (handler : WindowHandler) : Prop :=
  ∀ last ∈ floor, 0 ≤ last → last + handler.options.every ≤ handler.nextEmit

def DueAt (coming : List Int) (handler : WindowHandler) : Prop :=
  ∃ first, coming.head? = some first ∧ handler.nextEmit ≤ first

/-- All rows in the buffer are before the next boundary, once it is set. -/
def Early (handler : WindowHandler) : Prop :=
  handler.nextEmit ≠ 0 →
    ∀ time ∈ bufferTimes handler.bufferedRecordBatches, time < handler.nextEmit

/-- A new period moves the first boundary to the time of the change, which a row in the
buffer has. -/
def PeriodCollides (value ts : Int) (handler : WindowHandler) : Prop :=
  handler.nextEmit ≠ 0 ∧ (handler.emittedFirst = false ∧ handler.options.fillPeriod = true) ∧
    handler.nextEmit + value - handler.options.period = ts ∧ 0 < ts ∧
    ts ∈ bufferTimes handler.bufferedRecordBatches

/-- A new distance of the windows moves the next boundary to the time of the change, which a
row in the buffer has. -/
def EveryCollides (value ts : Int) (handler : WindowHandler) : Prop :=
  handler.nextEmit ≠ 0 ∧ (handler.emittedFirst = true ∨ handler.options.fillPeriod = false) ∧
    handler.nextEmit + value - handler.options.every = ts ∧ 0 < ts ∧
    ts ∈ bufferTimes handler.bufferedRecordBatches

/-- What the boundaries of some emissions do to the last boundary reached. -/
structure Grows (floor : Option Int) (emissions : List Emission) (later : Option Int) : Prop where
  increasing : (emissions.map Emission.boundary).Pairwise (· < ·)
  above : ∀ last ∈ floor, ∀ emission ∈ emissions, last < emission.boundary
  upTo : ∀ emission ∈ emissions, ∃ last ∈ later, emission.boundary ≤ last
  kept : ∀ last ∈ floor, ∃ next ∈ later, last ≤ next

theorem grows_refl (floor : Option Int) : Grows floor [] floor :=
  ⟨.nil, by simp, by simp, fun last isLast => ⟨last, isLast, le_rfl⟩⟩

theorem grows_append {floor middle later : Option Int} {first second : List Emission}
    (earlier : Grows floor first middle) (rest : Grows middle second later) :
    Grows floor (first ++ second) later := by
  refine ⟨?_, ?_, ?_, ?_⟩
  · rw [List.map_append, List.pairwise_append]
    refine ⟨earlier.increasing, rest.increasing, ?_⟩
    intro low inFirst high inSecond
    obtain ⟨emission, member, rfl⟩ := List.mem_map.mp inFirst
    obtain ⟨other, otherMember, rfl⟩ := List.mem_map.mp inSecond
    obtain ⟨last, isLast, le⟩ := earlier.upTo emission member
    exact lt_of_le_of_lt le (rest.above last isLast other otherMember)
  · intro last isLast emission member
    rcases List.mem_append.mp member with inFirst | inSecond
    · exact earlier.above last isLast emission inFirst
    · obtain ⟨next, isNext, le⟩ := earlier.kept last isLast
      exact lt_of_le_of_lt le (rest.above next isNext emission inSecond)
  · intro emission member
    rcases List.mem_append.mp member with inFirst | inSecond
    · obtain ⟨last, isLast, le⟩ := earlier.upTo emission inFirst
      obtain ⟨next, isNext, further⟩ := rest.kept last isLast
      exact ⟨next, isNext, le.trans further⟩
    · exact rest.upTo emission inSecond
  · intro last isLast
    obtain ⟨next, isNext, le⟩ := earlier.kept last isLast
    obtain ⟨final, isFinal, further⟩ := rest.kept next isNext
    exact ⟨final, isFinal, le.trans further⟩

theorem boundaries_increase {first every : Int} (positive : 1 ≤ every) (count : Nat) :
    ((List.range count).map (boundary first every)).Pairwise (· < ·) := by
  rw [List.pairwise_map]
  refine List.pairwise_lt_range.imp ?_
  intro earlier later before
  have apart := @boundary_mono first every (by omega) (earlier + 1) later (by omega)
  have step : boundary first every (earlier + 1) = boundary first every earlier + every := by
    unfold boundary
    push_cast
    ring
  omega

theorem last_lt_next_of {coming : List Int} {floor : Option Int} {handler : WindowHandler}
    {slice : RecordBatch} (period : 1 ≤ handler.options.period)
    (every : 1 ≤ handler.options.every) (isSlice : Slice name slice)
    (ready : Ready name (times slice ++ coming) floor handler) :
    ∀ last ∈ floor, last < nextOf handler slice := by
  intro last isLast
  obtain ⟨below, passed⟩ := ready.passed last isLast
  have nonempty : times slice ≠ [] := List.ne_nil_of_mem (clock_mem isSlice)
  unfold nextOf
  split
  · have first := passed _ (List.mem_append_left _ (List.head_mem nonempty))
    rw [List.headD_eq_head?_getD, List.head?_eq_some_head nonempty, Option.getD_some, first_emit_eq]
    split <;> omega
  · exact below

theorem SliceCall.boundary_of_emission {handler after : WindowHandler} {slice : RecordBatch}
    {emissions : List Emission} (call : SliceCall name handler slice emissions after)
    {emission : Emission} (member : emission ∈ emissions) :
    ∃ index < dueCount (nextOf handler slice) handler.options.every (clock slice),
      boundary (nextOf handler slice) handler.options.every index = emission.boundary := by
  have isBoundary := List.mem_map_of_mem (f := Emission.boundary) member
  rw [call.boundaries] at isBoundary
  obtain ⟨index, inRange, same⟩ := List.mem_map.mp isBoundary
  exact ⟨index, List.mem_range.mp inRange, same⟩

/-- One slice: the boundaries go on growing, and what is in the buffer is before the next. -/
theorem ready_slice {coming : List Int} {floor : Option Int} {handler after : WindowHandler}
    {slice : RecordBatch} {emissions : List Emission} (period : 1 ≤ handler.options.period)
    (every : 1 ≤ handler.options.every) (isSlice : Slice name slice)
    (ready : Ready name (times slice ++ coming) floor handler)
    (gap : Spaced floor handler ∨ DueAt (times slice) handler)
    (call : SliceCall name handler slice emissions after) :
    ∃ later, Ready name coming later after ∧ Spaced later after ∧ Early after ∧
      Grows floor emissions later := by
  have sorted := (List.pairwise_append.mp (List.append_assoc _ _ _ ▸ ready.ordered)).1
  have sliceSorted := (List.pairwise_append.mp sorted).2.1
  have ended := @lt_boundary_due_count (nextOf handler slice) handler.options.every (clock slice)
    (by omega)
  rw [← call.next] at ended
  have upTo : ∀ time ∈ bufferTimes after.bufferedRecordBatches, time ≤ clock slice := by
    intro time member
    rcases List.mem_append.mp (call.within.subset member) with earlier | inSlice
    · exact (List.pairwise_append.mp sorted).2.2 time earlier _ (clock_mem isSlice)
    · exact le_clock sliceSorted inSlice
  have early : Early after := fun _ time member => lt_of_le_of_lt (upTo time member) ended
  have ordered : (bufferTimes after.bufferedRecordBatches ++ coming).Pairwise (· ≤ ·) := by
    refine List.Pairwise.sublist ?_ ready.ordered
    rw [← List.append_assoc]
    exact List.Sublist.append call.within (List.Sublist.refl _)
  have clockPassed : ∀ time ∈ coming, clock slice ≤ time := by
    intro time member
    have rest := (List.pairwise_append.mp ready.ordered).2.1
    exact (List.pairwise_append.mp rest).2.2 _ (clock_mem isSlice) time member
  have above := last_lt_next_of period every isSlice ready
  by_cases due : clock slice ≥ nextOf handler slice
  · obtain ⟨count, isCount⟩ : ∃ count,
        dueCount (nextOf handler slice) handler.options.every (clock slice) = count + 1 := by
      apply Nat.exists_eq_succ_of_ne_zero
      have some := (@lt_due_count_iff (nextOf handler slice) handler.options.every (clock slice)
        (by omega) 0).mpr (by simpa [boundary] using due)
      omega
    have reached := (@lt_due_count_iff (nextOf handler slice) handler.options.every (clock slice)
      (by omega) count).mp (by omega)
    have step : after.nextEmit = boundary (nextOf handler slice) handler.options.every count +
        handler.options.every := by
      rw [call.next, isCount]
      unfold boundary
      push_cast
      ring
    have start := @le_boundary (nextOf handler slice) handler.options.every (by omega) count
    refine ⟨some (boundary (nextOf handler slice) handler.options.every count),
      ⟨call.kept, ordered, ?_, ?_⟩, ?_, early, ⟨?_, ?_, ?_, ?_⟩⟩
    · intro last isLast
      obtain rfl := Option.some.inj isLast
      refine ⟨by omega, ?_⟩
      intro time member
      exact reached.trans (clockPassed time member)
    · rw [call.emittedFirst, decide_eq_true due]
      simp
    · intro last isLast _
      obtain rfl := Option.some.inj isLast
      rw [call.sameOptions, step]
    · rw [call.boundaries]
      exact boundaries_increase every _
    · intro last isLast emission member
      obtain ⟨index, _, same⟩ := call.boundary_of_emission member
      have ahead := @le_boundary (nextOf handler slice) handler.options.every (by omega) index
      have below := above last isLast
      omega
    · intro emission member
      obtain ⟨index, inRange, same⟩ := call.boundary_of_emission member
      rw [isCount] at inRange
      refine ⟨_, rfl, ?_⟩
      rw [← same]
      exact boundary_mono (by omega) (by omega)
    · intro last isLast
      have below := above last isLast
      exact ⟨_, rfl, by omega⟩
  · have none := (@due_count_eq_zero (nextOf handler slice) handler.options.every (clock slice))
      (by omega) (by omega)
    have quiet : emissions = [] := by
      have boundaries := call.boundaries
      rw [none] at boundaries
      exact List.map_eq_nil_iff.mp boundaries
    have next : after.nextEmit = nextOf handler slice := by
      rw [call.next, none]
      simp [boundary]
    subst quiet
    refine ⟨floor, ⟨call.kept, ordered, ?_, ?_⟩, ?_, early, grows_refl floor⟩
    · intro last isLast
      refine ⟨by rw [next]; exact above last isLast, ?_⟩
      intro time member
      exact (ready.passed last isLast).2 time (List.mem_append_right _ member)
    · rw [call.emittedFirst, decide_eq_false due, Bool.or_false]
      exact ready.emitted
    · intro last isLast nonneg
      have below := (ready.passed last isLast).1
      have set : nextOf handler slice = handler.nextEmit := by
        rw [nextOf, if_neg (by omega)]
      rw [next, set, call.sameOptions]
      rcases gap with spaced | ⟨first, isFirst, reached⟩
      · exact spaced last isLast nonneg
      · have le := le_clock sliceSorted (List.mem_of_mem_head? isFirst)
        omega

/-- No change of an option is left to make before the next row. -/
def Settled (schema : Schema) (timeColumnName : String) (option : Option OptionColumn)
    (inForce : Int) (rows : List Row) : Prop :=
  ∀ value ts, ¬AsksAnew schema timeColumnName option inForce value ts rows

theorem settled_of_asked {schema : Schema} {timeColumnName : String}
    {option : Option OptionColumn} {inForce value ts : Int} {rows : List Row}
    (asks : AsksAnew schema timeColumnName option inForce value ts rows) :
    Settled schema timeColumnName option value rows := by
  intro other otherTs again
  obtain ⟨⟨column, row, isColumn, isRow, cell, _⟩, _⟩ := asks
  obtain ⟨⟨sameColumn, sameRow, isSameColumn, isSameRow, otherCell, _⟩, differs⟩ := again
  rw [isColumn, Option.some.injEq] at isSameColumn
  rw [isRow, Option.some.injEq] at isSameRow
  rw [← isSameColumn, ← isSameRow, cell, Except.ok.injEq] at otherCell
  exact differs otherCell.symm

section Setters

variable {coming : List Int} {floor : Option Int} {handler : WindowHandler} {value ts : Int}

theorem ready_set_period (ready : Ready name coming floor handler) :
    Ready name coming floor (setPeriodOption value ts handler) := by
  refine ⟨ready.kept, ready.ordered, ?_, ready.emitted⟩
  intro last isLast
  have emitted : handler.emittedFirst = true := by rw [ready.emitted, isLast]; rfl
  have same : (setPeriodOption value ts handler).nextEmit = handler.nextEmit := by
    simp [setPeriodOption, setPeriodOptionIn, emitted]
  rw [same]
  exact ready.passed last isLast

theorem gap_set_period (ready : Ready name coming floor handler) {settled : Prop}
    {times : List Int} (gap : Spaced floor handler ∨ DueAt times handler ∧ settled) :
    Spaced floor (setPeriodOption value ts handler) ∨
      DueAt times (setPeriodOption value ts handler) ∧ settled := by
  cases isFloor : floor with
  | none => exact .inl (by simp [Spaced])
  | some last =>
      have emitted : handler.emittedFirst = true := by rw [ready.emitted, isFloor]; rfl
      have same : (setPeriodOption value ts handler).nextEmit = handler.nextEmit := by
        simp [setPeriodOption, setPeriodOptionIn, emitted]
      rw [isFloor] at gap
      unfold Spaced DueAt at gap ⊢
      rw [same]
      exact gap

theorem early_set_period (early : Early handler) (comes : ts ∈ coming)
    (ready : Ready name coming floor handler) (clear : ¬PeriodCollides value ts handler) :
    Early (setPeriodOption value ts handler) := by
  intro started time member
  simp only [setPeriodOption, setPeriodOptionIn, id_eq] at started member ⊢
  split at started
  · next moves =>
    rw [if_pos moves]
    have le := (List.pairwise_append.mp ready.ordered).2.2 time member ts comes
    by_contra reached
    obtain ⟨set, first, fill, guard, notBefore⟩ := moves
    obtain rfl : time = ts := by omega
    exact clear ⟨set, ⟨by simpa using first, fill⟩, by omega, by omega, member⟩
  · next stays =>
    rw [if_neg stays]
    exact early started time member

theorem ready_set_every (positive : 1 ≤ value)
    (ready : Ready name coming floor handler) (spaced : Spaced floor handler) :
    Ready name coming floor (setEveryOption value ts handler) := by
  refine ⟨ready.kept, ready.ordered, ?_, ready.emitted⟩
  intro last isLast
  obtain ⟨below, passed⟩ := ready.passed last isLast
  refine ⟨?_, passed⟩
  simp only [setEveryOption, setEveryOptionIn, id_eq]
  split
  · next moves =>
    obtain ⟨_, _, guard, _⟩ := moves
    by_cases nonneg : 0 ≤ last
    · have apart := spaced last isLast nonneg
      omega
    · omega
  · exact below

theorem gap_set_every {times : List Int} (head : times.head? = some ts) (comes : ts ∈ coming)
    (ready : Ready name coming floor handler) (spaced : Spaced floor handler) :
    Spaced floor (setEveryOption value ts handler) ∨
      DueAt times (setEveryOption value ts handler) := by
  by_cases due : (setEveryOption value ts handler).nextEmit ≤ ts
  · exact .inr ⟨ts, head, due⟩
  · refine .inl ?_
    intro last isLast nonneg
    obtain ⟨below, passed⟩ := ready.passed last isLast
    have apart := spaced last isLast nonneg
    have le := passed ts comes
    have emitted : handler.emittedFirst = true := by rw [ready.emitted, isLast]; rfl
    simp only [setEveryOption, setEveryOptionIn, id_eq] at due ⊢
    split
    · omega
    · next stays =>
      rw [if_neg stays] at due
      have notMoved : ¬(handler.nextEmit + value ≥ handler.options.every ∧
          handler.nextEmit + value - handler.options.every ≥ ts) := by
        intro moved
        exact stays ⟨by omega, .inl emitted, moved⟩
      omega

theorem early_set_every (early : Early handler) (comes : ts ∈ coming)
    (ready : Ready name coming floor handler) (clear : ¬EveryCollides value ts handler) :
    Early (setEveryOption value ts handler) := by
  intro started time member
  simp only [setEveryOption, setEveryOptionIn, id_eq] at started member ⊢
  split at started
  · next moves =>
    rw [if_pos moves]
    have le := (List.pairwise_append.mp ready.ordered).2.2 time member ts comes
    by_contra reached
    obtain ⟨set, phase, guard, notBefore⟩ := moves
    obtain rfl : time = ts := by omega
    exact clear ⟨set, by simpa using phase, by omega, by omega, member⟩
  · next stays =>
    rw [if_neg stays]
    exact early started time member

/-- The next row reaches a boundary that a row in the buffer has the time of, and nothing moves
the boundary before. -/
structure Doomed (times : List Int) (periodSettled everySettled : Prop)
    (handler : WindowHandler) : Prop where
  set : handler.nextEmit ≠ 0
  due : times.head? = some handler.nextEmit
  buffered : handler.nextEmit ∈ bufferTimes handler.bufferedRecordBatches
  fixed : ((handler.emittedFirst = false ∧ handler.options.fillPeriod = true) ∧ periodSettled) ∨
    ((handler.emittedFirst = true ∨ handler.options.fillPeriod = false) ∧ everySettled)

theorem doomed_of_period_collides {times : List Int} {periodSettled everySettled : Prop}
    (head : times.head? = some ts) (collides : PeriodCollides value ts handler)
    (settled : periodSettled) :
    Doomed times periodSettled everySettled (setPeriodOption value ts handler) := by
  obtain ⟨set, ⟨first, fill⟩, onto, positive, buffered⟩ := collides
  have moved : (setPeriodOption value ts handler).nextEmit = ts := by
    simp only [setPeriodOption, setPeriodOptionIn, id_eq]
    rw [if_pos ⟨set, by simp [first], fill, by omega, by omega⟩]
    exact onto
  refine ⟨by omega, by rw [moved]; exact head, by rw [moved]; exact buffered, .inl ?_⟩
  exact ⟨⟨first, fill⟩, settled⟩

theorem doomed_of_every_collides {times : List Int} {periodSettled everySettled : Prop}
    (head : times.head? = some ts) (collides : EveryCollides value ts handler)
    (settled : everySettled) :
    Doomed times periodSettled everySettled (setEveryOption value ts handler) := by
  obtain ⟨set, phase, onto, positive, buffered⟩ := collides
  have moved : (setEveryOption value ts handler).nextEmit = ts := by
    simp only [setEveryOption, setEveryOptionIn, id_eq]
    rw [if_pos ⟨set, by simpa using phase, by omega, by omega⟩]
    exact onto
  refine ⟨by omega, by rw [moved]; exact head, by rw [moved]; exact buffered, .inr ?_⟩
  exact ⟨phase, settled⟩

theorem doomed_set_period {times : List Int} {periodSettled everySettled after : Prop}
    (doomed : Doomed times periodSettled everySettled handler) (pending : ¬periodSettled) :
    Doomed times after everySettled (setPeriodOption value ts handler) := by
  obtain ⟨set, due, buffered, fixed⟩ := doomed
  obtain ⟨phase, settled⟩ := fixed.resolve_left fun first => pending first.2
  have same : (setPeriodOption value ts handler).nextEmit = handler.nextEmit := by
    simp only [setPeriodOption, setPeriodOptionIn, id_eq]
    rw [if_neg]
    rintro ⟨_, first, fill, _⟩
    rcases phase with emitted | unfilled
    · exact first emitted
    · rw [unfilled] at fill
      cases fill
  exact ⟨by rw [same]; exact set, by rw [same]; exact due, by rw [same]; exact buffered,
    .inr ⟨phase, settled⟩⟩

theorem doomed_set_every {times : List Int} {periodSettled everySettled after : Prop}
    (doomed : Doomed times periodSettled everySettled handler) (pending : ¬everySettled) :
    Doomed times periodSettled after (setEveryOption value ts handler) := by
  obtain ⟨set, due, buffered, fixed⟩ := doomed
  obtain ⟨⟨first, fill⟩, settled⟩ := fixed.resolve_right fun phase => pending phase.2
  have same : (setEveryOption value ts handler).nextEmit = handler.nextEmit := by
    simp only [setEveryOption, setEveryOptionIn, id_eq]
    rw [if_neg]
    rintro ⟨_, phase, _⟩
    rcases phase with emitted | unfilled
    · rw [first] at emitted
      cases emitted
    · exact unfilled fill
  exact ⟨by rw [same]; exact set, by rw [same]; exact due, by rw [same]; exact buffered,
    .inl ⟨⟨first, fill⟩, settled⟩⟩

end Setters

end Changes

section Kept

variable (keep : Int → Int)

/-- No change of an option in a record moves a boundary onto a row in the buffer. -/
def NoneCollidesIn : WindowHandler → List (Call WindowHandler) → Prop
  | _, [] => True
  | handler, .handled slice _ :: rest => NoneCollidesIn (stateAfterIn keep slice handler) rest
  | handler, .setPeriod value ts :: rest =>
      ¬PeriodCollides value ts handler ∧
        NoneCollidesIn (setPeriodOptionIn keep value ts handler) rest
  | handler, .setEvery value ts :: rest =>
      ¬EveryCollides value ts handler ∧
        NoneCollidesIn (setEveryOptionIn keep value ts handler) rest

end Kept

abbrev NoneCollides := NoneCollidesIn id

def AllSound (emissions : List Emission) : Prop := ∀ emission ∈ emissions, emission.Sound

section Records

variable {schema : Schema} {time : TimeColumn} {period every : Option OptionColumn}

theorem all_sound_append (earlier later : List Emission) :
    AllSound (earlier ++ later) ↔ AllSound earlier ∧ AllSound later := List.forall_mem_append

theorem none_collides_append {keep : Int → Int} {first middle : WindowHandler}
    {earlier later : List (Call WindowHandler)} (follows : FollowsIn keep first earlier middle) :
    NoneCollidesIn keep first (earlier ++ later) ↔
      NoneCollidesIn keep first earlier ∧ NoneCollidesIn keep middle later := by
  induction follows with
  | done => simp [NoneCollidesIn]
  | handled returned _ induction =>
      rw [List.cons_append, NoneCollidesIn, NoneCollidesIn, stateAfterIn, returned]
      exact induction
  | setPeriod _ induction =>
      rw [List.cons_append, NoneCollidesIn, NoneCollidesIn, induction, and_assoc]
  | setEvery _ induction =>
      rw [List.cons_append, NoneCollidesIn, NoneCollidesIn, induction, and_assoc]

theorem none_collides_agrees {handler final : WindowHandler} {calls : List (Call WindowHandler)}
    (follows : FollowsIn wrap64 handler calls final) (slices : TimedSlices calls)
    (fits : CallsFit handler calls) :
    NoneCollidesIn wrap64 handler calls ↔ NoneCollides handler calls := by
  induction follows with
  | done => exact Iff.rfl
  | @handled slice handler after final window rest returned follows induction =>
      obtain ⟨timed, nonempty⟩ := slices slice handler List.mem_cons_self
      obtain ⟨time, found⟩ := timed_cases timed
      obtain ⟨own, others⟩ := fits
      rw [stateAfterIn, returned] at others
      have exactly : handleIn id slice handler = .ok window after := by
        rw [← handle_agrees found nonempty (own time found)]
        exact returned
      rw [NoneCollidesIn, NoneCollides, NoneCollidesIn, stateAfterIn, stateAfterIn, returned,
        exactly]
      exact induction
        (fun slice handler member => slices slice handler (List.mem_cons_of_mem _ member)) others
  | setPeriod follows induction =>
      obtain ⟨own, others⟩ := fits
      rw [NoneCollidesIn, NoneCollides, NoneCollidesIn, induction
        (fun slice handler member => slices slice handler (List.mem_cons_of_mem _ member)) others,
        set_period_agrees own]
  | setEvery follows induction =>
      obtain ⟨own, others⟩ := fits
      rw [NoneCollidesIn, NoneCollides, NoneCollidesIn, induction
        (fun slice handler member => slices slice handler (List.mem_cons_of_mem _ member)) others,
        set_every_agrees own]

theorem row_timestamp_seconds (found : timeColumn schema = some time) {row : Row}
    (full : ∃ value, row.getD time.index none = some (.integer value)) :
    rowTimestamp schema time.name row = .ok (seconds schema row) := by
  obtain ⟨_, located, typed⟩ := time_column_cases found
  obtain ⟨value, cell⟩ := full
  have type : schema.types.getD time.index .na = .timestamp time.unit := by
    rw [List.getD_eq_getElem?_getD, typed, Option.getD_some]
  simp only [rowTimestamp, located, type, cell, seconds, found, Option.map_some, Option.getD_some]
  rfl

def AtLeastSecond (schema : Schema) (option : Option OptionColumn) (rows : List Row) : Prop :=
  ∀ column, option = some column → ∀ row ∈ rows, ∀ value,
    rowOption schema column row = .ok value → 1 ≤ value

theorem asked_at_least {option : Option OptionColumn} {inForce value ts : Int} {rows : List Row}
    {timeColumnName : String} (cells : AtLeastSecond schema option rows)
    (asks : AsksAnew schema timeColumnName option inForce value ts rows) : 1 ≤ value := by
  obtain ⟨⟨column, row, isColumn, isRow, cell, _⟩, _⟩ := asks
  exact cells column isColumn row (List.mem_of_mem_head? isRow) value cell

theorem in_force_at_least {option : Option OptionColumn} {inForce : Int} {rows : List Row}
    {row : Row} (cells : AtLeastSecond schema option rows) (member : row ∈ rows)
    (applies : Applies schema option inForce row) (known : 1 ≤ inForce ∨ option.isSome) :
    1 ≤ inForce := by
  rcases known with already | present
  · exact already
  · obtain ⟨column, isColumn⟩ := Option.isSome_iff_exists.mp present
    exact cells column isColumn row member inForce (applies column isColumn)

theorem at_least_mono {option : Option OptionColumn} {rows others : List Row}
    (cells : AtLeastSecond schema option rows) (subset : ∀ row ∈ others, row ∈ rows) :
    AtLeastSecond schema option others :=
  fun column isColumn row member => cells column isColumn row (subset row member)

theorem asked_time (found : timeColumn schema = some time) {rows : List Row}
    (full : FullyTimed schema rows) {option : Option OptionColumn} {inForce value ts : Int}
    (asks : AsksAnew schema time.name option inForce value ts rows) :
    (rows.map (seconds schema)).head? = some ts := by
  obtain ⟨⟨_, row, _, isRow, _, stamped⟩, _⟩ := asks
  rw [row_timestamp_seconds found (full time found row (List.mem_of_mem_head? isRow)),
    Except.ok.injEq] at stamped
  rw [List.head?_map, isRow, Option.map_some, stamped]

theorem early_next {name : String} {coming : List Int} {floor : Option Int}
    {handler : WindowHandler} {slice : RecordBatch} (longPeriod : 1 ≤ handler.options.period)
    (longEvery : 1 ≤ handler.options.every) (isSlice : Slice name slice)
    (ready : Ready name (times slice ++ coming) floor handler) (early : Early handler) :
    ∀ moment ∈ bufferTimes handler.bufferedRecordBatches, moment < nextOf handler slice := by
  intro moment member
  have nonempty : times slice ≠ [] := List.ne_nil_of_mem (clock_mem isSlice)
  unfold nextOf
  split
  · have le := (List.pairwise_append.mp ready.ordered).2.2 moment member _
      (List.mem_append_left _ (List.head_mem nonempty))
    rw [List.headD_eq_head?_getD, List.head?_eq_some_head nonempty, Option.getD_some, first_emit_eq]
    split <;> omega
  · next set => exact early set moment member

structure RecordEnds (name : String) (future : List Int) (floor : Option Int)
    (emissions : List Emission) (final : WindowHandler) (periodKnown everyKnown : Prop) :
    Prop where
  next : ∃ later, Ready name future later final ∧ Spaced later final ∧ Grows floor emissions later
  early : Early final
  period : 1 ≤ final.options.period ∨ periodKnown
  every : 1 ≤ final.options.every ∨ everyKnown

structure LongRows (schema : Schema) (time : TimeColumn) (period every : Option OptionColumn)
    (rows : List Row) : Prop where
  full : FullyTimed schema rows
  period : AtLeastSecond schema period rows
  every : AtLeastSecond schema every rows

structure Before (schema : Schema) (time : TimeColumn) (every : Option OptionColumn)
    (rows : List Row) (future : List Int) (periodKnown everyKnown : Prop) (floor : Option Int)
    (handler : WindowHandler) : Prop where
  longPeriod : 1 ≤ handler.options.period ∨ periodKnown
  longEvery : 1 ≤ handler.options.every ∨ everyKnown
  ready : Ready time.name (rows.map (seconds schema) ++ future) floor handler
  gap : Spaced floor handler ∨ DueAt (rows.map (seconds schema)) handler ∧
    Settled schema time.name every handler.options.every rows

/-- Where every row in the buffer is early the windows of a record are sound just when no
change collides, and where one is doomed they are not. -/
def Replayed (schema : Schema) (time : TimeColumn) (period every : Option OptionColumn)
    (rows : List Row) (future : List Int) (periodKnown everyKnown : Prop)
    (log : List (Call WindowHandler)) (final : WindowHandler) (floor : Option Int)
    (handler : WindowHandler) : Prop :=
  (Early handler →
    RecordEnds time.name future floor (emissionsOf log) final periodKnown everyKnown ∧
    (AllSound (emissionsOf log) ↔ NoneCollides handler log)) ∧
  (Doomed (rows.map (seconds schema))
      (Settled schema time.name period handler.options.period rows)
      (Settled schema time.name every handler.options.every rows) handler →
    RecordEnds time.name future floor (emissionsOf log) final periodKnown everyKnown ∧
      ¬AllSound (emissionsOf log))

section Turns

variable {log : List (Call WindowHandler)} {handler final : WindowHandler} {rows : List Row}
  {future : List Int} {floor : Option Int} {periodKnown everyKnown : Prop} {value ts : Int}

theorem replayed_nothing
    (before : Before schema time every [] future periodKnown everyKnown floor handler) :
    Replayed schema time period every [] future periodKnown everyKnown [] handler floor
      handler := by
  refine ⟨fun early => ⟨⟨⟨floor, before.ready, ?_, grows_refl floor⟩, early, before.longPeriod,
    before.longEvery⟩, ?_⟩, fun doomed => ?_⟩
  · rcases before.gap with spaced | ⟨⟨_, isFirst, _⟩, _⟩
    · exact spaced
    · cases isFirst
  · simp [emissionsOfIn, AllSound, NoneCollidesIn]
  · have due := doomed.due
    cases due

theorem before_set_period (cells : AtLeastSecond schema period rows)
    (asks : AsksAnew schema time.name period handler.options.period value ts rows)
    (before : Before schema time every rows future periodKnown everyKnown floor handler) :
    Before schema time every rows future periodKnown everyKnown floor
      (setPeriodOption value ts handler) :=
  ⟨.inl (asked_at_least cells asks), before.longEvery, ready_set_period before.ready,
    gap_set_period before.ready before.gap⟩

theorem replayed_set_period (found : timeColumn schema = some time)
    (full : FullyTimed schema rows)
    (asks : AsksAnew schema time.name period handler.options.period value ts rows)
    (before : Before schema time every rows future periodKnown everyKnown floor handler)
    (rest : Replayed schema time period every rows future periodKnown everyKnown log final floor
      (setPeriodOption value ts handler)) :
    Replayed schema time period every rows future periodKnown everyKnown
      (.setPeriod value ts :: log) final floor handler := by
  have head := asked_time found full asks
  have comes : ts ∈ rows.map (seconds schema) ++ future :=
    List.mem_append_left _ (List.mem_of_mem_head? head)
  obtain ⟨whenEarly, whenDoomed⟩ := rest
  refine ⟨fun early => ?_, fun doomed => ?_⟩
  · by_cases collides : PeriodCollides value ts handler
    · obtain ⟨ends, unsound⟩ := whenDoomed
        (doomed_of_period_collides head collides (settled_of_asked asks))
      refine ⟨ends, ⟨fun sound => absurd sound unsound, fun none => ?_⟩⟩
      exact absurd collides none.1
    · obtain ⟨ends, sound⟩ := whenEarly (early_set_period early comes before.ready collides)
      exact ⟨ends, sound.trans (and_iff_right collides).symm⟩
  · exact whenDoomed (doomed_set_period doomed fun settled => settled _ _ asks)

theorem before_set_every (found : timeColumn schema = some time) (full : FullyTimed schema rows)
    (cells : AtLeastSecond schema every rows)
    (asks : AsksAnew schema time.name every handler.options.every value ts rows)
    (before : Before schema time every rows future periodKnown everyKnown floor handler) :
    Before schema time every rows future periodKnown everyKnown floor
      (setEveryOption value ts handler) := by
  have head := asked_time found full asks
  have comes : ts ∈ rows.map (seconds schema) ++ future :=
    List.mem_append_left _ (List.mem_of_mem_head? head)
  have spaced : Spaced floor handler := before.gap.resolve_right fun due => due.2 _ _ asks
  have atLeast := asked_at_least cells asks
  have settled := settled_of_asked asks
  exact ⟨before.longPeriod, .inl atLeast, ready_set_every atLeast before.ready spaced,
    (gap_set_every head comes before.ready spaced).imp_right fun due => ⟨due, settled⟩⟩

theorem replayed_set_every (found : timeColumn schema = some time)
    (full : FullyTimed schema rows)
    (asks : AsksAnew schema time.name every handler.options.every value ts rows)
    (before : Before schema time every rows future periodKnown everyKnown floor handler)
    (rest : Replayed schema time period every rows future periodKnown everyKnown log final floor
      (setEveryOption value ts handler)) :
    Replayed schema time period every rows future periodKnown everyKnown
      (.setEvery value ts :: log) final floor handler := by
  have head := asked_time found full asks
  have comes : ts ∈ rows.map (seconds schema) ++ future :=
    List.mem_append_left _ (List.mem_of_mem_head? head)
  obtain ⟨whenEarly, whenDoomed⟩ := rest
  refine ⟨fun early => ?_, fun doomed => ?_⟩
  · by_cases collides : EveryCollides value ts handler
    · obtain ⟨ends, unsound⟩ := whenDoomed
        (doomed_of_every_collides head collides (settled_of_asked asks))
      refine ⟨ends, ⟨fun sound => absurd sound unsound, fun none => ?_⟩⟩
      exact absurd collides none.1
    · obtain ⟨ends, sound⟩ := whenEarly (early_set_every early comes before.ready collides)
      exact ⟨ends, sound.trans (and_iff_right collides).symm⟩
  · exact whenDoomed (doomed_set_every doomed fun settled => settled _ _ asks)

theorem due_at_slice {slice : RecordBatch} {later : List Row} (own : slice.schema = schema)
    (nonempty : slice.rows ≠ [])
    (due : DueAt ((slice.rows ++ later).map (seconds schema)) handler) :
    DueAt (times slice) handler := by
  obtain ⟨moment, isFirst, reached⟩ := due
  rw [List.head?_map, List.head?_append_of_ne_nil _ nonempty] at isFirst
  refine ⟨moment, ?_, reached⟩
  rw [times, List.head?_map]
  subst own
  exact isFirst

/-- A slice leaves a state before the rows after it, and the windows of the whole record follow
from those of the slice and of the rest. -/
theorem replayed_slice {slice : RecordBatch} {later : List Row} {after : WindowHandler}
    {window : List RecordBatch} (found : timeColumn slice.schema = some time)
    (cells : LongRows slice.schema time period every (slice.rows ++ later))
    (nonempty : slice.rows ≠ [])
    (applies : ∀ row ∈ slice.rows, Applies slice.schema period handler.options.period row ∧
      Applies slice.schema every handler.options.every row)
    (periodPresent : periodKnown → period.isSome) (everyPresent : everyKnown → every.isSome)
    (returned : Window.handle slice handler = .ok window after)
    (before : Before slice.schema time every (slice.rows ++ later) future periodKnown everyKnown
      floor handler) :
    after.options = handler.options ∧ ∃ next,
      Before slice.schema time every later future periodKnown everyKnown next after ∧
      (Replayed slice.schema time period every later future periodKnown everyKnown log final next
          after →
        Replayed slice.schema time period every (slice.rows ++ later) future periodKnown everyKnown
          (.handled slice handler :: log) final floor handler) := by
  have left : stateAfterIn id slice handler = after := by
    rw [stateAfterIn]
    rw [Window.handle] at returned
    rw [returned]
  obtain ⟨row, inSlice⟩ := List.exists_mem_of_ne_nil _ nonempty
  have inRows := List.mem_append_left later inSlice
  have periodLong := in_force_at_least cells.period inRows (applies row inSlice).1
    (before.longPeriod.imp_right periodPresent)
  have everyLong := in_force_at_least cells.every inRows (applies row inSlice).2
    (before.longEvery.imp_right everyPresent)
  have isSlice : Slice time.name slice := ⟨by rw [Timed, found]; rfl,
    (time_column_cases found).1, nonempty,
    fun time found row member => cells.full time found row (List.mem_append_left _ member)⟩
  have ready := before.ready
  rw [List.map_append, List.append_assoc] at ready
  have sorted := (List.pairwise_append.mp (List.append_assoc _ _ _ ▸ ready.ordered)).1
  obtain ⟨emissions, other, emitting, call⟩ :=
    slice_call periodLong everyLong ready.kept isSlice sorted
  rw [Window.handle, handle_eq_emitting, bind_of_ok emitting, pure_apply] at returned
  obtain rfl : other = after := by
    cases returned
    rfl
  have emitted : emissionsIn id slice handler = emissions := by
    rw [emissionsIn]
    rw [handleEmitting] at emitting
    rw [emitting]
  obtain ⟨next, readyNext, spaced, early, grows⟩ := ready_slice periodLong everyLong isSlice ready
    (before.gap.imp_right fun due => due_at_slice rfl nonempty due.1) call
  refine ⟨call.sameOptions, next, ⟨.inl (by rw [call.sameOptions]; exact periodLong),
    .inl (by rw [call.sameOptions]; exact everyLong), readyNext, .inl spaced⟩, ?_⟩
  rintro ⟨whenEarly, _⟩
  obtain ⟨⟨⟨last, readyLast, spacedLast, growsLast⟩, earlyLast, knownPeriod, knownEvery⟩, sound⟩ :=
    whenEarly early
  rw [Replayed, emissionsOf, emissionsOfIn, emitted, all_sound_append, NoneCollides,
    NoneCollidesIn, left]
  have ends : RecordEnds time.name future floor (emissions ++ emissionsOf log) final periodKnown
      everyKnown :=
    ⟨⟨last, readyLast, spacedLast, grows_append grows growsLast⟩, earlyLast, knownPeriod, knownEvery⟩
  refine ⟨fun early => ⟨ends, ?_⟩, fun doomed => ⟨ends, ?_⟩⟩
  · rw [sound]
    apply and_iff_right
    exact call.sound (early_next periodLong everyLong isSlice ready early)
  · intro bothSound
    have isNext : nextOf handler slice = handler.nextEmit := by
      rw [nextOf, if_neg doomed.set]
    have due := doomed.due
    rw [List.head?_map, List.head?_append_of_ne_nil _ nonempty, ← List.head?_map] at due
    have reached := le_clock (List.pairwise_append.mp sorted).2.1 (List.mem_of_mem_head? due)
    obtain ⟨emission, member, unsound⟩ := call.unsound (by rw [isNext]; exact doomed.buffered)
      (by rw [isNext]; exact reached)
    exact unsound (bothSound.1 emission member)

theorem replay_ends (follows : Follows handler log final)
    (replays : Replays windowHandler schema time.name period every handler.options.period
      handler.options.every rows log)
    (found : timeColumn schema = some time) (cells : LongRows schema time period every rows)
    (periodPresent : periodKnown → period.isSome) (everyPresent : everyKnown → every.isSome)
    (before : Before schema time every rows future periodKnown everyKnown floor handler) :
    Replayed schema time period every rows future periodKnown everyKnown log final floor
      handler := by
  induction log generalizing handler rows floor with
  | nil =>
      obtain rfl : rows = [] := replays
      cases follows
      exact replayed_nothing before
  | cons call rest induction =>
      cases call with
      | handled slice own =>
          cases follows with
          | handled returned follows =>
          obtain ⟨rfl, nonempty, _, _, applies, later, rfl, replays⟩ := replays
          obtain ⟨sameOptions, next, beforeNext, whole⟩ := replayed_slice found cells nonempty
            applies periodPresent everyPresent returned before
          apply whole
          refine induction follows (by rw [sameOptions]; exact replays) ⟨?_, ?_, ?_⟩ beforeNext
          · exact fun time found row member =>
              cells.full time found row (List.mem_append_right _ member)
          · exact at_least_mono cells.period fun row member => List.mem_append_right _ member
          · exact at_least_mono cells.every fun row member => List.mem_append_right _ member
      | setPeriod value ts =>
          cases follows with
          | setPeriod follows =>
          obtain ⟨asks, replays⟩ := replays
          exact replayed_set_period found cells.full asks before (induction follows replays cells
            (before_set_period cells.period asks before))
      | setEvery value ts =>
          cases follows with
          | setEvery follows =>
          obtain ⟨asks, replays⟩ := replays
          exact replayed_set_every found cells.full asks before (induction follows replays cells
            (before_set_every found cells.full cells.every asks before))

end Turns

end Records

/-- A stream in the order of its times, whose options are at least a second wherever a row
asks for one. -/
structure OrderedStream (name : String) (options : DynamicWindowOptions)
    (batches : List RecordBatch) : Prop where
  timed : ∀ batch ∈ batches, Timed batch.schema
  named : ∀ batch ∈ batches, batch.schema.metadata.timeColumnName = some name
  full : ∀ batch ∈ batches, FullyTimed batch.schema batch.rows
  ordered : (bufferTimes batches).Pairwise (· ≤ ·)
  periods : ∀ batch ∈ batches, ∀ column,
    optionColumn batch options.periodColumnName = .ok column →
      AtLeastSecond batch.schema column batch.rows
  everies : ∀ batch ∈ batches, ∀ column,
    optionColumn batch options.everyColumnName = .ok column →
      AtLeastSecond batch.schema column batch.rows

def Throughout (columnName : Option String) (batches : List RecordBatch) : Prop :=
  ∀ batch ∈ batches, ∀ column, optionColumn batch columnName = .ok column → column.isSome

section Runs

variable {name : String} {options : DynamicWindowOptions}

theorem run_ends {batches : List RecordBatch} {handler final : WindowHandler}
    {outputs : List RecordBatch} {calls : List (Call WindowHandler)} {floor : Option Int}
    {periodKnown everyKnown : Prop} (stream : OrderedStream name options batches)
    (periodPresent : periodKnown → Throughout options.periodColumnName batches)
    (everyPresent : everyKnown → Throughout options.everyColumnName batches)
    (longPeriod : 1 ≤ handler.options.period ∨ periodKnown)
    (longEvery : 1 ≤ handler.options.every ∨ everyKnown)
    (ready : Ready name (bufferTimes batches) floor handler) (spaced : Spaced floor handler)
    (early : Early handler)
    (returned : handleAllRecordedIn wrap64 options batches handler = .ok (outputs, calls) final)
    (fits : CallsFit handler calls) :
    outputs = (emissionsOfIn wrap64 calls).flatMap Emission.window ∧
      (∃ later, Grows floor (emissionsOfIn wrap64 calls) later) ∧
      (AllSound (emissionsOfIn wrap64 calls) ↔ NoneCollidesIn wrap64 handler calls) := by
  induction batches generalizing handler outputs calls floor with
  | nil =>
      rw [handleAllRecordedIn, pure_apply, EStateM.Result.ok.injEq, Prod.mk.injEq] at returned
      obtain ⟨⟨rfl, rfl⟩, _⟩ := returned
      exact ⟨rfl, ⟨floor, grows_refl floor⟩, by simp [AllSound, emissionsOfIn, NoneCollidesIn]⟩
  | cons batch rest induction =>
      obtain ⟨timed, named, full, ordered, periods, everies⟩ := stream
      have first : batch ∈ batch :: rest := by simp
      rw [handleAllRecordedIn, bind_of_ok (get_apply _)] at returned
      cases outcome : handle (recording (windowHandlerIn wrap64)) options batch (handler, []) with
      | error fault failed =>
          rw [outcome] at returned
          cases returned
      | ok windows left =>
          rw [outcome] at returned
          dsimp only at returned
          rw [bind_of_ok (set_apply _ _)] at returned
          obtain ⟨⟨results, others⟩, _, later, isAll⟩ := bind_ok_cases returned
          rw [pure_apply, EStateM.Result.ok.injEq, Prod.mk.injEq] at isAll
          obtain ⟨⟨rfl, rfl⟩, rfl⟩ := isAll
          obtain ⟨follows, isWindows, timeColumnName, sorted, period, every, isName, isSorted,
            _, isPeriod, isEvery, _, replays⟩ := recorded_call outcome
          obtain ⟨time, found⟩ := timed_cases (timed batch first)
          rw [time_column_name_of_timed found, Except.ok.injEq] at isName
          subst isName
          rw [sort_by_time_column found, Except.ok.injEq] at isSorted
          subst isSorted
          obtain rfl : time.name = name := by
            have own := named batch first
            rw [(time_column_cases found).1, Option.some.injEq] at own
            exact own
          rw [bufferTimes, List.flatMap_cons] at ordered ready
          have sortedTimes : (batch.sortRows time.index).rows.map (seconds batch.schema) =
              times batch :=
            (arrived_eq found (full batch first)).trans
              (arrived_of_sorted (List.pairwise_append.mp ordered).1)
          have fromSorted : ∀ row ∈ (batch.sortRows time.index).rows, row ∈ batch.rows :=
            fun row member => (sort_rows_perm batch time.index).mem_iff.mp member
          have slices := timed_slices_of_replays (timed batch first) replays
          obtain ⟨fitsOwn, fitsRest⟩ := (calls_fit_append follows).mp fits
          obtain ⟨exactly, sameEmissions⟩ := follows_agree follows slices fitsOwn
          obtain ⟨⟨⟨next, readyNext, spacedNext, grows⟩, earlyNext, knownPeriod, knownEvery⟩,
            sound⟩ := (replay_ends exactly (replays_of_getters replays) found
              ⟨fun time found row member => full batch first time found row (fromSorted row member),
                at_least_mono (periods batch first period isPeriod) fromSorted,
                at_least_mono (everies batch first every isEvery) fromSorted⟩
              (fun known => periodPresent known batch first period isPeriod)
              (fun known => everyPresent known batch first every isEvery)
              ⟨longPeriod, longEvery, by rw [sortedTimes]; exact ready, .inl spaced⟩).1 early
          obtain ⟨isResults, ⟨last, growsRest⟩, soundRest⟩ := induction
            ⟨fun other member => timed other (List.mem_cons_of_mem _ member),
              fun other member => named other (List.mem_cons_of_mem _ member),
              fun other member => full other (List.mem_cons_of_mem _ member),
              (List.pairwise_append.mp ordered).2.1,
              fun other member => periods other (List.mem_cons_of_mem _ member),
              fun other member => everies other (List.mem_cons_of_mem _ member)⟩
            (fun known other member => periodPresent known other (List.mem_cons_of_mem _ member))
            (fun known other member => everyPresent known other (List.mem_cons_of_mem _ member))
            knownPeriod knownEvery readyNext spacedNext earlyNext later fitsRest
          rw [← sameEmissions] at grows sound
          rw [← none_collides_agrees follows slices fitsOwn] at sound
          refine ⟨?_, ⟨last, ?_⟩, ?_⟩
          · rw [isWindows, isResults, emissions_of_append, List.flatMap_append]
          · rw [emissions_of_append]
            exact grows_append grows growsRest
          · rw [emissions_of_append, all_sound_append, sound, soundRest,
              none_collides_append follows]

/-- In a run over an ordered stream whose options are at least a second, and in which no sum
leaves 64 bits, the boundaries grow and each window is of its period just when no change moves a
boundary onto a row in the buffer. -/
theorem changing_windows_sound_iff {batches : List RecordBatch} {windowOptions : WindowOptions}
    {outputs : List RecordBatch} {calls : List (Call WindowHandler)} {final : WindowHandler}
    (stream : OrderedStream name options batches)
    (period : 1 ≤ windowOptions.period ∨ Throughout options.periodColumnName batches)
    (every : 1 ≤ windowOptions.every ∨ Throughout options.everyColumnName batches)
    (returned : handleAllRecordedIn wrap64 options batches { options := windowOptions } =
      .ok (outputs, calls) final)
    (fits : CallsFit { options := windowOptions } calls) :
    outputs = (emissionsOfIn wrap64 calls).flatMap Emission.window ∧
      ((((emissionsOfIn wrap64 calls).map Emission.boundary).Pairwise (· < ·) ∧
          AllSound (emissionsOfIn wrap64 calls)) ↔
        NoneCollidesIn wrap64 { options := windowOptions } calls) := by
  have ready : Ready name (bufferTimes batches) none { options := windowOptions } :=
    ⟨by simp, by simpa [bufferTimes] using stream.ordered, by simp, rfl⟩
  obtain ⟨isOutputs, ⟨_, grows⟩, sound⟩ := run_ends stream id id period every ready
    (by simp [Spaced]) (fun started => absurd rfl started) returned fits
  exact ⟨isOutputs, (and_iff_right grows.increasing).trans sound⟩

end Runs

def everyBatch (rows : List (Int × Int)) : RecordBatch where
  schema := {
    fields := [{ name := "time", type := .timestamp .second },
      { name := "every", type := .int64, metadata := { timeUnit := some .second } }]
    metadata := { timeColumnName := some "time" } }
  rows := rows.map fun (time, every) => [some (.integer time), some (.integer every)]
  conforms := by
    intro row member
    obtain ⟨⟨time, every⟩, _, rfl⟩ := List.mem_map.mp member
    exact .cons rfl (.cons rfl .nil)

theorem every_stream (rows : List (Int × Int)) (ordered : (rows.map Prod.fst).Pairwise (· ≤ ·))
    (long : ∀ row ∈ rows, 1 ≤ row.2) :
    OrderedStream "time" { everyColumnName := some "every" } [everyBatch rows] := by
  have isTime : timeColumn (everyBatch rows).schema = some ⟨"time", 0, .second⟩ := by
    simp [timeColumn, everyBatch, Schema.fieldIndex, Schema.fieldNames, Schema.types]
  refine ⟨?_, ?_, ?_, ?_, ?_, ?_⟩
  · intro batch member
    obtain rfl := List.mem_singleton.mp member
    rw [Timed, isTime]
    rfl
  · intro batch member
    obtain rfl := List.mem_singleton.mp member
    rfl
  · intro batch member time found row inRows
    obtain rfl := List.mem_singleton.mp member
    rw [isTime, Option.some.injEq] at found
    subst found
    obtain ⟨⟨moment, every⟩, _, rfl⟩ := List.mem_map.mp inRows
    exact ⟨moment, rfl⟩
  · have isTimes : bufferTimes [everyBatch rows] = rows.map Prod.fst := by
      rw [bufferTimes, List.flatMap_cons, List.flatMap_nil, List.append_nil, times]
      simp only [everyBatch, List.map_map]
      apply List.map_congr_left
      intro row _
      have columns := isTime
      simp only [everyBatch] at columns
      have same : convertTimestamp .second .second row.1 = row.1 := by
        simp [convertTimestamp, Arrow.TimeUnit.perSecond]
      simpa [batchSeconds, seconds, columns, integerValue] using same
    rw [isTimes]
    exact ordered
  · intro batch member column isColumn other isOther
    rw [optionColumn, Except.ok.injEq] at isColumn
    rw [← isColumn] at isOther
    cases isOther
  · intro batch member column isColumn option isOption row inRows value asks
    obtain rfl := List.mem_singleton.mp member
    have located : optionColumn (everyBatch rows) (some "every") =
        .ok (some ⟨"every", .second⟩) := rfl
    rw [located, Except.ok.injEq] at isColumn
    rw [← isColumn, Option.some.injEq] at isOption
    subst isOption
    obtain ⟨⟨moment, every⟩, inList, rfl⟩ := List.mem_map.mp inRows
    have asked : rowOption (everyBatch rows).schema ⟨"every", .second⟩
        [some (.integer moment), some (.integer every)] = .ok every := rfl
    rw [asked, Except.ok.injEq] at asks
    subst asks
    exact long _ inList

/-- Three rows, the last of which asks for windows seven seconds apart. -/
theorem every_change_sound :
    ∃ outputs calls final,
      handleAllRecordedIn wrap64 { everyColumnName := some "every" }
        [everyBatch [(100, 10), (104, 10), (105, 7)]] { options := ⟨10, 10, false⟩ } =
          .ok (outputs, calls) final ∧
      ((((emissionsOfIn wrap64 calls).map Emission.boundary).Pairwise (· < ·) ∧
          AllSound (emissionsOfIn wrap64 calls)) ↔
        NoneCollidesIn wrap64 { options := ⟨10, 10, false⟩ } calls) := by
  have inside : (match handleAllRecordedIn wrap64 { everyColumnName := some "every" }
        [everyBatch [(100, 10), (104, 10), (105, 7)]] { options := ⟨10, 10, false⟩ } with
      | .ok (_, calls) _ => callsInside { options := ⟨10, 10, false⟩ } calls
      | .error _ _ => false) = true := by
    decide +kernel
  cases returned : handleAllRecordedIn wrap64 { everyColumnName := some "every" }
      [everyBatch [(100, 10), (104, 10), (105, 7)]] { options := ⟨10, 10, false⟩ } with
  | error fault after =>
      rw [returned] at inside
      cases inside
  | ok recorded final =>
      rw [returned] at inside
      have stream := every_stream [(100, 10), (104, 10), (105, 7)] (by decide) (by decide)
      exact ⟨recorded.1, recorded.2, final, rfl, (changing_windows_sound_iff stream
        (.inl (by decide)) (.inl (by decide)) returned (calls_fit_of_inside inside)).2⟩

/-- A row of 105 waits when the next of that time asks for windows five seconds apart. -/
theorem row_at_moved_boundary :
    ∃ outputs calls final,
      handleAllRecordedIn wrap64 { everyColumnName := some "every" }
        [everyBatch [(100, 10), (105, 10), (105, 5)]] { options := ⟨10, 10, false⟩ } =
          .ok (outputs, calls) final ∧
      ¬AllSound (emissionsOfIn wrap64 calls) := by
  have emitted : (match handleAllRecordedIn wrap64 { everyColumnName := some "every" }
        [everyBatch [(100, 10), (105, 10), (105, 5)]] { options := ⟨10, 10, false⟩ } with
      | .ok (_, calls) _ => some ((emissionsOfIn wrap64 calls).map fun emission =>
          (emission.boundary, emission.period, bufferTimes emission.window))
      | .error _ _ => none) = some [(105, 10, [100, 105])] := by
    decide +kernel
  cases returned : handleAllRecordedIn wrap64 { everyColumnName := some "every" }
      [everyBatch [(100, 10), (105, 10), (105, 5)]] { options := ⟨10, 10, false⟩ } with
  | error fault after =>
      rw [returned] at emitted
      cases emitted
  | ok recorded final =>
      rw [returned, Option.some.injEq] at emitted
      refine ⟨recorded.1, recorded.2, final, rfl, ?_⟩
      intro sound
      have only : (105, 10, [100, 105]) ∈ (emissionsOfIn wrap64 recorded.2).map fun emission =>
          (emission.boundary, emission.period, bufferTimes emission.window) := by
        rw [emitted]
        simp
      obtain ⟨emission, member, same⟩ := List.mem_map.mp only
      simp only [Prod.mk.injEq] at same
      obtain ⟨upper, period, windowTimes⟩ := same
      have bounds := (sound_iff emission).mp (sound emission member) 105 (by
        rw [windowTimes]
        simp)
      omega

end StreamDataProcessor.Handlers.DynamicWindow
