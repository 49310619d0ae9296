import StreamDataProcessor.Handlers.DynamicWindow
import StreamDataProcessor.Handlers.ReadableTimes

/-!
# What a failed call leaves of the window handlers

A call fails before it has changed anything, or it can read every time and every option
that it comes to.
-/

namespace StreamDataProcessor.Handlers

open Foundation.Effect Foundation.Attempts Arrow Metadata Utils

set_option autoImplicit false

namespace Window

variable {keep : Int → Int}

theorem old_divide_of_searchable {batch : RecordBatch} (searchable : Searchable batch)
    (oldest : Int) : ∃ position, oldDivideIndex oldest batch = .ok position := by
  obtain ⟨name, column, named, found, castable⟩ := searchable.times
  obtain ⟨_, found', _, _, count⟩ := column_within rfl (fun _ => id) found
  rw [found, Option.some.injEq] at found'
  subst found'
  have nonempty : column.cells ≠ [] := by
    intro empty
    rw [empty, List.length_nil] at count
    exact searchable.nonempty (List.eq_nil_of_length_eq_zero count.symm)
  obtain ⟨position, searched, _⟩ :=
    search_of_castable castable (fun ts => decide (ts ≥ oldest)) nonempty
  refine ⟨position, ?_⟩
  simp only [oldDivideIndex, named, found, searched, bind, Except.bind]

theorem drop_old_of_searchable (oldest : Int) (buffer : List RecordBatch)
    (searchable : ∀ batch ∈ buffer, Searchable batch) :
    ∃ kept, dropOldRecords oldest buffer = (kept, .ok ()) ∧ ∀ batch ∈ kept, Searchable batch := by
  induction buffer with
  | nil => exact ⟨[], rfl, searchable⟩
  | cons batch rest induction =>
      obtain ⟨position, divided⟩ := old_divide_of_searchable (searchable batch (by simp)) oldest
      have others := fun other member => searchable other (List.mem_cons_of_mem batch member)
      simp only [dropOldRecords, divided]
      split
      · next inside =>
        refine ⟨_, rfl, ?_⟩
        intro other member
        rcases List.mem_cons.mp member with rfl | inRest
        · apply searchable_within (slice_from_schema batch position)
            (slice_from_subset batch position) _ (searchable batch (by simp))
          intro empty
          have count := congrArg List.length empty
          rw [slice_from_rows, List.length_drop, List.length_nil] at count
          rw [RecordBatch.numRows] at inside
          omega
        · exact others other inRest
      · exact induction others

def SearchableBuffer (handler : WindowHandler) : Prop :=
  ∀ batch ∈ handler.bufferedRecordBatches, Searchable batch

theorem remove_old_of_searchable {handler : WindowHandler} (searchable : SearchableBuffer handler) :
    ∃ kept, removeOldRecordsIn keep handler = .ok () { handler with bufferedRecordBatches := kept } ∧
      ∀ batch ∈ kept, Searchable batch := by
  obtain ⟨kept, dropped, others⟩ := drop_old_of_searchable
    (keep (handler.nextEmit - handler.options.period)) handler.bufferedRecordBatches searchable
  refine ⟨kept, ?_, others⟩
  simp only [removeOldRecordsIn, bind_of_ok (get_apply _), dropped, bind_of_ok (set_apply _ _),
    of_except_ok]

theorem emit_buffered_of_searchable {handler : WindowHandler}
    (searchable : SearchableBuffer handler) :
    ∃ window kept, emitBufferedIn keep handler = .ok window { handler with bufferedRecordBatches := kept } ∧
      ∀ batch ∈ kept, Searchable batch := by
  obtain ⟨kept, removed, others⟩ := @remove_old_of_searchable keep handler searchable
  simp only [emitBufferedIn, bind_of_ok (get_apply handler)]
  split
  · simp only [emitWindowIn, bind_of_ok removed, bind_of_ok (get_apply _)]
    cases kept with
    | nil => exact ⟨[], [], rfl, others⟩
    | cons front rest =>
        obtain ⟨result, batches, split, _⟩ := split_by_schema_emits front [] rest (by simp)
        refine ⟨result :: batches, front :: rest, ?_, others⟩
        simp only [splitBySchema, if_neg (not_not.mpr (equal_fields_refl front.schema)),
          List.nil_append, split, of_except_ok]
  · exact ⟨[], handler.bufferedRecordBatches, rfl, searchable⟩

theorem timestamp_of_cell {column : Column} {index : Nat} {cell : Scalar}
    (isCell : column.cells[index]? = some cell) (unit : Arrow.TimeUnit) :
    timestampAt column unit index =
      (castTimestampScalar column.type cell unit).map integerValue := by
  simp only [timestampAt, Column.getScalar, isCell, bind, Except.bind]
  cases castTimestampScalar column.type cell unit <;> rfl

structure Remaining (name : String) (maxTs : Int) (sorted : RecordBatch) : Prop where
  nonempty : sorted.rows ≠ []
  named : getTimeColumnNameMetadata sorted = .ok name
  column : ∃ column, sorted.getColumnByName name = some column ∧ CastableColumn column ∧
    timestampAt column .second (sorted.rows.length - 1) = .ok maxTs

theorem Remaining.searchable {name : String} {maxTs : Int} {sorted : RecordBatch}
    (remaining : Remaining name maxTs sorted) : Searchable sorted := by
  obtain ⟨column, found, castable, _⟩ := remaining.column
  exact ⟨remaining.nonempty, name, column, remaining.named, found, castable⟩

theorem remaining_slice {name : String} {maxTs : Int} {sorted : RecordBatch}
    (remaining : Remaining name maxTs sorted) {position : Nat}
    (inside : position < sorted.rows.length) :
    Remaining name maxTs (sorted.sliceFrom position) := by
  obtain ⟨column, found, castable, last⟩ := remaining.column
  obtain ⟨own, ownFound, type, cells, _⟩ :=
    column_within (slice_from_schema sorted position) (slice_from_subset sorted position) found
  have dropped : own.cells = column.cells.drop position := by
    rw [(get_column_by_name_cells ownFound).1, (get_column_by_name_cells found).1,
      slice_from_rows, slice_from_schema, List.map_drop]
  have count : column.cells.length = sorted.rows.length := by
    rw [(get_column_by_name_cells found).1, List.length_map]
  obtain ⟨cell, isCell⟩ : ∃ cell, column.cells[sorted.rows.length - 1]? = some cell :=
    ⟨_, List.getElem?_eq_getElem (by omega)⟩
  have ownCell : own.cells[(sorted.sliceFrom position).rows.length - 1]? = some cell := by
    rw [dropped, List.getElem?_drop, slice_from_rows, List.length_drop, ← isCell]
    congr 1
    omega
  refine ⟨?_, ?_, own, ownFound, castable_within type cells castable, ?_⟩
  · intro empty
    have length := congrArg List.length empty
    rw [slice_from_rows, List.length_drop, List.length_nil] at length
    omega
  · exact remaining.named
  · rw [timestamp_of_cell ownCell, type, ← timestamp_of_cell isCell, last]

theorem emit_due_of_remaining {name : String} {maxTs : Int} {sorted : RecordBatch}
    {handler : WindowHandler} (remaining : Remaining name maxTs sorted)
    (searchable : SearchableBuffer handler) (due : maxTs ≥ handler.nextEmit) :
    ∃ window rest after, emitDueIn keep name sorted handler = .ok (window, rest) after ∧
      SearchableBuffer after ∧ Remaining name maxTs rest := by
  obtain ⟨column, found, castable, last⟩ := remaining.column
  have count : column.cells.length = sorted.rows.length := by
    rw [(get_column_by_name_cells found).1, List.length_map]
  obtain ⟨position, searched, bound, before⟩ := search_of_castable castable
    (fun ts => decide (ts ≥ handler.nextEmit)) (by
      intro empty
      rw [empty, List.length_nil] at count
      exact remaining.nonempty (List.eq_nil_of_length_eq_zero count.symm))
  rw [count] at before
  have inside := before maxTs last (by simpa using due)
  let buffered := if position > 0 then
      handler.bufferedRecordBatches ++ [sorted.slice 0 position]
    else handler.bufferedRecordBatches
  have grown : ∀ batch ∈ buffered, Searchable batch := by
    intro batch member
    by_cases some_rows : position > 0
    · simp only [buffered, if_pos some_rows, List.mem_append, List.mem_singleton] at member
      rcases member with inBuffer | rfl
      · exact searchable batch inBuffer
      · apply searchable_within (slice_schema sorted 0 position) (slice_subset sorted 0 position) _
          remaining.searchable
        intro empty
        have length := congrArg List.length empty
        rw [slice_rows, List.length_take, List.length_drop, List.length_nil] at length
        omega
    · simp only [buffered, if_neg some_rows] at member
      exact searchable batch member
  obtain ⟨window, kept, emitted, others⟩ := @emit_buffered_of_searchable keep
    { handler with bufferedRecordBatches := buffered } grown
  obtain ⟨trimmed, removed, lasting⟩ := @remove_old_of_searchable keep
    { handler with
      bufferedRecordBatches := kept
      nextEmit := keep (handler.nextEmit + handler.options.every)
      emittedFirst := true } others
  refine ⟨window, sorted.sliceFrom position, { handler with
    bufferedRecordBatches := trimmed
    nextEmit := keep (handler.nextEmit + handler.options.every)
    emittedFirst := true }, ?_, lasting, remaining_slice remaining inside⟩
  simp only [emitDueIn, bind_of_ok (get_apply handler), found, searched,
    bind_of_ok (of_except_ok position handler), bind_of_ok (set_apply _ handler)]
  rw [bind_of_ok emitted, bind_of_ok (get_apply _), bind_of_ok (set_apply _ _),
    bind_of_ok removed]
  rfl

theorem emission_loop_of_remaining {name : String} {maxTs : Int} (fuel : Nat)
    {sorted : RecordBatch} {handler : WindowHandler} (result : List RecordBatch)
    (remaining : Remaining name maxTs sorted) (searchable : SearchableBuffer handler) :
    Ends (fun fault _ => ¬IsStatus fault)
      (fun (_, rest) after => SearchableBuffer after ∧ Remaining name maxTs rest)
      (emissionLoopIn keep name maxTs fuel sorted result handler) := by
  induction fuel generalizing sorted handler result with
  | zero => simp [emissionLoopIn, Ends, IsStatus, throw_apply]
  | succ fuel induction =>
      simp only [emissionLoopIn, bind_of_ok (get_apply handler)]
      split
      · next due =>
        obtain ⟨window, rest, after, emitted, buffered, left⟩ :=
          emit_due_of_remaining remaining searchable due
        rw [bind_of_ok emitted]
        exact induction _ left buffered
      · exact ⟨searchable, remaining⟩

def startEmit (keep : Int → Int) (handler : WindowHandler) (timeColumn : Column) : Outcome Int :=
  if handler.nextEmit = 0 then do
    let minTs ← timestampAt timeColumn .second 0
    return firstEmitIn keep handler.options minTs
  else return handler.nextEmit

/-- If the first time of a sorted column can be read, then so can all of them. -/
theorem castable_of_first {batch : RecordBatch} {name : String} {column : Column} {index : Nat}
    (located : batch.schema.fieldIndex name = some index)
    (found : (batch.sortRows index).getColumnByName name = some column) {first : Int}
    (read : timestampAt column .second 0 = .ok first) : CastableColumn column := by
  have cells : column.cells =
      (batch.sortRows index).rows.map fun row => row.getD index none := by
    rw [(get_column_by_name_cells found).1]
    apply List.map_congr_left
    intro row _
    rw [Schema.cell, show (batch.sortRows index).schema.fieldIndex name = some index from located,
      Option.map_some, Option.getD_some]
  cases rows : (batch.sortRows index).rows with
  | nil =>
      rw [rows] at cells
      exact .inr (by simp [cells])
  | cons row rest =>
      have isCell : column.cells[0]? = some (row.getD index none) := by
        rw [cells, rows]
        rfl
      rw [timestamp_of_cell isCell] at read
      obtain ⟨timestamp, casts, _⟩ := except_map_ok_cases read
      rcases (cast_timestamp_ok_iff (column.conforms _ (List.mem_of_getElem? isCell)) .second).mp
        ⟨timestamp, casts⟩ with typed | null
      · exact .inl typed
      · refine .inr ?_
        intro cell member
        rw [cells] at member
        obtain ⟨other, inRows, rfl⟩ := List.mem_map.mp member
        apply sorted_null_first batch index _ other inRows
        intro head isHead
        rw [rows, List.head?_cons, Option.some.injEq] at isHead
        rw [← isHead, null]

theorem timestamp_bound {column : Column} {unit : Arrow.TimeUnit} {index : Nat} {time : Int}
    (read : timestampAt column unit index = .ok time) : index < column.cells.length := by
  unfold timestampAt Column.getScalar at read
  cases isCell : column.cells[index]? with
  | none =>
      rw [isCell] at read
      cases read
  | some cell => exact (List.getElem?_eq_some_iff.mp isCell).1

theorem set_first_emit_of_start {handler : WindowHandler} {column : Column} {start : Int}
    (starts : startEmit keep handler column = .ok start) :
    setFirstEmitIn keep column handler = .ok () { handler with nextEmit := start } := by
  unfold startEmit at starts
  simp only [setFirstEmitIn, bind_of_ok (get_apply handler)]
  split at starts
  · next fresh =>
    obtain ⟨minTs, read, same⟩ := except_bind_ok_cases starts
    rw [if_pos fresh, read, bind_of_ok (of_except_ok minTs handler), ← Except.ok.inj same]
    rfl
  · next running =>
    rw [if_neg running, ← Except.ok.inj starts]
    rfl

theorem set_first_emit_of_error {handler : WindowHandler} {column : Column} {fault : Fault}
    (starts : startEmit keep handler column = .error fault) :
    setFirstEmitIn keep column handler = .error fault handler := by
  unfold startEmit at starts
  simp only [setFirstEmitIn, bind_of_ok (get_apply handler)]
  split at starts
  · next fresh =>
    rw [if_pos fresh]
    cases read : timestampAt column .second 0 with
    | ok minTs =>
        rw [read] at starts
        cases starts
    | error own =>
        rw [read] at starts
        cases starts
        rfl
  · cases starts

/-- Where the last time cannot be read, neither can the first, and no first emission is set. -/
theorem start_unchanged {handler : WindowHandler} {batch : RecordBatch} {name : String}
    {column : Column} {index : Nat} {start : Int} {fault : Fault}
    (located : batch.schema.fieldIndex name = some index)
    (found : (batch.sortRows index).getColumnByName name = some column)
    (starts : startEmit keep handler column = .ok start)
    (unread : lastTimestamp column (batch.sortRows index).numRows = .error fault) :
    start = handler.nextEmit := by
  unfold startEmit at starts
  split at starts
  · obtain ⟨minTs, read, _⟩ := except_bind_ok_cases starts
    have bound := timestamp_bound read
    have count : column.cells.length = (batch.sortRows index).numRows := by
      rw [(get_column_by_name_cells found).1, List.length_map, RecordBatch.numRows]
    obtain ⟨last, readLast⟩ := timestamp_of_castable (castable_of_first located found read) .second
      (show (batch.sortRows index).numRows - 1 < column.cells.length by omega)
    rw [last_timestamp_eq column (by omega), readLast] at unread
    cases unread
  · exact (Except.ok.inj starts).symm

/-- The checks of a call before it has changed anything, with the last time. -/
def checks (keep : Int → Int) (handler : WindowHandler) (batch : RecordBatch) : Outcome Int := do
  let name ← getTimeColumnNameMetadata batch
  let sorted ← sortByColumn name batch
  match sorted.getColumnByName name with
  | none => fail .invalid s!"RecordBatch has no time column with name {name}"
  | some column => do
      let _ ← startEmit keep handler column
      lastTimestamp column sorted.numRows

theorem handle_of_unchecked {handler : WindowHandler} {batch : RecordBatch} {fault : Fault}
    (unchecked : checks keep handler batch = .error fault) :
    handleIn keep batch handler = .error fault handler := by
  unfold checks at unchecked
  rw [handleIn]
  cases named : getTimeColumnNameMetadata batch with
  | error own =>
      rw [named] at unchecked
      cases unchecked
      rfl
  | ok name =>
      rw [named] at unchecked
      rw [bind_of_ok (of_except_ok name handler)]
      cases sorts : sortByColumn name batch with
      | error own =>
          simp only [bind, Except.bind, sorts] at unchecked
          cases unchecked
          rfl
      | ok sorted =>
          rw [bind_of_ok (of_except_ok sorted handler)]
          simp only [bind, Except.bind, sorts] at unchecked
          cases found : sorted.getColumnByName name with
          | none =>
              rw [found] at unchecked
              cases unchecked
              rfl
          | some column =>
              rw [found] at unchecked
              dsimp only at unchecked ⊢
              cases starts : startEmit keep handler column with
              | error own =>
                  rw [starts] at unchecked
                  cases unchecked
                  rw [bind_of_error (set_first_emit_of_error starts)]
              | ok start =>
                  rw [starts] at unchecked
                  have last : lastTimestamp column sorted.numRows = .error fault :=
                    unchecked
                  obtain ⟨index, located, rfl⟩ := sort_by_column_of_ok sorts
                  rw [bind_of_ok (set_first_emit_of_start starts), last,
                    start_unchanged located found starts last]
                  rfl

theorem handle_of_checked {handler : WindowHandler} {batch : RecordBatch} {maxTs : Int}
    (checked : checks keep handler batch = .ok maxTs) :
    ∃ name sorted column start, getTimeColumnNameMetadata batch = .ok name ∧
      sortByColumn name batch = .ok sorted ∧ sorted.getColumnByName name = some column ∧
      startEmit keep handler column = .ok start ∧
      lastTimestamp column sorted.numRows = .ok maxTs ∧
      handleIn keep batch handler = (do
        let (result, rest) ← emissionLoopIn keep name maxTs (turnBound maxTs start) sorted []
        let after ← get
        set { after with bufferedRecordBatches := after.bufferedRecordBatches ++ [rest] }
        pure result : Step (List RecordBatch)) { handler with nextEmit := start } := by
  obtain ⟨name, named, sorting⟩ := except_bind_ok_cases checked
  obtain ⟨sorted, sorts, finding⟩ := except_bind_ok_cases sorting
  cases found : sorted.getColumnByName name with
  | none =>
      rw [found] at finding
      cases finding
  | some column =>
      rw [found] at finding
      obtain ⟨start, starts, last⟩ := except_bind_ok_cases finding
      refine ⟨name, sorted, column, start, named, sorts, found, starts, last, ?_⟩
      rw [handleIn, named, bind_of_ok (of_except_ok name handler), sorts,
        bind_of_ok (of_except_ok sorted handler), found]
      dsimp only
      rw [bind_of_ok (set_first_emit_of_start starts), last, bind_of_ok (of_except_ok maxTs _),
        bind_of_ok (get_apply _)]

theorem remaining_of_checked {batch sorted : RecordBatch} {name : String} {column : Column}
    {maxTs : Int} (named : getTimeColumnNameMetadata batch = .ok name)
    (sorts : sortByColumn name batch = .ok sorted)
    (found : sorted.getColumnByName name = some column)
    (last : lastTimestamp column sorted.numRows = .ok maxTs)
    (castable : CastableColumn column) : Remaining name maxTs sorted := by
  obtain ⟨_, _, isSorted⟩ := sort_by_column_of_ok sorts
  have nonempty : sorted.rows ≠ [] := by
    intro empty
    rw [RecordBatch.numRows, empty] at last
    cases last
  have some_rows := Nat.ne_of_gt (List.length_pos_of_ne_nil nonempty)
  refine ⟨nonempty, ?_, column, found, castable, ?_⟩
  · rw [isSorted]
    exact named
  · rw [← last_timestamp_eq column some_rows]
    exact last

/-- Where a call gets to the emission loop and enters it, it can read all the times of the
batch and of the buffer. -/
def FailsFirst (keep : Int → Int) (handler : WindowHandler) (batch : RecordBatch) : Prop :=
  ∀ name sorted column start maxTs, getTimeColumnNameMetadata batch = .ok name →
    sortByColumn name batch = .ok sorted → sorted.getColumnByName name = some column →
    startEmit keep handler column = .ok start →
    lastTimestamp column sorted.numRows = .ok maxTs → start ≤ maxTs →
    CastableColumn column ∧ SearchableBuffer handler

theorem handle_atomic {handler : WindowHandler} {batch : RecordBatch}
    (failsFirst : FailsFirst keep handler batch) : Atomic IsStatus (handleIn keep batch) handler := by
  cases checked : checks keep handler batch with
  | error fault =>
      intro error after raised _
      rw [handle_of_unchecked checked] at raised
      cases raised
      rfl
  | ok maxTs =>
      obtain ⟨name, sorted, column, start, named, sorts, found, starts, last, same⟩ :=
        handle_of_checked checked
      rw [atomic_iff_ends, same]
      have loop : Ends (fun fault _ => ¬IsStatus fault) (fun _ _ => True)
          (emissionLoopIn keep name maxTs (turnBound maxTs start) sorted []
            { handler with nextEmit := start }) := by
        by_cases due : start ≤ maxTs
        · obtain ⟨castable, searchable⟩ :=
            failsFirst name sorted column start maxTs named sorts found starts last due
          have buffered : SearchableBuffer { handler with nextEmit := start } := searchable
          have remaining := remaining_of_checked named sorts found last castable
          exact ends_mono (emission_loop_of_remaining _ [] remaining buffered) (fun _ _ => id)
            fun _ _ _ => trivial
        · rw [emission_loop_early name sorted [] (not_le.mp due)]
          trivial
      apply ends_bind (ends_mono loop (fun _ _ never isStatus => absurd isStatus never)
        fun _ _ _ => trivial)
      intro _ _ _
      trivial

theorem sorted_of_searchable {batch : RecordBatch} {name : String} {column : Column}
    (nonempty : batch.rows ≠ []) (found : batch.getColumnByName name = some column)
    (castable : CastableColumn column) :
    ∃ sorted own, sortByColumn name batch = .ok sorted ∧
      sorted.getColumnByName name = some own ∧ CastableColumn own ∧
      own.cells.length = sorted.numRows ∧ 0 < sorted.numRows := by
  have typed := (get_column_by_name_cells found).2
  cases located : batch.schema.fieldIndex name with
  | none =>
      rw [located] at typed
      cases typed
  | some index =>
      have perm := sort_rows_perm batch index
      obtain ⟨own, ownFound, type, cells, count⟩ :=
        @column_within (batch.sortRows index) batch rfl perm.subset name column found
      refine ⟨batch.sortRows index, own, ?_, ownFound, castable_within type cells castable, count,
        ?_⟩
      · rw [sortByColumn, located]
      · rw [RecordBatch.numRows, perm.length_eq]
        exact List.length_pos_of_ne_nil nonempty

theorem checks_of_searchable {batch : RecordBatch} (searchable : Searchable batch)
    (handler : WindowHandler) : ∃ maxTs, checks keep handler batch = .ok maxTs := by
  obtain ⟨name, column, named, found, castable⟩ := searchable.times
  obtain ⟨sorted, own, sorts, ownFound, ownCastable, count, some_rows⟩ :=
    sorted_of_searchable searchable.nonempty found castable
  obtain ⟨minTs, first⟩ := timestamp_of_castable ownCastable .second
    (show 0 < own.cells.length by omega)
  obtain ⟨maxTs, last⟩ := timestamp_of_castable ownCastable .second
    (show sorted.numRows - 1 < own.cells.length by omega)
  rw [← last_timestamp_eq own (by omega)] at last
  have starts : ∃ start, startEmit keep handler own = .ok start := by
    rw [startEmit, first]
    split
    · exact ⟨_, rfl⟩
    · exact ⟨_, rfl⟩
  obtain ⟨start, starts⟩ := starts
  refine ⟨maxTs, ?_⟩
  simp only [checks, named, sorts, ownFound, starts, last, bind, Except.bind]

theorem handle_of_searchable {handler : WindowHandler} {batch : RecordBatch}
    (searchable : Searchable batch) (buffered : SearchableBuffer handler) :
    Ends (fun fault _ => ¬IsStatus fault) (fun _ after => SearchableBuffer after)
      (handleIn keep batch handler) := by
  obtain ⟨maxTs, checked⟩ := checks_of_searchable searchable handler
  obtain ⟨name, sorted, column, start, named, sorts, found, starts, last, same⟩ :=
    handle_of_checked checked
  obtain ⟨timeName, timeColumn, timeNamed, timeFound, castable⟩ := searchable.times
  have sameName : timeName = name := Except.ok.inj (timeNamed.symm.trans named)
  subst sameName
  obtain ⟨again, own, sortsAgain, ownFound, ownCastable, _⟩ :=
    sorted_of_searchable searchable.nonempty timeFound castable
  have sameSorted : again = sorted := Except.ok.inj (sortsAgain.symm.trans sorts)
  subst sameSorted
  rw [found, Option.some.injEq] at ownFound
  subst ownFound
  have remaining := remaining_of_checked named sorts found last ownCastable
  have emptied : SearchableBuffer { handler with nextEmit := start } := buffered
  rw [same]
  apply ends_bind (emission_loop_of_remaining _ [] remaining emptied)
  intro answer after kept
  obtain ⟨result, rest⟩ := answer
  obtain ⟨grown, left⟩ := kept
  intro other member
  rcases List.mem_append.mp member with inBuffer | isRest
  · exact grown other inBuffer
  · rw [List.mem_singleton.mp isRest]
    exact left.searchable

end Window

namespace DynamicWindow

variable {keep : Int → Int}

def ReadsOption (option : Option OptionColumn) (batch : RecordBatch) : Prop :=
  ∀ entry, option = some entry → ∃ column, batch.getColumnByName entry.name = some column ∧
    ∀ cell ∈ column.cells, ∃ duration,
      (do convertTime (← durationCount column.type cell) entry.timeUnit .second : Outcome Int) =
        .ok duration

def ReadsTimes (name : String) (batch : RecordBatch) : Prop :=
  getTimeColumnNameMetadata batch = .ok name ∧
    ∃ column, batch.getColumnByName name = some column ∧ CastableColumn column

section Reads

variable {option : Option OptionColumn} {left right : RecordBatch}

theorem reads_option_within (schema : left.schema = right.schema) (rows : left.rows ⊆ right.rows)
    (reads : ReadsOption option right) : ReadsOption option left := by
  intro entry isEntry
  obtain ⟨column, found, durations⟩ := reads entry isEntry
  obtain ⟨own, ownFound, type, cells, _⟩ := column_within schema rows found
  refine ⟨own, ownFound, ?_⟩
  intro cell member
  rw [type]
  exact durations cell (cells member)

theorem reads_times_within {name : String} (schema : left.schema = right.schema)
    (rows : left.rows ⊆ right.rows) (reads : ReadsTimes name right) : ReadsTimes name left := by
  obtain ⟨named, column, found, castable⟩ := reads
  obtain ⟨own, ownFound, type, cells, _⟩ := column_within schema rows found
  refine ⟨?_, own, ownFound, castable_within type cells castable⟩
  rw [getTimeColumnNameMetadata, schema]
  exact named

theorem searchable_of_reads {name : String} {batch : RecordBatch} (reads : ReadsTimes name batch)
    (nonempty : batch.rows ≠ []) : Searchable batch := by
  obtain ⟨named, column, found, castable⟩ := reads
  exact ⟨nonempty, name, column, named, found, castable⟩

theorem duration_of_reads {entry : OptionColumn} {batch : RecordBatch}
    (reads : ReadsOption (some entry) batch) {row : Nat} (bound : row < batch.numRows) :
    ∃ duration, getDurationOption batch row entry.name entry.timeUnit = .ok duration := by
  obtain ⟨column, found, durations⟩ := reads entry rfl
  have count : column.cells.length = batch.numRows := by
    rw [(get_column_by_name_cells found).1, List.length_map, RecordBatch.numRows]
  obtain ⟨cell, isCell⟩ : ∃ cell, column.cells[row]? = some cell :=
    ⟨_, List.getElem?_eq_getElem (by omega)⟩
  obtain ⟨duration, converted⟩ := durations cell (List.mem_of_getElem? isCell)
  refine ⟨duration, ?_⟩
  simp only [getDurationOption, found, Column.getScalar, isCell]
  exact converted

theorem find_option_of_reads {entry : OptionColumn} {batch : RecordBatch}
    (reads : ReadsOption (some entry) batch) (current : Int) :
    ∃ index, findNewWindowOptionIndex batch current entry = .ok index := by
  have from_row : ∀ rowsLeft row, row + rowsLeft = batch.numRows →
      ∃ index, findNewWindowOptionFrom batch current entry row rowsLeft = .ok index := by
    intro rowsLeft
    induction rowsLeft with
    | zero => exact fun row _ => ⟨row, rfl⟩
    | succ rowsLeft induction =>
        intro row total
        obtain ⟨duration, read⟩ := duration_of_reads reads (show row < batch.numRows by omega)
        simp only [findNewWindowOptionFrom, read, bind, Except.bind]
        split
        · exact ⟨row, rfl⟩
        · exact induction (row + 1) (by omega)
  exact from_row batch.numRows 0 (Nat.zero_add _)

theorem refresh_of_reads {batch : RecordBatch} (reads : ReadsOption option batch)
    (getOption : Window.WindowHandler → Int) (index : Nat) (handler : Window.WindowHandler) :
    ∃ fresh, refreshIndex batch getOption option index handler = .ok fresh handler := by
  cases option with
  | none => exact ⟨index, rfl⟩
  | some entry =>
      rw [refreshIndex]
      split
      · obtain ⟨fresh, found⟩ := find_option_of_reads reads (getOption handler)
        exact ⟨fresh, by rw [bind_of_ok (get_apply handler), found, of_except_ok]⟩
      · exact ⟨index, rfl⟩

theorem apply_option_of_reads {batch : RecordBatch} (reads : ReadsOption option batch)
    (nonempty : 0 < batch.numRows)
    (setOption : Int → Int → Window.WindowHandler → Window.WindowHandler)
    (keeps : ∀ value time handler, (setOption value time handler).bufferedRecordBatches =
      handler.bufferedRecordBatches)
    (reached : Bool) (newOptionsTs : Int) (handler : Window.WindowHandler) :
    ∃ after, applyOption batch setOption option reached newOptionsTs handler = .ok () after ∧
      after.bufferedRecordBatches = handler.bufferedRecordBatches := by
  cases option with
  | none => exact ⟨handler, rfl, rfl⟩
  | some entry =>
      rw [applyOption]
      split
      · obtain ⟨duration, read⟩ := duration_of_reads reads nonempty
        refine ⟨setOption duration newOptionsTs handler, ?_, keeps _ _ _⟩
        rw [read, bind_of_ok (of_except_ok duration handler), bind_of_ok (get_apply handler),
          set_apply]
      · exact ⟨handler, rfl, rfl⟩

theorem first_timestamp_of_reads {name : String} {batch : RecordBatch}
    (reads : ReadsTimes name batch) (nonempty : 0 < batch.numRows) :
    ∃ first, firstTimestamp batch name = .ok first := by
  obtain ⟨_, column, found, castable⟩ := reads
  have count : column.cells.length = batch.numRows := by
    rw [(get_column_by_name_cells found).1, List.length_map, RecordBatch.numRows]
  obtain ⟨first, read⟩ := timestamp_of_castable castable .second
    (show 0 < column.cells.length by omega)
  exact ⟨first, by rw [firstTimestamp, found]; exact read⟩

end Reads

theorem handle_slice_of_reads {name : String} {batch : RecordBatch} {handler : Window.WindowHandler}
    (times : ReadsTimes name batch) (nonempty : batch.numRows ≠ 0)
    (buffered : Window.SearchableBuffer handler) (index : Nat) :
    Ends (fun fault _ => ¬IsStatus fault) (fun _ after => Window.SearchableBuffer after)
      (handleSlice (windowHandlerIn keep) batch index handler) := by
  rw [handleSlice]
  split
  · next some_rows =>
    apply Window.handle_of_searchable _ buffered
    apply searchable_of_reads
      (reads_times_within (slice_schema batch 0 index) (slice_subset batch 0 index) times)
    intro empty
    have count := congrArg List.length empty
    rw [slice_rows, List.length_take, List.length_drop, List.length_nil] at count
    rw [RecordBatch.numRows] at nonempty
    omega
  · exact buffered

/-- A batch whose times and options can be read is handled without a failure. -/
theorem dynamic_loop_of_reads {name : String} {period every : Option OptionColumn} (fuel : Nat)
    {batch : RecordBatch} {handler : Window.WindowHandler} (periodIndex everyIndex : Nat)
    (result : List RecordBatch) (times : ReadsTimes name batch)
    (periods : ReadsOption period batch) (everys : ReadsOption every batch)
    (buffered : Window.SearchableBuffer handler) :
    Ends (fun fault _ => ¬IsStatus fault) (fun _ _ => True)
      (dynamicLoop (windowHandlerIn keep) name period every fuel batch periodIndex everyIndex result
        handler) := by
  induction fuel generalizing batch handler periodIndex everyIndex result with
  | zero => simp [dynamicLoop, Ends, IsStatus, throw_apply]
  | succ fuel induction =>
      rw [dynamicLoop]
      split
      · trivial
      · next nonempty =>
        obtain ⟨newPeriodIndex, lookedPeriod⟩ :=
          refresh_of_reads periods (windowHandlerIn keep).getPeriodOption periodIndex handler
        obtain ⟨newEveryIndex, lookedEvery⟩ :=
          refresh_of_reads everys (windowHandlerIn keep).getEveryOption everyIndex handler
        rw [bind_of_ok lookedPeriod, bind_of_ok lookedEvery]
        apply ends_bind (handle_slice_of_reads times nonempty buffered _)
        intro intermediateResult after grown
        have schema := slice_from_schema batch (min newEveryIndex newPeriodIndex)
        have rows := slice_from_subset batch (min newEveryIndex newPeriodIndex)
        split
        · trivial
        · next left =>
          have some_rows := Nat.pos_of_ne_zero left
          obtain ⟨newOptionsTs, first⟩ :=
            first_timestamp_of_reads (reads_times_within schema rows times) some_rows
          obtain ⟨periodSet, setsPeriod, samePeriod⟩ := apply_option_of_reads
            (reads_option_within schema rows periods) some_rows (windowHandlerIn keep).setPeriodOption
            (fun _ _ _ => rfl) (decide (min newEveryIndex newPeriodIndex = newPeriodIndex))
            newOptionsTs after
          obtain ⟨everySet, setsEvery, sameEvery⟩ := apply_option_of_reads
            (reads_option_within schema rows everys) some_rows (windowHandlerIn keep).setEveryOption
            (fun _ _ _ => rfl) (decide (min newEveryIndex newPeriodIndex = newEveryIndex))
            newOptionsTs periodSet
          rw [first, bind_of_ok (of_except_ok newOptionsTs after), bind_of_ok setsPeriod,
            bind_of_ok setsEvery]
          apply induction _ _ _ (reads_times_within schema rows times)
            (reads_option_within schema rows periods) (reads_option_within schema rows everys)
          intro other member
          rw [sameEvery, samePeriod] at member
          exact grown other member

def lookAhead (batch sorted : RecordBatch) (current : Int) :
    Option OptionColumn → Outcome Nat
  | none => .ok batch.numRows
  | some entry => findNewWindowOptionIndex sorted current entry

/-- What the first turn reads before it changes anything. -/
def firstTurn (keep : Int → Int) (handler : Window.WindowHandler) (batch sorted : RecordBatch) (name : String)
    (period every : Option OptionColumn) : Outcome Int := do
  let newPeriodIndex ← lookAhead batch sorted handler.options.period period
  let newEveryIndex ← lookAhead batch sorted handler.options.every every
  let newOptionsIndex := min newEveryIndex newPeriodIndex
  if newOptionsIndex > 0 then Window.checks keep handler (sorted.slice 0 newOptionsIndex)
  else firstTimestamp (sorted.sliceFrom newOptionsIndex) name

/-- A call that gets past its first turn can read all the options and times. -/
def FailsFirst (keep : Int → Int) (options : DynamicWindowOptions) (handler : Window.WindowHandler)
    (batch : RecordBatch) : Prop :=
  ∀ period every name sorted first, optionColumn batch options.periodColumnName = .ok period →
    optionColumn batch options.everyColumnName = .ok every →
    getTimeColumnNameMetadata batch = .ok name → sortByColumn name batch = .ok sorted →
    firstTurn keep handler batch sorted name period every = .ok first →
    ReadsTimes name batch ∧ ReadsOption period batch ∧ ReadsOption every batch ∧
      Window.SearchableBuffer handler

theorem refresh_first (batch sorted : RecordBatch) (option : Option OptionColumn)
    (getOption : Window.WindowHandler → Int) (handler : Window.WindowHandler) :
    refreshIndex sorted getOption option (firstIndex batch option) handler =
      (ofExcept (lookAhead batch sorted (getOption handler) option) : Step _ Nat) handler := by
  cases option <;> rfl

theorem first_turn_fails {handler : Window.WindowHandler} {batch sorted : RecordBatch}
    {name : String} {period every : Option OptionColumn} {fault : Fault}
    (failed : firstTurn keep handler batch sorted name period every = .error fault)
    (nonempty : sorted.numRows ≠ 0) (fuel : Nat) :
    dynamicLoop (windowHandlerIn keep) name period every (fuel + 1) sorted (firstIndex batch period)
      (firstIndex batch every) [] handler = .error fault handler := by
  rw [dynamicLoop, if_neg nonempty]
  unfold firstTurn at failed
  have lookedPeriod := refresh_first batch sorted period (windowHandlerIn keep).getPeriodOption handler
  have lookedEvery := refresh_first batch sorted every (windowHandlerIn keep).getEveryOption handler
  cases periods : lookAhead batch sorted handler.options.period period with
  | error own =>
      rw [periods] at failed
      cases failed
      apply bind_of_error
      rw [lookedPeriod]
      exact congrArg (fun result => (ofExcept result : Step _ Nat) handler) periods
  | ok newPeriodIndex =>
      rw [show (windowHandlerIn keep).getPeriodOption handler = handler.options.period from rfl, periods]
        at lookedPeriod
      rw [bind_of_ok lookedPeriod]
      cases everys : lookAhead batch sorted handler.options.every every with
      | error own =>
          rw [periods, everys] at failed
          cases failed
          apply bind_of_error
          rw [lookedEvery]
          exact congrArg (fun result => (ofExcept result : Step _ Nat) handler) everys
      | ok newEveryIndex =>
          rw [show (windowHandlerIn keep).getEveryOption handler = handler.options.every from rfl, everys]
            at lookedEvery
          rw [bind_of_ok lookedEvery]
          rw [periods, everys] at failed
          simp only [bind, Except.bind] at failed
          split at failed
          · next some_rows =>
            apply bind_of_error
            rw [handleSlice, if_pos some_rows]
            exact Window.handle_of_unchecked failed
          · next no_rows =>
            have none : min newEveryIndex newPeriodIndex = 0 := by omega
            have slice : handleSlice (windowHandlerIn keep) sorted (min newEveryIndex newPeriodIndex)
                handler = .ok [] handler := by
              rw [handleSlice, if_neg no_rows, pure_apply]
            have whole : (sorted.sliceFrom (min newEveryIndex newPeriodIndex)).numRows ≠ 0 := by
              rw [none]
              exact nonempty
            rw [bind_of_ok slice, if_neg whole, failed]
            rfl

theorem handle_atomic {options : DynamicWindowOptions} {handler : Window.WindowHandler}
    {batch : RecordBatch} (failsFirst : FailsFirst keep options handler batch) :
    Atomic IsStatus (handle (windowHandlerIn keep) options batch) handler := by
  rw [handle]
  apply atomic_of_except_bind
  intro period isPeriod
  apply atomic_of_except_bind
  intro every isEvery
  apply atomic_of_except_bind
  intro name named
  apply atomic_of_except_bind
  intro sorted sorts
  cases turn : firstTurn keep handler batch sorted name period every with
  | ok first =>
      obtain ⟨times, periods, everys, buffered⟩ :=
        failsFirst period every name sorted first isPeriod isEvery named sorts turn
      obtain ⟨index, _, rfl⟩ := sort_by_column_of_ok sorts
      have schema : (batch.sortRows index).schema = batch.schema := rfl
      have rows : (batch.sortRows index).rows ⊆ batch.rows := (sort_rows_perm batch index).subset
      exact atomic_of_ends (dynamic_loop_of_reads _ _ _ _ (reads_times_within schema rows times)
        (reads_option_within schema rows periods) (reads_option_within schema rows everys)
        buffered)
  | error fault =>
      intro error after raised _
      by_cases empty : sorted.numRows = 0
      · rw [dynamicLoop, if_pos empty] at raised
        cases raised
      · rw [first_turn_fails turn empty] at raised
        cases raised
        rfl

end DynamicWindow

end StreamDataProcessor.Handlers
