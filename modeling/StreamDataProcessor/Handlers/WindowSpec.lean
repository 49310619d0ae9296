import StreamDataProcessor.Foundation.HoppingWindow
import StreamDataProcessor.Handlers.WrappedSeconds

/-!
# The window handler emits the hopping windows of its stream

A stream of one schema, in the order of its times and cut into batches anywhere,
is held by the handler as the rows that a later window can still contain. Each
call adds the windows of the boundaries its clock has reached.
-/

namespace StreamDataProcessor.Handlers.Window

open Foundation Foundation.Effect Foundation.HoppingWindow Foundation.TwosComplement
  Arrow Metadata Utils

set_option autoImplicit false

def bufferRows (buffer : List RecordBatch) : List Row := buffer.flatMap RecordBatch.rows

structure StreamOf (schema : Schema) (batches : List RecordBatch) : Prop where
  timed : Timed schema
  schemas : ∀ batch ∈ batches, batch.schema = schema
  nonempty : ∀ batch ∈ batches, batch.rows ≠ []
  full : FullyTimed schema (bufferRows batches)
  nonneg : ∀ row ∈ bufferRows batches, 0 ≤ rawTime schema row
  sorted : (bufferRows batches).Pairwise fun earlier later =>
    rawTime schema earlier ≤ rawTime schema later

def expectedWindows (options : WindowOptions) (schema : Schema) (stream : List Row) :
    List (List Row) :=
  match stream.head?, stream.getLast? with
  | some first, some last =>
      windows (seconds schema) options.period (firstEmit options (seconds schema first))
        options.every (seconds schema last) stream
  | _, _ => []

def contents (batch : RecordBatch) : Schema × List Row := (batch.schema, batch.rows)

section Buffers

variable {schema : Schema}

theorem trimmed_schemas {oldest : Int} {buffer kept : List RecordBatch}
    (trimmed : Trimmed oldest buffer kept) (schemas : ∀ batch ∈ buffer, batch.schema = schema) :
    ∀ batch ∈ kept, batch.schema = schema := by
  induction trimmed with
  | empty => exact schemas
  | dropped old others induction =>
      exact induction fun batch member => schemas batch (by simp [member])
  | @cut batch rest position recent filtered =>
      intro other member
      rcases List.mem_cons.mp member with rfl | inRest
      · exact schemas batch (by simp)
      · exact schemas other (by simp [inRest])

theorem trimmed_rows {oldest : Int} {buffer kept : List RecordBatch}
    (trimmed : Trimmed oldest buffer kept) (schemas : ∀ batch ∈ buffer, batch.schema = schema)
    (sorted : (bufferRows buffer).Pairwise fun earlier later =>
      seconds schema earlier ≤ seconds schema later) :
    bufferRows kept = (bufferRows buffer).filter fun row => oldest ≤ seconds schema row := by
  induction trimmed with
  | empty => rfl
  | @dropped batch rest kept old others induction =>
      have own := schemas batch (by simp)
      simp only [bufferRows, List.flatMap_cons, List.pairwise_append] at sorted
      have chronological : Chronological batch := by
        unfold Chronological batchSeconds
        rw [own]
        exact sorted.1
      have none : (batch.rows.filter fun row => oldest ≤ seconds schema row) = [] := by
        rw [List.filter_eq_nil_iff]
        intro row member
        have isOld := old chronological row member
        rw [batchSeconds, own] at isOld
        simpa using isOld
      rw [induction (fun other member => schemas other (by simp [member])) sorted.2.1]
      simp only [bufferRows, List.flatMap_cons, List.filter_append, none, List.nil_append]
  | @cut batch rest position recent filtered =>
      have own := schemas batch (by simp)
      simp only [bufferRows, List.flatMap_cons, List.pairwise_append] at sorted
      have chronological : Chronological batch := by
        unfold Chronological batchSeconds
        rw [own]
        exact sorted.1
      have cut := filtered chronological
      simp only [batchSeconds, own] at cut
      obtain ⟨first, isFirst⟩ := List.exists_mem_of_ne_nil _ recent
      rw [cut, List.mem_filter, decide_eq_true_eq] at isFirst
      have others : ((rest.flatMap RecordBatch.rows).filter fun row =>
          oldest ≤ seconds schema row) = rest.flatMap RecordBatch.rows := by
        rw [List.filter_eq_self]
        intro row member
        simpa using Int.le_trans isFirst.2 (sorted.2.2 first isFirst.1 row member)
      simp only [bufferRows, List.flatMap_cons, List.filter_append, cut, others]

theorem joined_schema {run : List RecordBatch} {result : RecordBatch}
    (joined : Joined run result) (schemas : ∀ batch ∈ run, batch.schema = schema) :
    result.schema = schema := by
  have schemaOf := joined.schema
  cases run with
  | nil => cases schemaOf
  | cons batch batches =>
      rw [List.head?_cons, Option.map_some, Option.some.injEq] at schemaOf
      rw [← schemaOf]
      exact schemas batch (by simp)

theorem joined_rows_ne_nil {run : List RecordBatch} {result : RecordBatch}
    (joined : Joined run result) (nonempty : ∀ batch ∈ run, batch.rows ≠ []) :
    result.rows ≠ [] := by
  have schemaOf := joined.schema
  cases run with
  | nil => cases schemaOf
  | cons batch batches =>
      rw [joined.rows, List.flatMap_cons]
      intro empty
      exact nonempty batch (by simp) (List.append_eq_nil_iff.mp empty).1

theorem emitted_contents {kept window : List RecordBatch} (emitted : EmittedAs kept window)
    (schemas : ∀ batch ∈ kept, batch.schema = schema)
    (nonempty : ∀ batch ∈ kept, batch.rows ≠ []) :
    window.map contents =
      ([bufferRows kept].filter (· ≠ [])).map fun rows => (schema, rows) := by
  obtain ⟨⟨runs, covers, joined⟩, longest⟩ := emitted
  subst covers
  cases joined with
  | nil => rfl
  | @cons run result runs others first rest =>
      have own := joined_schema first fun batch member => schemas batch (by simp [member])
      cases rest with
      | nil =>
          have some := joined_rows_ne_nil first fun batch member =>
            nonempty batch (by simpa using member)
          have rows : bufferRows [run].flatten = result.rows := by
            rw [first.rows]
            simp [bufferRows]
          rw [rows, List.filter_cons_of_pos (by simpa using some)]
          simp [contents, own]
      | @cons next nextResult nextRuns nextOthers second tail =>
          have nextOwn := joined_schema second fun batch member => schemas batch (by simp [member])
          have differ := (List.isChain_cons_cons.mp longest).1
          rw [own, nextOwn] at differ
          exact absurd (equal_fields_refl schema) differ

end Buffers

/-- A buffer of batches of one schema, by its rows. -/
structure Holding (schema : Schema) (handler : WindowHandler) (kept : List Row) : Prop where
  buffered : ∀ batch ∈ handler.bufferedRecordBatches, Buffered batch
  schemas : ∀ batch ∈ handler.bufferedRecordBatches, batch.schema = schema
  rows : bufferRows handler.bufferedRecordBatches = kept

section Turns

variable {schema : Schema}

theorem due_buffer_holds {handler : WindowHandler} {sortedRecordBatch : RecordBatch}
    {position : Nat} {kept : List Row} (holding : Holding schema handler kept)
    (own : sortedRecordBatch.schema = schema) :
    (∀ batch ∈ dueBuffer handler sortedRecordBatch position, batch.schema = schema) ∧
      bufferRows (dueBuffer handler sortedRecordBatch position) =
        kept ++ sortedRecordBatch.rows.take position := by
  unfold dueBuffer
  split
  · constructor
    · intro batch member
      rcases List.mem_append.mp member with earlier | isSlice
      · exact holding.schemas batch earlier
      · rw [List.mem_singleton.mp isSlice, slice_schema, own]
    · rw [bufferRows, List.flatMap_append, ← holding.rows]
      simp [bufferRows]
  · next none =>
    obtain rfl : position = 0 := by omega
    exact ⟨holding.schemas, by simpa using holding.rows⟩

/-- A due turn over rows in order emits the window of its boundary over everything at
hand, and keeps the rows that the next window can contain. -/
theorem due_turn_window {handler : WindowHandler} {sortedRecordBatch : RecordBatch}
    {position : Nat} {keptBatches final window : List RecordBatch} {kept : List Row}
    (holding : Holding schema handler kept) (own : sortedRecordBatch.schema = schema)
    (turn : DueTurn handler sortedRecordBatch position keptBatches final window)
    (sorted : (kept ++ sortedRecordBatch.rows).Pairwise fun earlier later =>
      seconds schema earlier ≤ seconds schema later)
    (early : ∀ row ∈ kept, seconds schema row < handler.nextEmit)
    (positive : 0 ≤ handler.options.every) :
    let items := kept ++ sortedRecordBatch.rows
    window.map contents =
        ([windowAt (seconds schema) handler.options.period handler.nextEmit items].filter
          (· ≠ [])).map (fun rows => (schema, rows)) ∧
      ∃ next, Holding schema
          { handler with
            bufferedRecordBatches := final
            emittedFirst := true
            nextEmit := handler.nextEmit + handler.options.every } next ∧
        (∀ row ∈ next, seconds schema row < handler.nextEmit) ∧
        Retains (seconds schema)
          (handler.nextEmit + handler.options.every - handler.options.period) items
          (next ++ (sortedRecordBatch.sliceFrom position).rows) := by
  intro items
  have chronological : Chronological sortedRecordBatch := by
    unfold Chronological batchSeconds
    rw [own]
    exact (List.pairwise_append.mp sorted).2.1
  obtain ⟨taken, dropped⟩ := turn.cuts chronological
  simp only [batchSeconds, own] at taken dropped
  obtain ⟨dueSchemas, dueRows⟩ := (@due_buffer_holds _ _ _ position) holding own
  have due : bufferRows (dueBuffer handler sortedRecordBatch position) =
      items.filter fun row => seconds schema row < handler.nextEmit := by
    have all : (kept.filter fun row => seconds schema row < handler.nextEmit) = kept := by
      rw [List.filter_eq_self]
      intro row member
      simpa using early row member
    rw [dueRows, taken, List.filter_append, all]
  have dueSorted : (bufferRows (dueBuffer handler sortedRecordBatch position)).Pairwise
      fun earlier later => seconds schema earlier ≤ seconds schema later := by
    rw [due]
    exact sorted.filter _
  have keptSchemas := trimmed_schemas turn.trims dueSchemas
  have keptRows := trimmed_rows turn.trims dueSchemas dueSorted
  have keptWindow : bufferRows keptBatches =
      windowAt (seconds schema) handler.options.period handler.nextEmit items := by
    rw [keptRows, due, List.filter_filter, windowAt]
    apply List.filter_congr
    intro row _
    simp
  have finalRows := trimmed_rows turn.advances keptSchemas (by
    rw [keptRows]
    exact dueSorted.filter _)
  constructor
  · rw [← keptWindow]
    exact emitted_contents turn.emits keptSchemas fun batch member =>
      (turn.keptBuffered batch member).nonempty
  · refine ⟨bufferRows final, ⟨turn.finalBuffered, trimmed_schemas turn.advances keptSchemas, rfl⟩,
      ?_, ?_⟩
    · intro row member
      rw [finalRows, List.mem_filter, keptRows, List.mem_filter, due, List.mem_filter] at member
      simpa using member.1.1.2
    · have whole : items = bufferRows (dueBuffer handler sortedRecordBatch position) ++
          (sortedRecordBatch.sliceFrom position).rows := by
        rw [dueRows, slice_from_rows, List.append_assoc, List.take_append_drop]
      rw [whole]
      apply retains_append
      refine retains_trans ?_ (keptRows ▸ retains_filter dueSorted) (finalRows ▸ retains_filter ?_)
      · omega
      · rw [keptRows]
        exact dueSorted.filter _

/-- Between the turns of a call that found its next boundary at `start` and `items` in
its buffer and batch: what is emitted and what is still to come are all the windows. -/
structure Emitting (schema : Schema) (options : WindowOptions) (maxTs start : Int)
    (items : List Row) (handler : WindowHandler) (sortedRecordBatch : RecordBatch)
    (result : List RecordBatch) : Prop where
  sameOptions : handler.options = options
  sameSchema : sortedRecordBatch.schema = schema
  held : ∃ kept, Holding schema handler kept ∧
    (∀ row ∈ kept, seconds schema row < handler.nextEmit) ∧
    (kept ++ sortedRecordBatch.rows).Pairwise (fun earlier later =>
      seconds schema earlier ≤ seconds schema later) ∧
    Retains (seconds schema) (handler.nextEmit - options.period) items
      (kept ++ sortedRecordBatch.rows)
  emitted : result.map contents ++ (windows (seconds schema) options.period handler.nextEmit
      options.every maxTs items).map (fun rows => (schema, rows)) =
    (windows (seconds schema) options.period start options.every maxTs items).map
      fun rows => (schema, rows)
  aligned : boundary handler.nextEmit options.every
      (dueCount handler.nextEmit options.every maxTs) =
    boundary start options.every (dueCount start options.every maxTs)

theorem emitting_turn {options : WindowOptions} {maxTs start : Int} {items : List Row}
    {handler : WindowHandler} {sortedRecordBatch : RecordBatch} {result : List RecordBatch}
    {position : Nat} {keptBatches final window : List RecordBatch}
    (positive : 1 ≤ options.every)
    (emitting : Emitting schema options maxTs start items handler sortedRecordBatch result)
    (due : maxTs ≥ handler.nextEmit)
    (turn : DueTurn handler sortedRecordBatch position keptBatches final window) :
    Emitting schema options maxTs start items
      { handler with
        bufferedRecordBatches := final
        emittedFirst := true
        nextEmit := handler.nextEmit + handler.options.every }
      (sortedRecordBatch.sliceFrom position) (result ++ window) := by
  obtain ⟨rfl, own, ⟨kept, holding, early, sorted, retains⟩, emitted, aligned⟩ := emitting
  obtain ⟨windowContents, next, nextHolding, nextEarly, nextRetains⟩ :=
    due_turn_window holding own turn sorted early (by omega)
  refine ⟨rfl, own, ⟨next, nextHolding, ?_, ?_, ?_⟩, ?_, ?_⟩
  · intro row member
    have before := nextEarly row member
    dsimp only
    omega
  · obtain ⟨forgotten, split, _⟩ := nextRetains
    rw [split] at sorted
    exact (List.pairwise_append.mp sorted).2.1
  · exact retains_trans (by dsimp only; omega) retains nextRetains
  · rw [← emitted, windows_due_succ (by omega) due, window_at_of_retains retains le_rfl,
      List.map_append, List.map_append, windowContents, List.append_assoc]
  · rw [← aligned, due_count_succ (by omega) due, boundary_succ]

end Turns

section Runs

variable {schema : Schema}

/-- The handler after a stream, before a batch that continues it. -/
structure Tracks (schema : Schema) (options : WindowOptions) (stream : List Row)
    (handler : WindowHandler) : Prop where
  sameOptions : handler.options = options
  positive : 0 < handler.nextEmit
  held : ∃ kept, Holding schema handler kept ∧
    (∀ row ∈ stream, seconds schema row < handler.nextEmit) ∧
    Retains (seconds schema) (handler.nextEmit - options.period) stream kept

theorem holding_push {handler : WindowHandler} {kept : List Row} {batch : RecordBatch}
    (holding : Holding schema handler kept) (own : batch.schema = schema)
    (buffered : Buffered batch) :
    Holding schema { handler with
      bufferedRecordBatches := handler.bufferedRecordBatches ++ [batch] } (kept ++ batch.rows) where
  buffered := by
    intro other member
    rcases List.mem_append.mp member with earlier | isBatch
    · exact holding.buffered other earlier
    · rw [List.mem_singleton.mp isBatch]
      exact buffered
  schemas := by
    intro other member
    rcases List.mem_append.mp member with earlier | isBatch
    · exact holding.schemas other earlier
    · rw [List.mem_singleton.mp isBatch]
      exact own
  rows := by
    rw [bufferRows, List.flatMap_append, ← holding.rows]
    simp [bufferRows]

theorem le_last_seconds {earlier : List Row} {batch : RecordBatch}
    (nonempty : batch.rows ≠ [])
    (sorted : (earlier ++ batch.rows).Pairwise fun first second =>
      seconds batch.schema first ≤ seconds batch.schema second) :
    ∀ row ∈ earlier ++ batch.rows, seconds batch.schema row ≤ lastSeconds batch := by
  rw [last_seconds_eq nonempty, batchSeconds]
  rw [← List.dropLast_append_getLast nonempty, ← List.append_assoc] at sorted
  intro row member
  rw [← List.dropLast_append_getLast nonempty, ← List.append_assoc] at member
  rcases List.mem_append.mp member with before | isLast
  · exact (List.pairwise_append.mp sorted).2.2 row before _ (by simp)
  · rw [List.mem_singleton.mp isLast]

theorem le_boundary {first every : Int} (nonneg : 0 ≤ every) (index : Nat) :
    first ≤ boundary first every index := by
  have ahead := Int.mul_nonneg (Int.natCast_nonneg index) nonneg
  unfold boundary
  omega

/-- One call: the windows from the next boundary on, over the whole stream. -/
theorem handle_tracks {options : WindowOptions} {stream : List Row} {handler : WindowHandler}
    {batch : RecordBatch} {time : TimeColumn} (positive : 1 ≤ options.every)
    (tracks : Tracks schema options stream handler)
    (found : timeColumn schema = some time) (own : batch.schema = schema)
    (nonempty : batch.rows ≠ []) (full : FullyTimed schema batch.rows)
    (sorted : (stream ++ batch.rows).Pairwise fun earlier later =>
      rawTime schema earlier ≤ rawTime schema later) :
    ∃ outputs after, handle batch handler = .ok outputs after ∧
      outputs.map contents = (windows (seconds schema) options.period handler.nextEmit
        options.every (lastSeconds batch) (stream ++ batch.rows)).map
          (fun rows => (schema, rows)) ∧
      after.nextEmit = boundary handler.nextEmit options.every
        (dueCount handler.nextEmit options.every (lastSeconds batch)) ∧
      Tracks schema options (stream ++ batch.rows) after := by
  obtain ⟨rfl, ahead, kept, holding, early, retains⟩ := tracks
  subst own
  have unsorted := sort_rows_of_sorted found full (List.pairwise_append.mp sorted).2.1
  have startedSelf : started handler batch = handler := by
    rw [started, startedIn, if_neg (by omega)]
  have chronological : (stream ++ batch.rows).Pairwise fun earlier later =>
      seconds batch.schema earlier ≤ seconds batch.schema later :=
    sorted.imp fun le => seconds_mono le
  have running : Running time (lastSeconds batch) handler batch :=
    ⟨found, nonempty, rfl, holding.buffered⟩
  have emitting : Emitting batch.schema handler.options (lastSeconds batch) handler.nextEmit
      (kept ++ batch.rows) handler batch [] := by
    refine ⟨rfl, rfl, ⟨kept, holding, ?_, ?_, retains_refl _ _⟩, rfl, rfl⟩
    · obtain ⟨forgotten, split, _⟩ := retains
      intro row member
      exact early row (by rw [split]; simp [member])
    · obtain ⟨forgotten, split, _⟩ := retains
      rw [split, List.append_assoc] at chronological
      exact (List.pairwise_append.mp chronological).2.1
  obtain ⟨total, rest, after, looped, final, runs, ended, options⟩ :=
    (@emission_loop_returns _ _
        (Emitting batch.schema handler.options (lastSeconds batch) handler.nextEmit
        (kept ++ batch.rows))
        (fun _ _ _ _ _ _ _ holds due _ turn => emitting_turn positive holds due turn)
        (turnBound (lastSeconds batch) handler.nextEmit))
      running emitting positive (lt_turn_bound _ _)
  have reached : after.nextEmit = boundary handler.nextEmit handler.options.every
      (dueCount handler.nextEmit handler.options.every (lastSeconds batch)) := by
    have aligned := final.aligned
    rw [due_count_eq_zero (by omega) ended] at aligned
    rw [← aligned]
    simp [boundary]
  refine ⟨total, { after with
    bufferedRecordBatches := after.bufferedRecordBatches ++ [rest] }, ?_, ?_, ?_, ?_⟩
  · rw [handle_eq found nonempty, unsorted]
    simp only [startedSelf, looped, buffer_rest_ok]
  · have emitted := final.emitted
    rw [windows_not_due (by omega) ended, List.map_nil, List.append_nil] at emitted
    rw [emitted]
    congr 1
    apply windows_congr
    intro index _
    refine (window_at_of_retains (retains_append retains batch.rows) ?_).symm
    have later := @le_boundary handler.nextEmit handler.options.every
      (by omega) index
    omega
  · exact reached
  · obtain ⟨next, nextHolding, _, _, nextRetains⟩ := final.held
    have later := @le_boundary handler.nextEmit handler.options.every
      (by omega) (dueCount handler.nextEmit handler.options.every (lastSeconds batch))
    refine ⟨options, by dsimp only; omega, next ++ rest.rows, ?_, ?_, ?_⟩
    · exact holding_push nextHolding final.sameSchema
        ⟨by rw [Timed, runs.found]; rfl, runs.nonempty⟩
    · intro row member
      exact lt_of_le_of_lt (le_last_seconds nonempty chronological row member) ended
    · exact retains_trans (by dsimp only; omega) (retains_append retains batch.rows) nextRetains

theorem handle_all_tracks {options : WindowOptions} {stream : List Row}
    {handler : WindowHandler} {batches : List RecordBatch} {time : TimeColumn}
    (positive : 1 ≤ options.every) (tracks : Tracks schema options stream handler)
    (found : timeColumn schema = some time)
    (schemas : ∀ batch ∈ batches, batch.schema = schema)
    (nonempty : ∀ batch ∈ batches, batch.rows ≠ [])
    (full : FullyTimed schema (bufferRows batches))
    (sorted : (stream ++ bufferRows batches).Pairwise fun earlier later =>
      rawTime schema earlier ≤ rawTime schema later) :
    ∃ outputs after, handleAll batches handler = .ok outputs after ∧
      ∀ last, batches.getLast? = some last →
        outputs.map contents = (windows (seconds schema) options.period handler.nextEmit
          options.every (lastSeconds last) (stream ++ bufferRows batches)).map
            fun rows => (schema, rows) := by
  induction batches generalizing stream handler with
  | nil => exact ⟨[], handler, rfl, by simp⟩
  | cons batch rest induction =>
      have regroup : stream ++ bufferRows (batch :: rest) =
          (stream ++ batch.rows) ++ bufferRows rest := by simp [bufferRows]
      rw [regroup] at sorted ⊢
      obtain ⟨outputs, middle, handled, windowContents, nextEmit, nextTracks⟩ :=
        handle_tracks positive tracks found (schemas batch (by simp)) (nonempty batch (by simp))
          (fun time found row member => full time found row (by simp [bufferRows, member]))
          (List.pairwise_append.mp sorted).1
      obtain ⟨later, after, handledRest, laterContents⟩ := induction nextTracks
        (fun other member => schemas other (by simp [member]))
        (fun other member => nonempty other (by simp [member]))
        (fun time found row member => full time found row (by
          rw [bufferRows, List.flatMap_cons]
          exact List.mem_append_right _ member))
        sorted
      refine ⟨outputs ++ later, after, ?_, ?_⟩
      · simp only [handleAll, handleAllIn, bind_of_ok handled, bind_of_ok handledRest, pure_apply]
      · intro last isLast
        cases rest with
        | nil =>
            rw [List.getLast?_singleton, Option.some.injEq] at isLast
            subst isLast
            have none : later = [] := by
              cases handledRest
              rfl
            rw [none, List.append_nil, windowContents]
            simp [bufferRows]
        | cons next others =>
            rw [List.getLast?_cons_cons] at isLast
            have between : ∀ row ∈ bufferRows (next :: others),
                lastSeconds batch ≤ seconds schema row := by
              have own := schemas batch (by simp)
              have some := nonempty batch (by simp)
              intro row member
              rw [last_seconds_eq some, batchSeconds, own]
              exact seconds_mono ((List.pairwise_append.mp sorted).2.2 _
                (List.mem_append_right _ (List.getLast_mem some)) row member)
            have lastAfter : lastSeconds batch ≤ lastSeconds last := by
              have inRest := List.mem_of_getLast? isLast
              have some := nonempty last (by simp [inRest])
              rw [last_seconds_eq some, batchSeconds, schemas last (by simp [inRest])]
              exact between _ (List.mem_flatMap.mpr ⟨last, inRest, List.getLast_mem some⟩)
            rw [List.map_append, windowContents, laterContents last isLast, nextEmit,
              ← List.map_append, ← windows_append (by omega) lastAfter between]

theorem buffer_rows_last {batches : List RecordBatch} {last : RecordBatch}
    (isLast : batches.getLast? = some last) (nonempty : last.rows ≠ []) :
    (bufferRows batches).getLast? = some (last.rows.getLast nonempty) := by
  have inhabited : batches ≠ [] := by
    intro empty
    rw [empty] at isLast
    cases isLast
  rw [List.getLast?_eq_some_getLast inhabited, Option.some.injEq] at isLast
  rw [← List.dropLast_append_getLast inhabited, isLast, bufferRows, List.flatMap_append,
    List.flatMap_singleton, List.getLast?_append, List.getLast?_eq_some_getLast nonempty]
  rfl

theorem handle_fresh {options : WindowOptions} {batch : RecordBatch} {time : TimeColumn}
    (found : timeColumn batch.schema = some time) (nonempty : batch.rows ≠ [])
    (unsorted : batch.sortRows time.index = batch)
    (ahead : firstEmit options (firstSeconds batch) ≠ 0) :
    handle batch { options := options } =
      handle batch
        { options := options, nextEmit := firstEmit options (firstSeconds batch) } := by
  rw [handle_eq found nonempty, handle_eq found nonempty, unsorted]
  simp only [started, startedIn, if_true, if_neg ahead]

/-- Where a fresh handler stands before its first batch, once its first boundary is planned. -/
theorem fresh_tracks {options : WindowOptions} {batch : RecordBatch} {rest : List RecordBatch}
    {time : TimeColumn} (every : 1 ≤ options.every) (period : 1 ≤ options.period)
    (found : timeColumn schema = some time) (stream : StreamOf schema (batch :: rest)) :
    handleAll (batch :: rest) { options := options } = handleAll (batch :: rest)
        { options := options, nextEmit := firstEmit options (firstSeconds batch) } ∧
      Tracks schema options []
        { options := options, nextEmit := firstEmit options (firstSeconds batch) } := by
  have own := stream.schemas batch List.mem_cons_self
  have some := stream.nonempty batch List.mem_cons_self
  have regroup : bufferRows (batch :: rest) = batch.rows ++ bufferRows rest := List.flatMap_cons
  have inStream : ∀ row ∈ batch.rows, row ∈ bufferRows (batch :: rest) := by
    intro row member
    rw [regroup]
    exact List.mem_append_left _ member
  have start : 0 ≤ firstSeconds batch := by
    rw [first_seconds_eq some, batchSeconds, own]
    exact seconds_nonneg (stream.nonneg _ (inStream _ (List.head_mem some)))
  have ahead : 0 < firstEmit options (firstSeconds batch) := by
    rw [first_emit_eq]
    split <;> omega
  have batchSorted : batch.rows.Pairwise fun earlier later =>
      rawTime schema earlier ≤ rawTime schema later := by
    have sorted := stream.sorted
    rw [regroup] at sorted
    exact (List.pairwise_append.mp sorted).1
  have fresh : handle batch { options := options } = handle batch
      { options := options, nextEmit := firstEmit options (firstSeconds batch) } := by
    subst own
    exact handle_fresh found some (sort_rows_of_sorted found
      (fun time found row member => stream.full time found row (inStream row member)) batchSorted)
      ahead.ne'
  refine ⟨?_, rfl, ahead, [], ⟨by simp, by simp, rfl⟩, by simp, retains_refl _ _⟩
  rw [handleAll, handleAllIn]
  simp only [bind_apply, fresh]

/-- On unbounded seconds any cut of a stream into batches gives the windows of the stream. -/
theorem handle_all_windows {options : WindowOptions} {batches : List RecordBatch}
    (period : 1 ≤ options.period) (every : 1 ≤ options.every) (stream : StreamOf schema batches) :
    ∃ outputs after, handleAll batches { options := options } = .ok outputs after ∧
      outputs.map contents =
        (expectedWindows options schema (bufferRows batches)).map fun rows => (schema, rows) := by
  obtain ⟨time, found⟩ := timed_cases stream.timed
  cases batches with
  | nil => exact ⟨[], _, rfl, rfl⟩
  | cons batch rest =>
      have own := stream.schemas batch (by simp)
      have some := stream.nonempty batch (by simp)
      obtain ⟨fresh, tracks⟩ := fresh_tracks every period found stream
      obtain ⟨outputs, after, handled, windowContents⟩ := handle_all_tracks every tracks found
        stream.schemas stream.nonempty stream.full stream.sorted
      obtain ⟨last, isLast⟩ : ∃ last, (batch :: rest).getLast? = Option.some last :=
        ⟨_, List.getLast?_eq_some_getLast (List.cons_ne_nil _ _)⟩
      have inBatches := List.mem_of_getLast? isLast
      have lastSome := stream.nonempty last inBatches
      have first : (bufferRows (batch :: rest)).head? = Option.some (batch.rows.head some) := by
        rw [bufferRows, List.flatMap_cons, List.head?_append, List.head?_eq_some_head some]
        rfl
      refine ⟨outputs, after, fresh.trans handled, ?_⟩
      rw [windowContents last isLast, List.nil_append, expectedWindows, first,
        buffer_rows_last isLast lastSome, last_seconds_eq lastSome, first_seconds_eq some]
      simp only [batchSeconds, own, stream.schemas last inBatches]

/-- The boundaries that a fresh handler plans on a stream fit 64 bits. -/
def StreamFits (options : WindowOptions) (schema : Schema) (batches : List RecordBatch) : Prop :=
  ∀ first ∈ (bufferRows batches).head?,
    PlanFits options (firstEmit options (seconds schema first)) batches

/-- Where the boundaries fit, a run is the one on unbounded seconds. -/
theorem stream_run_agrees {options : WindowOptions} {batches : List RecordBatch}
    (period : 1 ≤ options.period) (every : 1 ≤ options.every) (stream : StreamOf schema batches)
    (fits : StreamFits options schema batches) :
    handleAllIn wrap64 batches { options := options } =
      handleAll batches { options := options } := by
  obtain ⟨time, found⟩ := timed_cases stream.timed
  cases batches with
  | nil => rfl
  | cons batch rest =>
      have own := stream.schemas batch (by simp)
      have some := stream.nonempty batch (by simp)
      have inStream : ∀ row ∈ batch.rows, row ∈ bufferRows (batch :: rest) := by
        intro row member
        simp [bufferRows, member]
      have first : (bufferRows (batch :: rest)).head? = Option.some (batch.rows.head some) := by
        rw [bufferRows, List.flatMap_cons, List.head?_append, List.head?_eq_some_head some]
        rfl
      have batchSorted : batch.rows.Pairwise fun earlier later =>
          rawTime schema earlier ≤ rawTime schema later := by
        have sorted := stream.sorted
        rw [bufferRows, List.flatMap_cons] at sorted
        exact (List.pairwise_append.mp sorted).1
      have ahead : 0 < firstEmit options (seconds schema (batch.rows.head some)) := by
        have start := seconds_nonneg (stream.nonneg _ (inStream _ (List.head_mem some)))
        rw [first_emit_eq]
        split <;> omega
      refine fresh_windows_agree every (by omega) ahead
        (fun other member => by rw [stream.schemas other member]; exact stream.timed)
        stream.nonempty (fits _ first) ?_
      intro other isBatch column foundColumn
      obtain rfl : batch = other := by simpa using isBatch
      subst own
      rw [sort_rows_of_sorted foundColumn
        (fun time found row member => stream.full time found row (inStream row member))
        batchSorted, first_seconds_eq some]
      rfl

/-- Any cut of a stream into batches gives the windows of the stream, as long as the
boundaries fit 64 bits. -/
theorem handle_all_emits_expected_windows (options : WindowOptions) (schema : Schema)
    (batches : List RecordBatch) (period : 1 ≤ options.period) (every : 1 ≤ options.every)
    (stream : StreamOf schema batches) (fits : StreamFits options schema batches) :
    ∃ outputs after, handleAllIn wrap64 batches { options := options } = .ok outputs after ∧
      outputs.map contents =
        (expectedWindows options schema (bufferRows batches)).map fun rows => (schema, rows) := by
  rw [stream_run_agrees period every stream fits]
  exact handle_all_windows period every stream

end Runs

def timeSchema (group : Option RecordBatchGroup) : Schema where
  fields := [{ name := "time", type := .timestamp .second }]
  metadata := { group := group, timeColumnName := some "time" }

def timesBatch (group : Option RecordBatchGroup) (times : List Int) : RecordBatch where
  schema := timeSchema group
  rows := times.map fun time => [some (.integer time)]
  conforms := by
    intro row member
    obtain ⟨time, _, rfl⟩ := List.mem_map.mp member
    exact .cons rfl .nil

theorem times_fully_timed (group : Option RecordBatchGroup) (batches : List (List Int)) :
    FullyTimed (timeSchema group) (bufferRows (batches.map (timesBatch group))) := by
  intro time found row member
  have isTime : timeColumn (timeSchema group) = some ⟨"time", 0, .second⟩ := by
    simp [timeColumn, timeSchema, Schema.fieldIndex, Schema.fieldNames, Schema.types]
  rw [isTime, Option.some.injEq] at found
  subst found
  obtain ⟨batch, inBatches, inRows⟩ := List.mem_flatMap.mp member
  obtain ⟨times, _, rfl⟩ := List.mem_map.mp inBatches
  obtain ⟨value, _, rfl⟩ := List.mem_map.mp inRows
  exact ⟨value, rfl⟩

theorem times_stream : StreamOf (timeSchema none) ([[100, 104], [111]].map (timesBatch none)) where
  timed := by decide
  schemas := by simp [timesBatch]
  nonempty := by simp [timesBatch]
  full := times_fully_timed none [[100, 104], [111]]
  nonneg := by decide
  sorted := by decide

theorem times_fit {options : WindowOptions} (period : FitsInt64 options.period)
    (start : FitsInt64 (firstEmit options 100)) (apart : 1 ≤ options.every)
    (later : 111 + options.every < 2 ^ 63) :
    StreamFits options (timeSchema none) ([[100, 104], [111]].map (timesBatch none)) := by
  intro first isFirst
  obtain rfl : [some (.integer 100)] = first := by
    simpa [bufferRows, timesBatch] using isFirst
  exact plan_fits_of_latest period start apart (by decide) later

/-- Three rows in two batches, with windows of five seconds. -/
theorem two_batches_emit_expected_windows :
    ∃ outputs after,
      handleAllIn wrap64 ([[100, 104], [111]].map (timesBatch none)) { options := ⟨5, 5, false⟩ } =
        .ok outputs after ∧
      outputs.map contents = (expectedWindows ⟨5, 5, false⟩ (timeSchema none)
        (bufferRows ([[100, 104], [111]].map (timesBatch none)))).map
          fun rows => (timeSchema none, rows) :=
  handle_all_emits_expected_windows ⟨5, 5, false⟩ (timeSchema none) _ (by decide) (by decide)
    times_stream (times_fit (by decide) (by decide) (by decide) (by decide))

def emittedCount : EStateM.Result Fault WindowHandler (List RecordBatch) → Nat
  | .ok outputs _ => outputs.length
  | .error _ _ => 0

/-- Windows of `2 ^ 62 + 1` seconds from a first row at `2 ^ 62 + 5`: the first boundary wraps
around, and a row is emitted long before it. -/
theorem first_boundary_wraps_around :
    ¬∀ (options : WindowOptions) (schema : Schema) (batches : List RecordBatch),
      1 ≤ options.period → 1 ≤ options.every → FitsInt64 options.period →
      FitsInt64 options.every → StreamOf schema batches →
      (∀ row ∈ bufferRows batches, FitsInt64 (rawTime schema row)) →
      ∃ outputs after, handleAllIn wrap64 batches { options := options } = .ok outputs after ∧
        outputs.map contents =
          (expectedWindows options schema (bufferRows batches)).map fun rows => (schema, rows) := by
  intro claim
  obtain ⟨outputs, after, handled, expected⟩ := claim ⟨2 ^ 62 + 1, 2 ^ 62 + 1, false⟩
    (timeSchema none) ([[2 ^ 62 + 5], [2 ^ 62 + 20]].map (timesBatch none)) (by decide) (by decide)
    (by decide) (by decide) {
      timed := by decide
      schemas := by simp [timesBatch]
      nonempty := by simp [timesBatch]
      full := times_fully_timed none [[2 ^ 62 + 5], [2 ^ 62 + 20]]
      nonneg := by decide
      sorted := by decide } (by decide)
  have noWindow : (expectedWindows ⟨2 ^ 62 + 1, 2 ^ 62 + 1, false⟩ (timeSchema none)
      (bufferRows ([[2 ^ 62 + 5], [2 ^ 62 + 20]].map (timesBatch none)))).length = 0 := by
    decide +kernel
  have oneWindow : emittedCount (handleAllIn wrap64
      ([[2 ^ 62 + 5], [2 ^ 62 + 20]].map (timesBatch none))
      { options := ⟨2 ^ 62 + 1, 2 ^ 62 + 1, false⟩ }) = 1 := by
    decide +kernel
  rw [handled, emittedCount] at oneWindow
  have lengths := congrArg List.length expected
  rw [List.length_map, List.length_map, noWindow] at lengths
  omega

end StreamDataProcessor.Handlers.Window
