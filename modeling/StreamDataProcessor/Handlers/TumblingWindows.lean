import StreamDataProcessor.Handlers.WindowSpec

/-!
# Tumbling windows split their stream

When the windows are as long as they are apart, a row that is emitted is not kept, and a row
that is not emitted is still in the buffer. What was emitted and what is held are the stream.
-/

namespace StreamDataProcessor.Handlers.Window

open Foundation Foundation.Effect Foundation.HoppingWindow Foundation.TwosComplement
  Arrow Metadata Utils

set_option autoImplicit false

section Turns

variable {schema : Schema}

theorem buffer_rows_contents (batches : List RecordBatch) :
    bufferRows batches = (batches.map contents).flatMap Prod.snd := by
  rw [List.flatMap_map]
  rfl

theorem buffer_rows_append (earlier later : List RecordBatch) :
    bufferRows (earlier ++ later) = bufferRows earlier ++ bufferRows later := List.flatMap_append

/-- Between the turns of a call: what was emitted, what is held and what is still to come are
the items, and none at hand is older than the window of the next boundary. -/
structure Tumbling (schema : Schema) (start : Int) (items : List Row) (handler : WindowHandler)
    (sortedRecordBatch : RecordBatch) (result : List RecordBatch) : Prop where
  ahead : start ≤ handler.nextEmit
  apart : 1 ≤ handler.options.every
  tumbles : handler.options.period = handler.options.every
  sameSchema : sortedRecordBatch.schema = schema
  held : ∃ kept, Holding schema handler kept ∧
    (∀ row ∈ kept, seconds schema row < handler.nextEmit) ∧
    (kept ++ sortedRecordBatch.rows).Pairwise (fun earlier later =>
      seconds schema earlier ≤ seconds schema later) ∧
    (∀ row ∈ kept ++ sortedRecordBatch.rows,
      handler.nextEmit - handler.options.period ≤ seconds schema row) ∧
    bufferRows result ++ (kept ++ sortedRecordBatch.rows) = items

theorem due_turn_empties {handler : WindowHandler} {sortedRecordBatch : RecordBatch}
    {position : Nat} {keptBatches final window : List RecordBatch} {kept : List Row}
    (holding : Holding schema handler kept) (own : sortedRecordBatch.schema = schema)
    (turn : DueTurn handler sortedRecordBatch position keptBatches final window)
    (sorted : (kept ++ sortedRecordBatch.rows).Pairwise fun earlier later =>
      seconds schema earlier ≤ seconds schema later)
    (early : ∀ row ∈ kept, seconds schema row < handler.nextEmit)
    (recent : ∀ row ∈ kept ++ sortedRecordBatch.rows,
      handler.nextEmit - handler.options.period ≤ seconds schema row)
    (tumbles : handler.options.period = handler.options.every) :
    bufferRows window = kept ++ sortedRecordBatch.rows.take position ∧ bufferRows final = [] ∧
      (∀ batch ∈ final, batch.schema = schema) ∧
      ∀ row ∈ sortedRecordBatch.rows.drop position, handler.nextEmit ≤ seconds schema row := by
  have chronological : Chronological sortedRecordBatch := by
    unfold Chronological batchSeconds
    rw [own]
    exact (List.pairwise_append.mp sorted).2.1
  obtain ⟨taken, dropped⟩ := turn.cuts chronological
  simp only [batchSeconds, own] at taken dropped
  obtain ⟨dueSchemas, dueRows⟩ := (@due_buffer_holds _ _ _ position) holding own
  have inDue : ∀ row ∈ kept ++ sortedRecordBatch.rows.take position,
      row ∈ kept ++ sortedRecordBatch.rows := by
    intro row member
    rcases List.mem_append.mp member with inKept | inTaken
    · exact List.mem_append_left _ inKept
    · exact List.mem_append_right _ (List.mem_of_mem_take inTaken)
  have dueEarly : ∀ row ∈ kept ++ sortedRecordBatch.rows.take position,
      seconds schema row < handler.nextEmit := by
    intro row member
    rcases List.mem_append.mp member with inKept | inTaken
    · exact early row inKept
    · rw [taken] at inTaken
      simpa using (List.mem_filter.mp inTaken).2
  have dueSorted : (bufferRows (dueBuffer handler sortedRecordBatch position)).Pairwise
      fun earlier later => seconds schema earlier ≤ seconds schema later := by
    rw [dueRows]
    exact sorted.sublist ((List.Sublist.refl kept).append (List.take_sublist _ _))
  have keptSchemas := trimmed_schemas turn.trims dueSchemas
  have keptRows : bufferRows keptBatches = kept ++ sortedRecordBatch.rows.take position := by
    rw [trimmed_rows turn.trims dueSchemas dueSorted, dueRows, List.filter_eq_self]
    intro row member
    simpa using recent row (inDue row member)
  have finalRows : bufferRows final = [] := by
    rw [trimmed_rows turn.advances keptSchemas (by rw [keptRows, ← dueRows]; exact dueSorted),
      keptRows, List.filter_eq_nil_iff]
    intro row member
    have before := dueEarly row member
    simp only [decide_eq_true_eq]
    omega
  refine ⟨?_, finalRows, trimmed_schemas turn.advances keptSchemas, ?_⟩
  · rw [← keptRows, buffer_rows_contents, emitted_contents turn.emits keptSchemas fun batch member =>
      (turn.keptBuffered batch member).nonempty]
    by_cases empty : bufferRows keptBatches = []
    · rw [List.filter_cons_of_neg (by simpa using empty), empty]
      rfl
    · rw [List.filter_cons_of_pos (by simpa using empty)]
      exact List.append_nil _
  · intro row member
    rw [dropped] at member
    simpa using (List.mem_filter.mp member).2

theorem tumbling_turn {start : Int} {items : List Row} {handler : WindowHandler}
    {sortedRecordBatch : RecordBatch} {result : List RecordBatch} {position : Nat}
    {keptBatches final window : List RecordBatch}
    (tumbling : Tumbling schema start items handler sortedRecordBatch result)
    (turn : DueTurn handler sortedRecordBatch position keptBatches final window) :
    Tumbling schema start items
      { handler with
        bufferedRecordBatches := final
        emittedFirst := true
        nextEmit := handler.nextEmit + handler.options.every }
      (sortedRecordBatch.sliceFrom position) (result ++ window) := by
  obtain ⟨ahead, apart, tumbles, own, kept, holding, early, sorted, recent, whole⟩ := tumbling
  obtain ⟨emitted, none, schemas, later⟩ :=
    due_turn_empties holding own turn sorted early recent tumbles
  refine ⟨by dsimp only; omega, apart, tumbles, own, [], ⟨turn.finalBuffered, schemas, none⟩, by simp,
    ?_, ?_, ?_⟩
  · rw [List.nil_append, slice_from_rows]
    exact (List.pairwise_append.mp sorted).2.1.sublist (List.drop_sublist _ _)
  · intro row member
    rw [List.nil_append, slice_from_rows] at member
    have after := later row member
    dsimp only
    omega
  · rw [← whole, buffer_rows_append, emitted, List.nil_append, slice_from_rows, List.append_assoc,
      List.append_assoc, List.take_append_drop]

end Turns

section Runs

variable {schema : Schema}

/-- Between the calls: what was emitted and what is held are the stream, and what is held lies
in the window of the next boundary. -/
structure Tumbled (schema : Schema) (options : WindowOptions) (stream emitted : List Row)
    (handler : WindowHandler) : Prop where
  sameOptions : handler.options = options
  started : 0 < handler.nextEmit
  held : ∃ kept, Holding schema handler kept ∧
    (∀ row ∈ kept, handler.nextEmit - options.every ≤ seconds schema row ∧
      seconds schema row < handler.nextEmit) ∧
    emitted ++ kept = stream

theorem handle_tumbles {options : WindowOptions} {stream emitted : List Row}
    {handler : WindowHandler} {batch : RecordBatch} {time : TimeColumn}
    (tumbles : options.period = options.every) (apart : 1 ≤ options.every)
    (tumbled : Tumbled schema options stream emitted handler)
    (found : timeColumn schema = some time) (own : batch.schema = schema)
    (nonempty : batch.rows ≠ []) (full : FullyTimed schema batch.rows)
    (sorted : (stream ++ batch.rows).Pairwise fun earlier later =>
      rawTime schema earlier ≤ rawTime schema later)
    (recent : ∀ row ∈ batch.rows, handler.nextEmit - options.every ≤ seconds schema row) :
    ∃ outputs after, handle batch handler = .ok outputs after ∧
      Tumbled schema options (stream ++ batch.rows) (emitted ++ bufferRows outputs) after ∧
      after.nextEmit - options.every ≤ lastSeconds batch := by
  obtain ⟨rfl, ahead, kept, holding, within, whole⟩ := tumbled
  subst own
  subst whole
  have unsorted := sort_rows_of_sorted found full (List.pairwise_append.mp sorted).2.1
  have startedSelf : Window.started handler batch = handler := by
    rw [Window.started, startedIn, if_neg (by omega)]
  have chronological : (kept ++ batch.rows).Pairwise fun earlier later =>
      seconds batch.schema earlier ≤ seconds batch.schema later := by
    rw [List.append_assoc] at sorted
    exact (List.pairwise_append.mp sorted).2.1.imp fun le => seconds_mono le
  have running : Running time (lastSeconds batch) handler batch :=
    ⟨found, nonempty, rfl, holding.buffered⟩
  have tumbling : Tumbling batch.schema handler.nextEmit (kept ++ batch.rows) handler batch [] := by
    refine ⟨le_rfl, apart, tumbles, rfl, kept, holding, fun row member => (within row member).2,
      chronological, ?_, rfl⟩
    intro row member
    rw [tumbles]
    rcases List.mem_append.mp member with inKept | inBatch
    · exact (within row inKept).1
    · exact recent row inBatch
  obtain ⟨total, rest, after, looped, final, runs, ended, options⟩ :=
    (@emission_loop_returns _ _ (Tumbling batch.schema handler.nextEmit (kept ++ batch.rows))
      (fun _ _ _ _ _ _ _ holds _ _ turn => tumbling_turn holds turn)
      (turnBound (lastSeconds batch) handler.nextEmit)) running tumbling apart (lt_turn_bound _ _)
  obtain ⟨moved, _, afterTumbles, ownSchema, next, nextHolding, _, nextSorted, nextRecent, split⟩ :=
    final
  rw [afterTumbles, options] at nextRecent
  have clock := runs.clock
  rw [last_seconds_eq runs.nonempty, batchSeconds, ownSchema] at clock
  have reached := nextRecent _ (List.mem_append_right _ (List.getLast_mem runs.nonempty))
  rw [clock] at reached
  refine ⟨total, { after with
    bufferedRecordBatches := after.bufferedRecordBatches ++ [rest] }, ?_, ?_, reached⟩
  · rw [handle_eq found nonempty, unsorted]
    simp only [startedSelf, looped, buffer_rest_ok]
  · refine ⟨options, by dsimp only; omega, next ++ rest.rows,
      holding_push nextHolding ownSchema ⟨by rw [Timed, runs.found]; rfl, runs.nonempty⟩, ?_, ?_⟩
    · intro row member
      refine ⟨nextRecent row member, lt_of_le_of_lt ?_ ended⟩
      have lastAfter := le_last_seconds runs.nonempty (by rw [ownSchema]; exact nextSorted) row member
      rw [ownSchema, runs.clock] at lastAfter
      exact lastAfter
    · rw [List.append_assoc, split, List.append_assoc]

theorem handle_all_tumbles {options : WindowOptions} {stream emitted : List Row}
    {handler : WindowHandler} {batches : List RecordBatch} {time : TimeColumn}
    (tumbles : options.period = options.every) (apart : 1 ≤ options.every)
    (tumbled : Tumbled schema options stream emitted handler) (found : timeColumn schema = some time)
    (schemas : ∀ batch ∈ batches, batch.schema = schema)
    (nonempty : ∀ batch ∈ batches, batch.rows ≠ [])
    (full : FullyTimed schema (bufferRows batches))
    (sorted : (stream ++ bufferRows batches).Pairwise fun earlier later =>
      rawTime schema earlier ≤ rawTime schema later)
    (recent : ∀ row ∈ bufferRows batches,
      handler.nextEmit - options.every ≤ seconds schema row) :
    ∃ outputs after, handleAll batches handler = .ok outputs after ∧
      Tumbled schema options (stream ++ bufferRows batches) (emitted ++ bufferRows outputs) after := by
  induction batches generalizing stream emitted handler with
  | nil =>
      refine ⟨[], handler, rfl, ?_⟩
      rw [bufferRows, List.flatMap_nil, List.append_nil, List.append_nil]
      exact tumbled
  | cons batch rest induction =>
      have regroup : bufferRows (batch :: rest) = batch.rows ++ bufferRows rest := List.flatMap_cons
      rw [regroup] at full sorted recent ⊢
      rw [← List.append_assoc] at sorted ⊢
      have some := nonempty batch List.mem_cons_self
      have own := schemas batch List.mem_cons_self
      obtain ⟨outputs, middle, handled, nextTumbled, reached⟩ :=
        handle_tumbles tumbles apart tumbled found own some
          (fun time found row member => full time found row (List.mem_append_left _ member))
          (List.pairwise_append.mp sorted).1
          fun row member => recent row (List.mem_append_left _ member)
      have later : ∀ row ∈ bufferRows rest,
          middle.nextEmit - options.every ≤ seconds schema row := by
        intro row member
        refine Int.le_trans reached ?_
        rw [last_seconds_eq some, batchSeconds, own]
        exact seconds_mono ((List.pairwise_append.mp sorted).2.2 _
          (List.mem_append_right _ (List.getLast_mem some)) row member)
      obtain ⟨others, after, handledRest, final⟩ := induction nextTumbled
        (fun other member => schemas other (List.mem_cons_of_mem _ member))
        (fun other member => nonempty other (List.mem_cons_of_mem _ member))
        (fun time found row member => full time found row (List.mem_append_right _ member))
        sorted later
      refine ⟨outputs ++ others, after, ?_, ?_⟩
      · simp only [handleAll, handleAllIn, bind_of_ok handled, bind_of_ok handledRest, pure_apply]
      · rw [buffer_rows_append, ← List.append_assoc]
        exact final

end Runs

end StreamDataProcessor.Handlers.Window
