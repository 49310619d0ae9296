import StreamDataProcessor.Kapacitor.RecordBatchRequestHandler

/-!
# Storages seen through a view

A storage does the same over the state of its handler as over a view of that state, where the
handler does, and after other events as before them.
-/

namespace StreamDataProcessor.Kapacitor

open Foundation.Effect Arrow Utils.Uvarint

set_option autoImplicit false

variable {State View : Type}

/-- The contents with the state of the handler seen through a view, after other events. -/
def Contents.seen (view : State → View) (earlier : List Event) (contents : Contents State) :
    Contents View where
  handler := view contents.handler
  points := contents.points
  events := earlier ++ contents.events

/-- A handler that does on a state what another does on a view of it. -/
def HandlesOver (view : State → View) (handler : RecordBatchHandler State)
    (plain : RecordBatchHandler View) : Prop :=
  ∀ recordBatches, Over view (handler.handle recordBatches) (plain.handle recordBatches)

theorem handlers_over_id (handler : Option (RecordBatchHandler State)) :
    Option.Rel (HandlesOver id) handler handler := by
  cases handler with
  | none => exact .none
  | some handler => exact .some fun recordBatches => over_id (handler.handle recordBatches)

namespace PointsStorage

def withHandler (storage : PointsStorage State) (handler : Option (RecordBatchHandler View)) :
    PointsStorage View :=
  { storage with handler }

variable (view : State → View) (earlier : List Event)

abbrev Sees {Value : Type} (action : EStateM Fault (Contents State) Value)
    (plain : EStateM Fault (Contents View) Value) : Prop :=
  Over (Contents.seen view earlier) action plain

theorem note_sees (event : Event) : Sees view earlier (note event) (note event) := by
  intro contents
  simp only [note_apply, projectResult, Contents.seen, List.append_assoc]

theorem add_point_sees (point : Point) :
    Sees view earlier (addPoint point) (addPoint point) := fun _ => rfl

theorem clear_sees : Sees view earlier clear clear := fun _ => rfl

theorem write_responses_sees (responses : List Response) :
    Sees view earlier (responses.forM writeResponse) (responses.forM writeResponse) := by
  intro contents
  simp only [write_responses_apply, projectResult, Contents.seen, List.append_assoc]

theorem call_converter_sees (pointsConverter : Converter) (points : List Point) :
    Sees view earlier (callConverter pointsConverter points)
      (callConverter pointsConverter points) := by
  intro contents
  unfold callConverter
  cases pointsConverter.convertToRecordBatches points <;>
    simp only [projectResult, Contents.seen, List.append_assoc]

theorem restore_sees (codec : PointsCodec) (data : Bytes) :
    Sees view earlier (restore codec data) (restore codec data) := fun _ => rfl

variable {view}

theorem call_handler_sees {handler : RecordBatchHandler State} {plain : RecordBatchHandler View}
    (same : HandlesOver view handler plain) (recordBatches : List RecordBatch) :
    Sees view earlier (callHandler handler recordBatches) (callHandler plain recordBatches) := by
  intro contents
  have called := same recordBatches contents.handler
  change projectResult _ (callHandler handler recordBatches contents) =
    callHandler plain recordBatches (contents.seen view earlier)
  unfold callHandler
  have seen : (contents.seen view earlier).handler = view contents.handler := rfl
  rw [seen, ← called]
  cases handler.handle recordBatches contents.handler <;>
    simp only [projectResult, Contents.seen, List.append_assoc]

variable (view)

theorem write_results_sees (storage : PointsStorage State)
    (plain : Option (RecordBatchHandler View)) (pointsConverter : Converter)
    (resultBatches : List RecordBatch) :
    Sees view earlier (storage.writeResults pointsConverter resultBatches)
      ((storage.withHandler plain).writeResults pointsConverter resultBatches) := by
  induction resultBatches with
  | nil => exact over_pure _
  | cons resultBatch rest induction =>
      apply over_bind (over_of_except _)
      intro responses
      apply over_bind (write_responses_sees view earlier responses)
      intro _
      exact induction

theorem refuse_sees (error : String) : Sees view earlier (refuse error) (refuse error) := by
  apply over_bind (note_sees view earlier _)
  intro _
  exact over_throw _

variable {view}

theorem handle_batch_sees {storage : PointsStorage State}
    {plain : Option (RecordBatchHandler View)}
    (same : Option.Rel (HandlesOver view) storage.handler plain) :
    Sees view earlier storage.handleBatch (storage.withHandler plain).handleBatch := by
  obtain ⟨pointsConverter, handler, providesBatch, renderScalar⟩ := storage
  cases pointsConverter with
  | none => exact refuse_sees view earlier _
  | some pointsConverter =>
      cases same with
      | none => exact refuse_sees view earlier _
      | some same =>
          intro contents
          simp only [handleBatch, withHandler]
          rw [bind_of_ok (get_apply _), bind_of_ok (get_apply _)]
          have points : (contents.seen view earlier).points = contents.points := rfl
          rw [points]
          split
          · rfl
          · apply over_bind (call_converter_sees view earlier pointsConverter _)
            intro recordBatches
            apply over_bind (call_handler_sees earlier same recordBatches)
            intro resultBatches
            exact write_results_sees view earlier _ _ pointsConverter resultBatches

theorem handle_batch_logged_sees {storage : PointsStorage State}
    {plain : Option (RecordBatchHandler View)}
    (same : Option.Rel (HandlesOver view) storage.handler plain) :
    Sees view earlier storage.handleBatchLogged (storage.withHandler plain).handleBatchLogged := by
  intro contents
  have handled := handle_batch_sees earlier same contents
  unfold handleBatchLogged
  rw [← handled]
  cases storage.handleBatch contents with
  | ok value after => rfl
  | error fault after => cases fault <;> rfl

end PointsStorage

end StreamDataProcessor.Kapacitor
