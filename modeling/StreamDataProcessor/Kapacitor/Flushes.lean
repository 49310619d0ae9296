import StreamDataProcessor.Kapacitor.Resumption
import StreamDataProcessor.Kapacitor.StreamUdfs

/-!
# What a flush does

A flush of a stream UDF as a function of the points that wait and of the state of the handler:
the responses, the state that is left, and the fault that ended it. Of an exception nothing is
left; a status is logged.
-/

namespace StreamDataProcessor.Kapacitor

open Foundation Foundation.Effect Arrow Metadata Handlers

set_option autoImplicit false

variable {State : Type}

namespace PointsStorage

variable (storage : PointsStorage State) (pointsConverter : Converter)

def responsesOf : List RecordBatch → List Response × Option Fault
  | [] => ([], none)
  | resultBatch :: rest =>
      match storage.resultResponses pointsConverter resultBatch with
      | .error fault => ([], some fault)
      | .ok responses => (responses ++ (responsesOf rest).1, (responsesOf rest).2)

/-- An action that has written the responses, and then ended with a fault or not. -/
def written (contents : Contents State) (outcome : List Response × Option Fault) :
    EStateM.Result Fault (Contents State) Unit :=
  let after := { contents with events := contents.events ++ outcome.1.map .writes }
  match outcome.2 with
  | none => .ok () after
  | some fault => .error fault after

theorem write_results_apply (resultBatches : List RecordBatch) (contents : Contents State) :
    storage.writeResults pointsConverter resultBatches contents =
      written contents (storage.responsesOf pointsConverter resultBatches) := by
  induction resultBatches generalizing contents with
  | nil => simp [writeResults, responsesOf, written]
  | cons resultBatch rest induction =>
      simp only [writeResults, responsesOf]
      cases answered : storage.resultResponses pointsConverter resultBatch with
      | error fault =>
          rw [bind_of_error (of_except_error _ _)]
          simp [written]
      | ok responses =>
          rw [bind_of_ok (of_except_ok _ _), bind_of_ok (write_responses_apply _ _), induction]
          simp only [written, List.map_append, List.append_assoc]

theorem responses_of_append {earlier later : List RecordBatch} {responses : List Response}
    (whole : storage.responsesOf pointsConverter earlier = (responses, none)) :
    storage.responsesOf pointsConverter (earlier ++ later) =
      (responses ++ (storage.responsesOf pointsConverter later).1,
        (storage.responsesOf pointsConverter later).2) := by
  induction earlier generalizing responses with
  | nil =>
      cases whole
      rfl
  | cons resultBatch rest induction =>
      rw [List.cons_append, responsesOf]
      rw [responsesOf] at whole
      cases answered : storage.resultResponses pointsConverter resultBatch with
      | error fault =>
          rw [answered] at whole
          cases whole
      | ok own =>
          rw [answered] at whole
          obtain ⟨isAll, noFault⟩ := Prod.mk.inj whole
          have others := induction (Prod.ext rfl noFault)
          simp only [others, ← isAll, List.append_assoc]

theorem responses_of_flatten {Key : Type} {responses : Key → List Response} {keys : List Key}
    {parts : List (List RecordBatch)}
    (each : List.Forall₂ (fun key part =>
      storage.responsesOf pointsConverter part = (responses key, none)) keys parts) :
    storage.responsesOf pointsConverter parts.flatten = (keys.flatMap responses, none) := by
  induction each with
  | nil => rfl
  | cons head _ induction =>
      rw [List.flatten_cons, storage.responses_of_append pointsConverter head, induction,
        List.flatMap_cons]

end PointsStorage

structure Flushed (State : Type) where
  responses : List Response
  handler : State
  fault : Option Fault

def Flushed.escaping (flushed : Flushed State) : Option Fault :=
  flushed.fault.filter fun
    | .status _ => false
    | _ => true

namespace StreamUdf

variable (udf : StreamUdf State) (renderScalar : DataType → Value → String) (codec : PointsCodec)

/-- What is left of a flush after the handler has been called. -/
def flushedBy : EStateM.Result Fault State (List RecordBatch) → Flushed State
  | .error fault after => ⟨[], after, some fault⟩
  | .ok resultBatches after =>
      let outcome := (udf.storage renderScalar).responsesOf udf.pointsConverter resultBatches
      ⟨outcome.1, after, outcome.2⟩

def flushed (points : List Point) (handler : State) : Flushed State :=
  if points = [] then ⟨[], handler, none⟩
  else match udf.pointsConverter.convertToRecordBatches points with
    | .error fault => ⟨[], handler, some fault⟩
    | .ok recordBatches => udf.flushedBy renderScalar (udf.handler recordBatches handler)

def flush (points : List Point) : EStateM Fault (Contents State) Unit := do
  points.forM PointsStorage.addPoint
  (udf.requestHandler renderScalar codec).handleBatch

theorem add_points_apply (points : List Point) (contents : Contents State) :
    points.forM PointsStorage.addPoint contents =
      .ok () { contents with points := contents.points ++ points } := by
  induction points generalizing contents with
  | nil => simp
  | cons point rest induction =>
      change (PointsStorage.addPoint point >>= fun _ => rest.forM PointsStorage.addPoint) contents
        = _
      have added : PointsStorage.addPoint point contents =
          .ok () { contents with points := contents.points ++ [point] } := rfl
      rw [bind_of_ok added, induction, List.append_assoc]
      rfl

theorem flush_apply (points : List Point) (contents : Contents State) :
    udf.flush renderScalar codec points contents =
      (udf.requestHandler renderScalar codec).handleBatch
        { contents with points := contents.points ++ points } := by
  rw [flush, bind_of_ok (add_points_apply points contents)]

/-- With a timer, a flush is the requests of its points and then the one of the timer. -/
theorem timer_requests_flush (waits : udf.handlesPoints = false) (points : List Point) :
    udf.handleRequests renderScalar codec (points.map .point ++ [.flush]) =
      udf.flush renderScalar codec points := by
  have ends : ∀ contents, udf.handleRequests renderScalar codec [.flush] contents =
      (udf.requestHandler renderScalar codec).handleBatch contents := by
    intro contents
    change ((udf.requestHandler renderScalar codec).handleBatch >>= fun _ => pure ()) contents = _
    exact congrFun (bind_pure _) contents
  funext contents
  rw [flush_apply]
  induction points generalizing contents with
  | nil => rw [List.append_nil]; exact ends contents
  | cons point rest induction =>
      have arrives : udf.handleRequest renderScalar codec (.point point) contents =
          .ok () { contents with points := contents.points ++ [point] } := by
        simp only [handleRequest, waits]
        rfl
      change (udf.handleRequest renderScalar codec (.point point) >>= fun _ =>
        udf.handleRequests renderScalar codec (rest.map .point ++ [.flush])) contents = _
      rw [bind_of_ok arrives, induction]
      simp only [List.append_assoc, List.singleton_append]

/-- Without one, every point is a flush. -/
theorem point_request_flushes (handles : udf.handlesPoints = true) (point : Point) :
    udf.handleRequest renderScalar codec (.point point) =
      udf.flush renderScalar codec [point] := by
  funext contents
  rw [flush_apply]
  simp only [handleRequest, handles]
  rfl

section Cases

variable {points : List Point} {fault : Fault} {recordBatches : List RecordBatch}

theorem flushed_none (handler : State) : udf.flushed renderScalar [] handler = ⟨[], handler, none⟩ :=
  if_pos rfl

theorem flushed_unconverted (points_some : points ≠ [])
    (failed : udf.pointsConverter.convertToRecordBatches points = .error fault) (handler : State) :
    udf.flushed renderScalar points handler = ⟨[], handler, some fault⟩ := by
  rw [flushed, if_neg points_some, failed]

theorem flushed_converted (points_some : points ≠ [])
    (converted : udf.pointsConverter.convertToRecordBatches points = .ok recordBatches)
    (handler : State) :
    udf.flushed renderScalar points handler =
      udf.flushedBy renderScalar (udf.handler recordBatches handler) := by
  rw [flushed, if_neg points_some, converted]

end Cases

/-- The result of an action that flushes, logged or not, after it has written the events. -/
def ended (escaping : Option Fault) (after : Contents State) :
    EStateM.Result Fault (Contents State) Unit :=
  match escaping with
  | none => .ok () after
  | some fault => .error fault after

def flushedContents (flushed : Flushed State) (contents : Contents State) (events : List Event) :
    Contents State :=
  { contents with handler := flushed.handler, events := contents.events ++ events }

theorem storage_handles (contents : Contents State) :
    ∃ events, events.filterMap Event.response? =
        (udf.flushed renderScalar contents.points contents.handler).responses ∧
      (udf.storage renderScalar).handleBatch contents =
        ended (udf.flushed renderScalar contents.points contents.handler).fault
          (flushedContents (udf.flushed renderScalar contents.points contents.handler) contents
            events) := by
  simp only [PointsStorage.handleBatch, storage, bind_of_ok (get_apply _)]
  by_cases empty : contents.points = []
  · rw [if_pos empty, empty, flushed_none]
    exact ⟨[], rfl, by simp [ended, flushedContents]⟩
  · rw [if_neg empty]
    cases converted : udf.pointsConverter.convertToRecordBatches contents.points with
    | error fault =>
        rw [udf.flushed_unconverted renderScalar empty converted,
          bind_of_error (PointsStorage.call_converter_error converted contents)]
        exact ⟨[.converts contents.points], rfl, rfl⟩
    | ok recordBatches =>
        rw [bind_of_ok (PointsStorage.call_converter_ok converted contents),
          udf.flushed_converted renderScalar empty converted]
        cases handled : udf.handler recordBatches contents.handler with
        | error fault after =>
            refine ⟨[.converts contents.points, .handles recordBatches], rfl, ?_⟩
            rw [bind_apply]
            simp only [PointsStorage.callHandler, handled, List.append_assoc]
            rfl
        | ok resultBatches after =>
            refine ⟨[.converts contents.points, .handles recordBatches] ++
              ((udf.storage renderScalar).responsesOf udf.pointsConverter resultBatches).1.map
                .writes, ?_, ?_⟩
            · rw [List.filterMap_append, List.filterMap_map]
              exact List.filterMap_some
            · rw [bind_apply]
              simp only [PointsStorage.callHandler, handled, PointsStorage.write_results_apply]
              simp only [PointsStorage.written, ended, flushedContents, List.append_assoc]
              rfl

/-- A flush ends with the fault that escapes it, or has cleared the points. -/
theorem handle_batch_flushed (contents : Contents State) :
    ∃ events, events.filterMap Event.response? =
        (udf.flushed renderScalar contents.points contents.handler).responses ∧
      (udf.requestHandler renderScalar codec).handleBatch contents =
        let flushed := udf.flushed renderScalar contents.points contents.handler
        match flushed.escaping with
        | none => .ok () { flushedContents flushed contents events with points := [] }
        | some fault => .error fault (flushedContents flushed contents events) := by
  obtain ⟨events, written, handled⟩ := udf.storage_handles renderScalar contents
  refine ⟨events, written, ?_⟩
  change ((udf.storage renderScalar).handleBatchLogged >>= fun _ => PointsStorage.clear) contents = _
  rw [bind_apply]
  simp only [PointsStorage.handleBatchLogged, handled, Flushed.escaping]
  cases (udf.flushed renderScalar contents.points contents.handler).fault with
  | none => rfl
  | some fault =>
      cases fault with
      | status status => rfl
      | exception what => rfl
      | undefined what => rfl
      | diverges => rfl

/-- A turn of a run. A fault that escapes ends the process, and nothing answers any more. -/
def turn (contents : Option (Contents State)) (points : List Point) :
    Option (Contents State) × List Response :=
  match contents with
  | none => (none, [])
  | some contents =>
      let result := udf.flush renderScalar codec points contents
      (match result with
        | .ok _ after => some after
        | .error _ _ => none, (responsesFrom id contents result).1)

/-- A turn in which no points wait answers with the responses of the flush, and leaves the
state of its handler where nothing escapes. -/
theorem turn_flushed {contents : Contents State} (waiting : contents.points = [])
    (points : List Point) :
    let flushed := udf.flushed renderScalar points contents.handler
    (udf.turn renderScalar codec (some contents) points).2 = flushed.responses ∧
      match flushed.escaping with
      | none => ∃ after, (udf.turn renderScalar codec (some contents) points).1 = some after ∧
          after.points = [] ∧ after.handler = flushed.handler
      | some _ => (udf.turn renderScalar codec (some contents) points).1 = none := by
  obtain ⟨events, written, handled⟩ := udf.handle_batch_flushed renderScalar codec
    { contents with points := contents.points ++ points }
  simp only [waiting, List.nil_append] at written handled
  have result := udf.flush_apply renderScalar codec points contents
  simp only [waiting, List.nil_append] at result
  rw [handled] at result
  have drops : ∀ after : Contents State, after.events = contents.events ++ events →
      after.written.drop contents.written.length =
        (udf.flushed renderScalar points contents.handler).responses := by
    intro after isAfter
    rw [Contents.written, Contents.written, isAfter, List.filterMap_append, List.drop_left, written]
  dsimp only [turn]
  rw [result]
  cases (udf.flushed renderScalar points contents.handler).escaping with
  | none => exact ⟨drops _ rfl, _, rfl, rfl, rfl⟩
  | some fault => exact ⟨drops _ rfl, rfl⟩

end StreamUdf

end StreamDataProcessor.Kapacitor
