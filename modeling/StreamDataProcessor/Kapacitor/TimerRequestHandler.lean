import StreamDataProcessor.Kapacitor.AgentAnswers
import StreamDataProcessor.Kapacitor.BatchProtocol

/-!
# A stream handler whose points wait for a timer

`StreamRequestHandler` of `stream_request_handler.cpp` over
`TimerRecordBatchRequestHandlerBase`. A point starts the timer where it does not run, the
timer hands what waits to the storage, and so does the end of the agent.
-/

namespace StreamDataProcessor.Kapacitor.TimerRequestHandler

open Foundation.Effect Foundation.Machine Arrow Utils.Uvarint RequestReader UdfAgent

set_option autoImplicit false

variable {State : Type}

structure TimerState (State : Type) where
  contents : Contents State
  active : Bool := false

/-- The members that do not change; a timer with no repeat value fires once. -/
structure Timer (State : Type) where
  base : StreamRequestHandler State
  repeats : Bool

def writtenSince (before after : Contents State) : List AgentResponse :=
  ((after.events.drop before.events.length).filterMap Event.response?).map .response

def onContents {Value : Type} (state : TimerState State)
    (result : EStateM.Result Fault (Contents State) Value) : Left (TimerState State) Value :=
  match result with
  | .ok value after =>
      { state := { state with contents := after }
        written := writtenSince state.contents after, outcome := .ok value }
  | .error fault after =>
      { state := { state with contents := after }
        written := writtenSince state.contents after, outcome := .error fault }

def returnResponse (left : Left (TimerState State) Response) :
    Left (TimerState State) AgentResponse :=
  ⟨left.state, left.written, left.outcome.map .response⟩

namespace Timer

variable (timer : Timer State)

def info (state : TimerState State) : Left (TimerState State) AgentResponse :=
  match timer.base.pointsStorage with
  | none => ⟨state, [], .error (.undefined "a null storage is dereferenced")⟩
  | some storage =>
      let provides := if storage.providesBatch then EdgeType.batch else .stream
      ⟨state, [], .ok (.info { wants := .stream, provides })⟩

def point (point : Point) (state : TimerState State) : Left (TimerState State) Unit :=
  let left := onContents state (timer.base.point point state.contents)
  match timer.base.pointsStorage with
  | none => left
  | some _ => { left with state := { left.state with active := true } }

/-- A `TimerEvent`; only a timer that is active has one. -/
def tick (state : TimerState State) : Left (TimerState State) Unit :=
  if state.active then
    onContents { state with active := timer.repeats } (timer.base.handleBatch state.contents)
  else ⟨state, [], .ok ()⟩

/-- `TimerRecordBatchRequestHandlerBase::stop`; an exception leaves the timer running. -/
def stop (state : TimerState State) : Left (TimerState State) Unit :=
  match timer.base.pointsStorage with
  | none => ⟨{ state with active := false }, [], .ok ()⟩
  | some _ =>
      let left := onContents state (timer.base.handleBatch state.contents)
      match left.outcome with
      | .ok _ => { left with state := { left.state with active := false } }
      | .error _ => left

def requestHandler : RequestHandler (TimerState State) where
  info := timer.info
  init _ state := ⟨state, [], .ok (.init true "")⟩
  snapshot state := returnResponse (onContents state (timer.base.snapshot state.contents))
  restore snapshot state :=
    returnResponse (onContents state (timer.base.restore snapshot state.contents))
  beginBatch _ state :=
    ⟨state, [.response (.error "Invalid BeginBatch request, UDF wants stream data")], .ok ()⟩
  point := timer.point
  endBatch _ state :=
    ⟨state, [.response (.error "Invalid EndBatch request, UDF wants stream data")], .ok ()⟩
  tick := timer.tick
  stop := timer.stop

end Timer

section Writes

/-- Only events were added, none of which answers a request. -/
def AddsNoAnswer (before after : Contents State) : Prop :=
  ∃ added, after.events = before.events ++ added ∧
    ∀ event ∈ added, event.response?.bind responseKind? = none

theorem adds_refl (contents : Contents State) : AddsNoAnswer contents contents :=
  ⟨[], (List.append_nil _).symm, by simp⟩

theorem AddsNoAnswer.trans {first second third : Contents State}
    (early : AddsNoAnswer first second) (late : AddsNoAnswer second third) :
    AddsNoAnswer first third := by
  obtain ⟨added, own, none⟩ := early
  obtain ⟨later, others, noneLater⟩ := late
  refine ⟨added ++ later, by rw [others, own, List.append_assoc], ?_⟩
  intro event member
  rcases List.mem_append.mp member with member | member
  · exact none event member
  · exact noneLater event member

theorem adds_event (event : Event) (noAnswer : event.response?.bind responseKind? = none)
    (contents : Contents State) :
    AddsNoAnswer contents { contents with events := contents.events ++ [event] } := by
  refine ⟨[event], rfl, ?_⟩
  intro other member
  rw [List.mem_singleton.mp member]
  exact noAnswer

theorem written_since_adds {before after : Contents State} (adds : AddsNoAnswer before after) :
    answeredKinds (writtenSince before after) = [] := by
  obtain ⟨added, own, none⟩ := adds
  unfold writtenSince answeredKinds
  rw [own, List.drop_left, List.filterMap_map, List.filterMap_filterMap,
    List.filterMap_eq_nil_iff]
  exact none

variable (storage : PointsStorage State)

theorem result_responses_kind {pointsConverter : Converter} {resultBatch : RecordBatch}
    {responses : List Response}
    (returned : storage.resultResponses pointsConverter resultBatch = .ok responses) :
    ∀ response ∈ responses, responseKind? response = none := by
  have points (responsePoints : List Point) :
      ∀ response ∈ responsePoints.map Response.point, responseKind? response = none := by
    intro response member
    obtain ⟨point, _, rfl⟩ := List.mem_map.mp member
    rfl
  unfold PointsStorage.resultResponses at returned
  obtain ⟨responsePoints, _, returned⟩ := except_bind_ok_cases returned
  split at returned
  · obtain ⟨brackets, _, returned⟩ := except_bind_ok_cases returned
    cases brackets with
    | none =>
        cases returned
        simp
    | some pair =>
        cases returned
        intro response member
        rcases List.mem_cons.mp member with rfl | member
        · rfl
        · rcases List.mem_append.mp member with member | member
          · exact points responsePoints response member
          · rw [List.mem_singleton.mp member]
            rfl
  · cases returned
    exact points responsePoints

theorem write_results_adds (pointsConverter : Converter) (resultBatches : List RecordBatch)
    (contents : Contents State) :
    Ends (fun _ => AddsNoAnswer contents) (fun _ => AddsNoAnswer contents)
      (storage.writeResults pointsConverter resultBatches contents) := by
  induction resultBatches generalizing contents with
  | nil => exact adds_refl contents
  | cons resultBatch rest induction =>
      rw [PointsStorage.writeResults]
      cases answered : storage.resultResponses pointsConverter resultBatch with
      | error fault =>
          rw [bind_of_error (of_except_error _ _)]
          exact adds_refl contents
      | ok responses =>
          rw [bind_of_ok (of_except_ok _ _),
            bind_of_ok (PointsStorage.write_responses_apply responses contents)]
          have written : AddsNoAnswer contents
              { contents with events := contents.events ++ responses.map .writes } := by
            refine ⟨_, rfl, ?_⟩
            intro event member
            obtain ⟨response, own, rfl⟩ := List.mem_map.mp member
            exact result_responses_kind storage answered response own
          exact ends_mono (induction _) (fun _ _ => written.trans) fun _ _ => written.trans

theorem handle_batch_adds (contents : Contents State) :
    Ends (fun _ => AddsNoAnswer contents) (fun _ => AddsNoAnswer contents)
      (storage.handleBatch contents) := by
  obtain ⟨pointsConverter, handler, providesBatch, renderScalar⟩ := storage
  cases pointsConverter with
  | none => exact adds_event _ rfl contents
  | some pointsConverter =>
      cases handler with
      | none => exact adds_event _ rfl contents
      | some handler =>
          simp only [PointsStorage.handleBatch]
          rw [bind_of_ok (get_apply contents)]
          split
          · exact adds_refl contents
          · have converts := adds_event (.converts contents.points) rfl contents
            cases converted : pointsConverter.convertToRecordBatches contents.points with
            | error fault =>
                rw [bind_of_error (PointsStorage.call_converter_error converted contents)]
                exact converts
            | ok recordBatches =>
                rw [bind_of_ok (PointsStorage.call_converter_ok converted contents)]
                have handles := converts.trans (adds_event (.handles recordBatches) rfl _)
                have called : Ends (fun _ => AddsNoAnswer contents)
                    (fun _ => AddsNoAnswer contents)
                    (PointsStorage.callHandler handler recordBatches { contents with
                      events := contents.events ++ [.converts contents.points] }) := by
                  unfold PointsStorage.callHandler
                  dsimp only
                  split <;> exact handles
                apply ends_bind called
                intro resultBatches after called
                exact ends_mono (write_results_adds _ pointsConverter resultBatches after)
                  (fun _ _ => called.trans) fun _ _ => called.trans

theorem stream_handle_batch_adds (base : StreamRequestHandler State) (contents : Contents State) :
    Ends (fun _ => AddsNoAnswer contents) (fun _ => AddsNoAnswer contents)
      (base.handleBatch contents) := by
  unfold StreamRequestHandler.handleBatch
  cases base.pointsStorage with
  | none => exact adds_event _ rfl contents
  | some storage =>
      have handled := handle_batch_adds storage contents
      dsimp only
      rw [bind_apply]
      unfold PointsStorage.handleBatchLogged
      cases outcome : storage.handleBatch contents with
      | ok value after =>
          rw [outcome] at handled
          exact handled
      | error fault after =>
          rw [outcome] at handled
          cases fault <;> exact handled

theorem on_contents_adds {Value : Type} {state : TimerState State}
    {result : EStateM.Result Fault (Contents State) Value}
    (adds : Ends (fun _ => AddsNoAnswer state.contents) (fun _ => AddsNoAnswer state.contents)
      result) : answeredKinds (onContents state result).written = [] := by
  cases result with
  | ok value after => exact written_since_adds adds
  | error fault after => exact written_since_adds adds

/-- The handler leaves the answers to what its methods return. -/
theorem request_handler_behaves (timer : Timer State) : WellBehaved timer.requestHandler where
  info state := by
    change Returns _ (timer.info state)
    unfold Timer.info
    split
    · exact ⟨rfl, fun _ returned => by cases returned⟩
    · exact ⟨rfl, fun _ returned => by cases returned; rfl⟩
  init options state := ⟨rfl, fun _ returned => by cases returned; rfl⟩
  snapshot state := by
    change Returns _ (returnResponse (onContents state (timer.base.snapshot state.contents)))
    unfold StreamRequestHandler.snapshot
    cases timer.base.pointsStorage with
    | none =>
        refine ⟨written_since_adds (adds_event _ rfl state.contents), ?_⟩
        intro response returned
        cases returned
        rfl
    | some storage =>
        refine ⟨written_since_adds (adds_refl state.contents), ?_⟩
        intro response returned
        cases returned
        rfl
  restore snapshot state := by
    change Returns _ (returnResponse (onContents state (timer.base.restore snapshot state.contents)))
    unfold StreamRequestHandler.restore
    cases timer.base.pointsStorage with
    | none =>
        refine ⟨written_since_adds (adds_refl state.contents), ?_⟩
        intro response returned
        cases returned
        rfl
    | some storage =>
        dsimp only
        rw [bind_of_ok (PointsStorage.restore_apply _ _ _)]
        refine ⟨written_since_adds (adds_refl state.contents), ?_⟩
        intro response returned
        cases returned
        split <;> rfl
  beginBatch batch state := rfl
  endBatch batch state := rfl
  point point state := by
    change answeredKinds (timer.point point state).written = []
    unfold Timer.point StreamRequestHandler.point
    cases timer.base.pointsStorage with
    | none => exact written_since_adds (adds_event _ rfl state.contents)
    | some storage => exact written_since_adds (adds_refl state.contents)
  tick state := by
    change answeredKinds (timer.tick state).written = []
    unfold Timer.tick
    split
    · exact on_contents_adds (stream_handle_batch_adds timer.base state.contents)
    · rfl
  stop state := by
    change answeredKinds (timer.stop state).written = []
    unfold Timer.stop
    split
    · rfl
    · have handled := on_contents_adds (stream_handle_batch_adds timer.base state.contents)
      dsimp only
      split <;> exact handled

end Writes

end StreamDataProcessor.Kapacitor.TimerRequestHandler
