import StreamDataProcessor.Kapacitor.RecordBatchRequestHandler
import Mathlib.Data.List.Induction
import Mathlib.Data.List.TakeWhile

/-!
# Each point of a batch is handled once

What a batch handler holds depends on the requests since the last EndBatch alone,
whatever its converter and its handler answer, and the state of the handler is what the
conversions of all the batches so far make of it.
-/

namespace StreamDataProcessor.Kapacitor

open Foundation.Effect Arrow

set_option autoImplicit false

variable {State : Type}

inductive DataRequest where
  | beginBatch
  | point (point : Point)
  | endBatch (name : String)

namespace DataRequest

def request : DataRequest → BatchRequest
  | .beginBatch => .beginBatch
  | .point arrival => .point arrival
  | .endBatch name => .endBatch name

def isBegin : DataRequest → Bool
  | .beginBatch => true
  | _ => false

def isEnd : DataRequest → Bool
  | .endBatch _ => true
  | _ => false

def point? : DataRequest → Option Point
  | .point arrival => some arrival
  | _ => none

end DataRequest

def sinceLastEnd (requests : List DataRequest) : List DataRequest :=
  (requests.reverse.takeWhile fun request => !request.isEnd).reverse

def inBatch (requests : List DataRequest) : Bool := (sinceLastEnd requests).any DataRequest.isBegin

def arrived (requests : List DataRequest) : List Point :=
  ((sinceLastEnd requests).dropWhile fun request => !request.isBegin).filterMap DataRequest.point?

def renamed (name : String) (points : List Point) : List Point :=
  points.map fun point => { point with name }

/-- What a request has converted after the earlier ones. -/
def conversion (earlier : List DataRequest) : DataRequest → List (List Point)
  | .endBatch name => if arrived earlier = [] then [] else [renamed name (arrived earlier)]
  | _ => []

def conversions (requests : List DataRequest) : List (List Point) :=
  requests.zipIdx.flatMap fun (request, position) =>
    conversion (requests.take position) request

def convertedIn (events : List Event) : List (List Point) := events.filterMap Event.converted?

def handledIn (events : List Event) : List (List RecordBatch) := events.filterMap Event.handled?

def Converter.batches (pointsConverter : Converter) (points : List Point) :
    Option (List RecordBatch) :=
  (pointsConverter.convertToRecordBatches points).toOption

/-- The state in which batches leave a handler, whatever it answers. -/
def RecordBatchHandler.after (handler : RecordBatchHandler State) (state : State)
    (recordBatches : List RecordBatch) : State :=
  match handler.handle recordBatches state with
  | .ok _ after => after
  | .error _ after => after

/-- The converter has been given the points of the conversions, and the handler, from its
initial state, the batches they became. -/
structure Handed (pointsConverter : Converter) (recordBatchHandler : RecordBatchHandler State)
    (initial : State) (conversions : List (List Point)) (contents : Contents State) : Prop where
  converted : convertedIn contents.events = conversions
  handled : handledIn contents.events = conversions.filterMap pointsConverter.batches
  handler : contents.handler =
    (conversions.filterMap pointsConverter.batches).foldl recordBatchHandler.after initial

section Requests

variable (requests : List DataRequest)

theorem since_last_end_snoc_end (name : String) :
    sinceLastEnd (requests ++ [.endBatch name]) = [] := by
  simp [sinceLastEnd, DataRequest.isEnd]

theorem since_last_end_snoc (request : DataRequest) (goesOn : request.isEnd = false) :
    sinceLastEnd (requests ++ [request]) = sinceLastEnd requests ++ [request] := by
  simp [sinceLastEnd, goesOn]

theorem in_batch_snoc_end (name : String) : inBatch (requests ++ [.endBatch name]) = false := by
  simp [inBatch, since_last_end_snoc_end]

theorem in_batch_snoc_begin : inBatch (requests ++ [.beginBatch]) = true := by
  simp [inBatch, since_last_end_snoc requests .beginBatch rfl, DataRequest.isBegin]

theorem in_batch_snoc_point (point : Point) :
    inBatch (requests ++ [.point point]) = inBatch requests := by
  simp [inBatch, since_last_end_snoc requests (.point point) rfl, DataRequest.isBegin]

theorem arrived_snoc_end (name : String) : arrived (requests ++ [.endBatch name]) = [] := by
  simp [arrived, since_last_end_snoc_end]

theorem not_begun {requests : List DataRequest} (outside : inBatch requests = false) :
    ∀ request ∈ sinceLastEnd requests, request.isBegin = false := by
  simpa [inBatch] using outside

theorem arrived_outside {requests : List DataRequest} (outside : inBatch requests = false) :
    arrived requests = [] := by
  have none : (sinceLastEnd requests).dropWhile (fun request => !request.isBegin) = [] := by
    rw [List.dropWhile_eq_nil_iff]
    intro request member
    simp [not_begun outside request member]
  rw [arrived, none, List.filterMap_nil]

theorem arrived_snoc (request : DataRequest) (goesOn : request.isEnd = false)
    (inside : inBatch requests = true) :
    arrived (requests ++ [request]) = arrived requests ++ request.point?.toList := by
  have begun : (sinceLastEnd requests).dropWhile (fun request => !request.isBegin) ≠ [] := by
    intro none
    rw [List.dropWhile_eq_nil_iff] at none
    obtain ⟨first, member, begins⟩ := List.any_eq_true.mp inside
    have missing := none first member
    simp [begins] at missing
  rw [arrived, since_last_end_snoc requests request goesOn, List.dropWhile_append,
    List.isEmpty_eq_false_iff.mpr begun]
  cases shape : request.point? <;> simp [arrived, shape]

theorem arrived_snoc_begin : arrived (requests ++ [.beginBatch]) = arrived requests := by
  cases inside : inBatch requests with
  | true =>
      rw [arrived_snoc requests .beginBatch rfl inside]
      simp [DataRequest.point?]
  | false =>
      have dropped : (sinceLastEnd requests).dropWhile (fun request => !request.isBegin) = [] := by
        rw [List.dropWhile_eq_nil_iff]
        intro request member
        simp [not_begun inside request member]
      rw [arrived_outside inside, arrived, since_last_end_snoc requests .beginBatch rfl,
        List.dropWhile_append, dropped]
      simp [DataRequest.isBegin, DataRequest.point?]

theorem conversion_other {request : DataRequest} (goesOn : request.isEnd = false) :
    conversion requests request = [] := by
  cases request with
  | endBatch name => cases goesOn
  | beginBatch => rfl
  | point arrival => rfl

theorem conversions_snoc (request : DataRequest) :
    conversions (requests ++ [request]) = conversions requests ++ conversion requests request := by
  unfold conversions
  rw [List.zipIdx_append, List.flatMap_append]
  congr 1
  · apply List.flatMap_congr
    rintro ⟨earlier, position⟩ member
    have bound := (List.mem_zipIdx member).2.1
    dsimp only
    rw [List.take_append_of_le_length (by omega)]
  · simp

end Requests

namespace PointsStorage

structure Quiet (before after : Contents State) : Prop where
  points : after.points = before.points
  converted : convertedIn after.events = convertedIn before.events
  handled : handledIn after.events = handledIn before.events
  handler : after.handler = before.handler

theorem quiet_refl (contents : Contents State) : Quiet contents contents := ⟨rfl, rfl, rfl, rfl⟩

theorem Quiet.trans {first second third : Contents State} (earlier : Quiet first second)
    (later : Quiet second third) : Quiet first third :=
  ⟨later.points.trans earlier.points, later.converted.trans earlier.converted,
    later.handled.trans earlier.handled, later.handler.trans earlier.handler⟩

theorem converted_in_append (earlier later : List Event) :
    convertedIn (earlier ++ later) = convertedIn earlier ++ convertedIn later :=
  List.filterMap_append

theorem handled_in_append (earlier later : List Event) :
    handledIn (earlier ++ later) = handledIn earlier ++ handledIn later :=
  List.filterMap_append

theorem written_quiet (responses : List Response) (contents : Contents State) :
    Quiet contents { contents with events := contents.events ++ responses.map .writes } where
  points := rfl
  converted := by simp [convertedIn, Event.converted?, Function.comp_def]
  handled := by simp [handledIn, Event.handled?, Function.comp_def]
  handler := rfl

theorem write_results_quiet (storage : PointsStorage State) (pointsConverter : Converter)
    (resultBatches : List RecordBatch) (contents : Contents State) :
    Ends (fun _ => Quiet contents) (fun _ => Quiet contents)
      (storage.writeResults pointsConverter resultBatches contents) := by
  induction resultBatches generalizing contents with
  | nil => exact quiet_refl contents
  | cons resultBatch rest induction =>
      rw [writeResults]
      have converts : Ends (fun _ => Quiet contents) (fun _ => Quiet contents)
          ((ofExcept (storage.resultResponses pointsConverter resultBatch) :
            EStateM Fault (Contents State) (List Response)) contents) :=
        ends_of_except (fun _ _ => quiet_refl contents) fun _ _ => quiet_refl contents
      apply ends_bind converts
      intro responses after quiet
      rw [bind_of_ok (write_responses_apply responses after)]
      have written := written_quiet responses after
      exact ends_mono (induction _) (fun _ _ later => (quiet.trans written).trans later)
        fun _ _ later => (quiet.trans written).trans later

/-- What a storage with the points has converted when it handles them. -/
def waiting (points : List Point) : List (List Point) := if points = [] then [] else [points]

/-- The points of a storage are converted once, if there are any, and the handler is given the
batches they become. -/
structure Converts (pointsConverter : Converter) (recordBatchHandler : RecordBatchHandler State)
    (before after : Contents State) : Prop where
  points : after.points = before.points
  converted : convertedIn after.events = convertedIn before.events ++ waiting before.points
  handled : handledIn after.events = handledIn before.events ++
    (waiting before.points).filterMap pointsConverter.batches
  handler : after.handler = ((waiting before.points).filterMap pointsConverter.batches).foldl
    recordBatchHandler.after before.handler

variable (pointsConverter : Converter) (handler : RecordBatchHandler State)
  (providesBatch : Bool) (renderScalar : DataType → Value → String)

variable {pointsConverter handler} in
theorem Converts.handed {initial : State} {conversions : List (List Point)}
    {before after : Contents State} (converts : Converts pointsConverter handler before after)
    (handed : Handed pointsConverter handler initial conversions before) :
    Handed pointsConverter handler initial (conversions ++ waiting before.points) after where
  converted := by rw [converts.converted, handed.converted]
  handled := by rw [converts.handled, handed.handled, List.filterMap_append]
  handler := by rw [converts.handler, handed.handler, List.filterMap_append, List.foldl_append]

variable {pointsConverter handler} in
theorem Converts.quiet {before between after : Contents State}
    (converts : Converts pointsConverter handler before between) (quiet : Quiet between after) :
    Converts pointsConverter handler before after :=
  ⟨quiet.points.trans converts.points, quiet.converted.trans converts.converted,
    quiet.handled.trans converts.handled, quiet.handler.trans converts.handler⟩

theorem call_converter_converts {contents : Contents State} {fault : Fault}
    (received : contents.points ≠ [])
    (refused : pointsConverter.convertToRecordBatches contents.points = .error fault) :
    Converts pointsConverter handler contents
      { contents with events := contents.events ++ [.converts contents.points] } := by
  have nothing : (waiting contents.points).filterMap pointsConverter.batches = [] := by
    rw [waiting, if_neg received]
    simp [Converter.batches, refused, Except.toOption]
  refine ⟨rfl, ?_, ?_, ?_⟩
  · rw [waiting, if_neg received, converted_in_append]
    rfl
  · rw [nothing, handled_in_append]
    rfl
  · rw [nothing]
    rfl

theorem call_handler_converts {contents : Contents State} {recordBatches : List RecordBatch}
    (received : contents.points ≠ [])
    (converted : pointsConverter.convertToRecordBatches contents.points = .ok recordBatches) :
    Ends (fun _ => Converts pointsConverter handler contents)
      (fun _ => Converts pointsConverter handler contents)
      (callHandler handler recordBatches
        { contents with events := contents.events ++ [.converts contents.points] }) := by
  have became : (waiting contents.points).filterMap pointsConverter.batches = [recordBatches] := by
    rw [waiting, if_neg received]
    simp [Converter.batches, converted, Except.toOption]
  have converts : ∀ after, handler.after contents.handler recordBatches = after →
      Converts pointsConverter handler contents { contents with
        handler := after
        events := contents.events ++ [.converts contents.points] ++ [.handles recordBatches] } := by
    intro after own
    refine ⟨rfl, ?_, ?_, ?_⟩
    · rw [waiting, if_neg received, converted_in_append, converted_in_append]
      exact List.append_nil _
    · rw [became, handled_in_append, handled_in_append]
      exact congrArg (· ++ [recordBatches]) (List.append_nil _)
    · rw [became]
      exact own.symm
  unfold callHandler
  cases outcome : handler.handle recordBatches contents.handler <;>
    exact converts _ (by rw [RecordBatchHandler.after, outcome])

theorem handle_batch_empty {contents : Contents State} (empty : contents.points = []) :
    (PointsStorage.mk (some pointsConverter) (some handler) providesBatch
      renderScalar).handleBatch contents = .ok () contents := by
  simp only [handleBatch]
  rw [bind_of_ok (get_apply contents), if_pos empty]
  rfl

theorem handle_batch_converts (contents : Contents State) :
    Ends (fun _ => Converts pointsConverter handler contents)
      (fun _ => Converts pointsConverter handler contents)
      ((PointsStorage.mk (some pointsConverter) (some handler) providesBatch
        renderScalar).handleBatch contents) := by
  by_cases empty : contents.points = []
  · rw [handle_batch_empty _ _ _ _ empty]
    have none : waiting contents.points = [] := if_pos empty
    exact ⟨rfl, by rw [none, List.append_nil], by rw [none]; exact (List.append_nil _).symm,
      by rw [none]; rfl⟩
  · simp only [handleBatch]
    rw [bind_of_ok (get_apply contents), if_neg empty]
    cases converted : pointsConverter.convertToRecordBatches contents.points with
    | error fault =>
        rw [bind_of_error (call_converter_error converted contents)]
        exact call_converter_converts _ _ empty converted
    | ok recordBatches =>
        rw [bind_of_ok (call_converter_ok converted contents)]
        apply ends_bind (call_handler_converts _ _ empty converted)
        intro resultBatches after converts
        exact ends_mono (write_results_quiet _ pointsConverter resultBatches after)
          (fun _ _ => converts.quiet) fun _ _ => converts.quiet

end PointsStorage

namespace BatchRequestHandler

open PointsStorage

section Run

variable (handler : BatchRequestHandler State)

theorem handle_requests_append (earlier later : List BatchRequest) :
    handler.handleRequests (earlier ++ later) =
      (do
        handler.handleRequests earlier
        handler.handleRequests later : EStateM Fault (BatchState State) Unit) := by
  induction earlier with
  | nil => rfl
  | cons request rest induction =>
      rw [List.cons_append, handleRequests, handleRequests, induction, bind_assoc]

theorem on_storage_ok {Value : Type} {action : EStateM Fault (Contents State) Value}
    {state : BatchState State} {value : Value} {contents : Contents State}
    (returned : action state.contents = .ok value contents) :
    onStorage action state = .ok value { state with contents } := by
  rw [onStorage, returned]

theorem on_storage_ends {Value : Type} {action : EStateM Fault (Contents State) Value}
    {raises : Fault → Contents State → Prop} {post : Value → Contents State → Prop}
    {state : BatchState State} (ends : Ends raises post (action state.contents)) :
    Ends (fun fault after => raises fault after.contents ∧ after.inBatch = state.inBatch)
      (fun value after => post value after.contents ∧ after.inBatch = state.inBatch)
      (onStorage action state) := by
  unfold onStorage
  cases outcome : action state.contents with
  | ok value contents =>
      rw [outcome] at ends
      exact ⟨ends, rfl⟩
  | error fault contents =>
      rw [outcome] at ends
      exact ⟨ends, rfl⟩

end Run

structure Follows (pointsConverter : Converter) (recordBatchHandler : RecordBatchHandler State)
    (initial : State) (requests : List DataRequest) (state : BatchState State) : Prop where
  flag : state.inBatch = inBatch requests
  points : state.contents.points = arrived requests
  handed : Handed pointsConverter recordBatchHandler initial (conversions requests) state.contents

variable (pointsConverter : Converter) (recordBatchHandler : RecordBatchHandler State)
  (providesBatch : Bool) (renderScalar : DataType → Value → String) (codec : PointsCodec)

def provided : BatchRequestHandler State :=
  ⟨some ⟨some pointsConverter, some recordBatchHandler, providesBatch, renderScalar⟩, codec⟩

variable {requests : List DataRequest} {state : BatchState State} {initial : State}

theorem set_points_name_apply (name : String) (state : BatchState State) :
    onStorage (setPointsName name) state =
      .ok () { state with contents := { state.contents with
        points := renamed name state.contents.points } } := rfl

variable {pointsConverter recordBatchHandler} in
theorem begin_follows (follows : Follows pointsConverter recordBatchHandler initial requests state) :
    Follows pointsConverter recordBatchHandler initial (requests ++ [.beginBatch])
      { state with inBatch := true } where
  flag := (in_batch_snoc_begin requests).symm
  points := by rw [arrived_snoc_begin]; exact follows.points
  handed := by
    rw [conversions_snoc, conversion_other requests rfl, List.append_nil]
    exact follows.handed

/-- An error that is written changes nothing that has been handed on. -/
theorem handed_written {conversions : List (List Point)} {contents : Contents State}
    (handed : Handed pointsConverter recordBatchHandler initial conversions contents)
    (response : Response) : Handed pointsConverter recordBatchHandler initial conversions
      { contents with events := contents.events ++ [.writes response] } := by
  have quiet := written_quiet [response] contents
  exact ⟨quiet.converted.trans handed.converted, quiet.handled.trans handed.handled, handed.handler⟩

theorem point_step (point : Point) (state : BatchState State) :
    (provided pointsConverter recordBatchHandler providesBatch renderScalar
        codec).handleRequest (.point point) state =
      .ok () (if state.inBatch then
        { state with contents := { state.contents with
            points := state.contents.points ++ [point] } }
      else { state with contents := { state.contents with
        events := state.contents.events ++
          [.writes (.error "Can't add point: not in batch")] } }) := by
  change (get >>= fun held : BatchState State =>
    if held.inBatch = true then onStorage (addPoint point)
    else onStorage (writeResponse (.error "Can't add point: not in batch"))) state = _
  rw [bind_of_ok (get_apply state)]
  split <;> rfl

theorem point_follows (point : Point)
    (follows : Follows pointsConverter recordBatchHandler initial requests state) :
    ∃ after, (provided pointsConverter recordBatchHandler providesBatch renderScalar
        codec).handleRequest (.point point) state = .ok () after ∧
      Follows pointsConverter recordBatchHandler initial (requests ++ [.point point]) after := by
  refine ⟨_, point_step _ _ _ _ _ point state, ?_, ?_, ?_⟩
  · rw [in_batch_snoc_point, ← follows.flag]
    split <;> rfl
  · split
    · next inside =>
      rw [follows.flag] at inside
      rw [arrived_snoc requests (.point point) rfl inside]
      dsimp only
      rw [follows.points]
      rfl
    · next outside =>
      have outside : inBatch requests = false := by simpa [follows.flag] using outside
      rw [arrived_outside (in_batch_snoc_point requests point ▸ outside)]
      dsimp only
      rw [follows.points, arrived_outside outside]
  · rw [conversions_snoc, conversion_other requests rfl, List.append_nil]
    split
    · exact ⟨follows.handed.converted, follows.handed.handled, follows.handed.handler⟩
    · exact handed_written _ _ follows.handed _

theorem handle_batch_logged_converts (contents : Contents State) :
    Ends (fun _ => Converts pointsConverter recordBatchHandler contents)
      (fun _ => Converts pointsConverter recordBatchHandler contents)
      ((PointsStorage.mk (some pointsConverter) (some recordBatchHandler) providesBatch
        renderScalar).handleBatchLogged contents) := by
  have ends := handle_batch_converts pointsConverter recordBatchHandler providesBatch
    renderScalar contents
  unfold handleBatchLogged
  cases outcome : (PointsStorage.mk (some pointsConverter) (some recordBatchHandler)
      providesBatch renderScalar).handleBatch contents with
  | ok value after =>
      rw [outcome] at ends
      exact ends
  | error fault after =>
      rw [outcome] at ends
      cases fault <;> exact ends

theorem end_follows_of {name : String}
    (follows : Follows pointsConverter recordBatchHandler initial requests state)
    {named : BatchState State}
    (points : named.contents.points = renamed name state.contents.points)
    (handed : Handed pointsConverter recordBatchHandler initial (conversions requests)
      named.contents) :
    Ends (fun _ after => Handed pointsConverter recordBatchHandler initial
        (conversions (requests ++ [.endBatch name])) after.contents)
      (fun _ after => Follows pointsConverter recordBatchHandler initial
        (requests ++ [.endBatch name]) after)
      ((do
        onStorage (PointsStorage.mk (some pointsConverter) (some recordBatchHandler)
          providesBatch renderScalar).handleBatchLogged
        onStorage clear
        modify fun state => { state with inBatch := false } :
          EStateM Fault (BatchState State) Unit) named) := by
  have own : waiting named.contents.points = conversion requests (.endBatch name) := by
    rw [points, follows.points, waiting, conversion]
    simp [renamed]
  have finish : ∀ after : Contents State,
      Converts pointsConverter recordBatchHandler named.contents after →
      Handed pointsConverter recordBatchHandler initial
        (conversions (requests ++ [.endBatch name])) after := by
    intro after converts
    rw [conversions_snoc, ← own]
    exact converts.handed handed
  have handled := on_storage_ends (handle_batch_logged_converts pointsConverter
    recordBatchHandler providesBatch renderScalar named.contents)
  apply ends_bind (ends_mono handled (fun _ after ended => finish _ ended.1)
    fun _ after ended => finish _ ended.1)
  intro _ after converted
  exact ⟨(in_batch_snoc_end requests name).symm, (arrived_snoc_end requests name).symm,
    converted.converted, converted.handled, converted.handler⟩

theorem end_step (name : String) (state : BatchState State) :
    (provided pointsConverter recordBatchHandler providesBatch renderScalar
        codec).handleRequest (.endBatch name) state =
      (do
        onStorage (PointsStorage.mk (some pointsConverter) (some recordBatchHandler)
          providesBatch renderScalar).handleBatchLogged
        onStorage clear
        modify fun state => { state with inBatch := false } :
          EStateM Fault (BatchState State) Unit)
        { state with contents := { state.contents with
          points := renamed name state.contents.points
          events := state.contents.events ++ if state.inBatch then []
            else [.writes (.error "Can't end batch: currently not in batch")] } } := by
  obtain ⟨flag, contents⟩ := state
  simp only [handleRequest, provided, endBatch]
  rw [bind_of_ok (get_apply _)]
  cases flag with
  | true =>
      rw [if_neg (by simp), if_pos rfl, List.append_nil, bind_of_ok (set_points_name_apply name _)]
  | false =>
      rw [if_pos (by simp), if_neg (by simp), bind_of_ok (on_storage_ok (write_response_apply _ _)),
        bind_of_ok (set_points_name_apply name _)]

theorem end_follows (name : String)
    (follows : Follows pointsConverter recordBatchHandler initial requests state) :
    Ends (fun _ after => Handed pointsConverter recordBatchHandler initial
        (conversions (requests ++ [.endBatch name])) after.contents)
      (fun _ after => Follows pointsConverter recordBatchHandler initial
        (requests ++ [.endBatch name]) after)
      ((provided pointsConverter recordBatchHandler providesBatch renderScalar
        codec).handleRequest (.endBatch name) state) := by
  rw [end_step]
  apply end_follows_of _ _ _ _ follows rfl
  split
  · rw [List.append_nil]
    exact ⟨follows.handed.converted, follows.handed.handled, follows.handed.handler⟩
  · have written := handed_written _ _ follows.handed
      (.error "Can't end batch: currently not in batch")
    exact ⟨written.converted, written.handled, written.handler⟩

theorem end_outside (name : String)
    (follows : Follows pointsConverter recordBatchHandler initial requests state)
    (outside : inBatch requests = false) :
    (provided pointsConverter recordBatchHandler providesBatch renderScalar
        codec).handleRequest (.endBatch name) state =
      .ok () { state with contents := { state.contents with
        events := state.contents.events ++
          [.writes (.error "Can't end batch: currently not in batch")] } } := by
  have flag : state.inBatch = false := follows.flag.trans outside
  have points : state.contents.points = [] := follows.points.trans (arrived_outside outside)
  obtain ⟨own, handler, held, events⟩ := state
  dsimp only at flag points
  subst flag points
  rw [end_step]
  simp only [renamed, List.map_nil]
  have handled : ∀ contents : Contents State, contents.points = [] →
      (PointsStorage.mk (some pointsConverter) (some recordBatchHandler) providesBatch
        renderScalar).handleBatchLogged contents = .ok () contents := by
    intro contents empty
    rw [handleBatchLogged, handle_batch_empty _ _ _ _ empty]
  rw [bind_of_ok (on_storage_ok (handled _ rfl))]
  rfl

theorem run_follows (requests : List DataRequest) (initial : State) :
    Ends (fun _ after => ∃ position, Handed pointsConverter recordBatchHandler initial
        (conversions (requests.take position)) after.contents)
      (fun _ after => Follows pointsConverter recordBatchHandler initial requests after)
      ((provided pointsConverter recordBatchHandler providesBatch renderScalar
        codec).handleRequests (requests.map DataRequest.request)
          { contents := { handler := initial } }) := by
  induction requests using List.reverseRecOn with
  | nil => exact ⟨rfl, rfl, rfl, rfl, rfl⟩
  | append_singleton requests request induction =>
      rw [List.map_append, handle_requests_append]
      have earlier := ends_mono induction (fun fault after ended => by
        obtain ⟨position, handed⟩ := ended
        exact (⟨min position requests.length, by
          rwa [List.take_append_of_le_length (Nat.min_le_right _ _), ← List.take_eq_take_min]⟩ :
          ∃ position, Handed pointsConverter recordBatchHandler initial
            (conversions ((requests ++ [request]).take position)) after.contents))
        fun _ _ follows => follows
      apply ends_bind earlier
      intro _ state follows
      have single : (provided pointsConverter recordBatchHandler providesBatch renderScalar
          codec).handleRequests ([request].map DataRequest.request) state =
            (provided pointsConverter recordBatchHandler providesBatch renderScalar
              codec).handleRequest request.request state := by
        simp only [List.map_cons, List.map_nil, handleRequests]
        exact congrFun (bind_pure_unit) state
      rw [single]
      cases request with
      | beginBatch => exact begin_follows follows
      | point point =>
          obtain ⟨after, handled, next⟩ := point_follows pointsConverter recordBatchHandler
            providesBatch renderScalar codec point follows
          rw [DataRequest.request, handled]
          exact next
      | endBatch name =>
          exact ends_mono (end_follows pointsConverter recordBatchHandler providesBatch
            renderScalar codec name follows)
            (fun _ _ handed => ⟨(requests ++ [DataRequest.endBatch name]).length, by
              rwa [List.take_length]⟩)
            fun _ _ next => next

/-- After any requests of a batch: outside a batch the storage is empty, and points and
EndBatch messages there only get their errors; every EndBatch so far has had the points since the
one before it converted, whatever became of them, and the handler is in the state in which the
batches made of them leave it, one conversion after the other. An exception ends the run between
two conversions. -/
theorem each_point_handled_once (requests : List DataRequest) (initial : State) :
    Ends (fun _ after => ∃ position, Handed pointsConverter recordBatchHandler initial
        (conversions (requests.take position)) after.contents)
      (fun _ state => state.inBatch = inBatch requests ∧
        state.contents.points = arrived requests ∧
        (state.inBatch = false → state.contents.points = []) ∧
        Handed pointsConverter recordBatchHandler initial (conversions requests)
          state.contents ∧
        (state.inBatch = false →
          (∀ point, (provided pointsConverter recordBatchHandler providesBatch renderScalar
              codec).handleRequest (.point point) state =
            .ok () { state with contents := { state.contents with
              events := state.contents.events ++
                [.writes (.error "Can't add point: not in batch")] } }) ∧
          ∀ name, (provided pointsConverter recordBatchHandler providesBatch renderScalar
              codec).handleRequest (.endBatch name) state =
            .ok () { state with contents := { state.contents with
              events := state.contents.events ++
                [.writes (.error "Can't end batch: currently not in batch")] } }))
      ((provided pointsConverter recordBatchHandler providesBatch renderScalar
        codec).handleRequests (requests.map DataRequest.request)
          { contents := { handler := initial } }) := by
  apply ends_mono (run_follows pointsConverter recordBatchHandler providesBatch renderScalar
    codec requests initial) fun _ _ ended => ended
  intro _ state follows
  refine ⟨follows.flag, follows.points, ?_, follows.handed, ?_⟩
  · intro outside
    rw [follows.points, arrived_outside (follows.flag ▸ outside)]
  · intro outside
    refine ⟨?_, fun name => end_outside _ _ _ _ _ name follows (follows.flag ▸ outside)⟩
    intro point
    rw [point_step, outside]
    rfl

end BatchRequestHandler

end StreamDataProcessor.Kapacitor
