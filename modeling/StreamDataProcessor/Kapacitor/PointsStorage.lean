import StreamDataProcessor.Foundation.Effect
import StreamDataProcessor.Handlers.AggregateFunctions
import StreamDataProcessor.Kapacitor.PointsConverter
import StreamDataProcessor.Utils.Uvarint

/-!
# The storage of points

`PointsStorage` between an agent, a converter and a handler. What it does to each
of them is kept as a list of events, in order.
-/

namespace StreamDataProcessor.Kapacitor

open Foundation.Effect Arrow Metadata Utils.Uvarint

set_option autoImplicit false

structure BeginBatch where
  name : String := ""
  group : String := ""
  tags : FieldMap String := ∅
  size : Int := 0
  byName : Bool := false

structure EndBatch where
  name : String := ""
  group : String := ""
  tmax : Int := 0
  tags : FieldMap String := ∅
  byName : Bool := false

/-- The responses of `agent::Response` that the request handlers over a storage give. -/
inductive Response where
  | error (error : String)
  | snapshot (snapshot : Bytes)
  | restore (success : Bool) (error : String)
  | beginBatch (batch : BeginBatch)
  | point (point : Point)
  | endBatch (batch : EndBatch)

structure Converter where
  convertToRecordBatches : List Point → Outcome (List RecordBatch)
  convertToPoints : List RecordBatch → Outcome (List Point)

/-- `BasePointsConverter` with the default options of the request handlers, which visits the
groups of the points in the given order. -/
def basePointsConverter (order : List Point → List String)
    (renderScalar : DataType → Value → String) : Converter where
  convertToRecordBatches points :=
    PointsConverter.convertToRecordBatches PointsConverter.defaultToRecordBatchesOptions
      (order points) points
  convertToPoints := PointsConverter.convertToPoints renderScalar

/-- `RecordBatchHandler::handle` on a vector, with the state of the handler. -/
structure RecordBatchHandler (State : Type) where
  handle : List RecordBatch → EStateM Fault State (List RecordBatch)

/-- What a storage does: the points given to its converter, the batches given to its handler and
the responses written through its agent. -/
inductive Event where
  | converts (points : List Point)
  | handles (recordBatches : List RecordBatch)
  | writes (response : Response)

def Event.response? : Event → Option Response
  | .writes response => some response
  | _ => none

def Event.converted? : Event → Option (List Point)
  | .converts points => some points
  | _ => none

def Event.handled? : Event → Option (List RecordBatch)
  | .handles recordBatches => some recordBatches
  | _ => none

structure Contents (State : Type) where
  handler : State
  points : List Point := []
  events : List Event := []

def Contents.written {State : Type} (contents : Contents State) : List Response :=
  contents.events.filterMap Event.response?

/-- `SerializeAsString` and `ParseFromString` of a `PointBatch`; parsing gives what is then
in the message, and whether it succeeded. -/
structure PointsCodec where
  serialize : List Point → Bytes
  parse : Bytes → List Point × Bool

def PointsCodec.RoundTrips (codec : PointsCodec) : Prop :=
  ∀ points, codec.parse (codec.serialize points) = (points, true)

section Batch

variable (renderScalar : DataType → Value → String)

def getMeasurement (recordBatch : RecordBatch) : Outcome String := do
  let measurementColumnName ← getMeasurementColumnNameMetadata recordBatch
  match recordBatch.getColumnByName measurementColumnName with
  | none => fail .invalid s!"Invalid measurement column name metadata: {measurementColumnName}"
  | some measurementColumn =>
      if recordBatch.numRows = 0 then
        fail .invalid "Can't extract measurement value from emptyRecordBatch"
      else do
        let measurementScalar ← measurementColumn.getScalar 0
        return scalarToString renderScalar measurementColumn.type measurementScalar

def getMeasurementAndValidate (recordBatch : RecordBatch) : Outcome String := do
  let measurementValue ← getMeasurement renderScalar recordBatch
  let measurementColumnName ← getMeasurementColumnNameMetadata recordBatch
  match recordBatch.getColumnByName measurementColumnName with
  | none => .error (.undefined "a null column is dereferenced")
  | some measurementColumn =>
      let values := measurementColumn.cells.map
        (scalarToString renderScalar measurementColumn.type)
      match values.find? (· ≠ measurementValue) with
      | none => .ok measurementValue
      | some other =>
          fail .invalid
            s!"Found more than one unique measurement values: {measurementValue} and {other}"

def getGroupString (recordBatch : RecordBatch) : Outcome String := do
  let measurementColumnName ← getMeasurementColumnNameMetadata recordBatch
  let columnTypes ← getColumnTypes recordBatch
  return GroupingUtils.encode (extractGroup recordBatch) measurementColumnName columnTypes

/-- `setGroupTagsAndByName`: the tags and `byName` of a message. -/
def groupTagsAndByName (recordBatch : RecordBatch) : Outcome (FieldMap String × Bool) := do
  let measurementColumnName ← getMeasurementColumnNameMetadata recordBatch
  let group := extractGroup recordBatch
  return (group.groupColumnsNames.zip group.groupColumnsValues).foldl (fun (tags, byName) entry =>
    if entry.1 ≠ measurementColumnName then (tags.insert entry.1 entry.2, byName)
    else (tags, true)) (∅, false)

def getTMax (recordBatch : RecordBatch) : Outcome Int := do
  let timeColumnName ← getTimeColumnNameMetadata recordBatch
  let tmaxScalar ← Handlers.lastAggregateFunction recordBatch timeColumnName
  let column ← Handlers.aggregatedColumn recordBatch timeColumnName
  let tmaxScalar ← castTimestampScalar column.type tmaxScalar .nano
  return integerValue tmaxScalar

def getBeginBatchResponse (recordBatch : RecordBatch) : Outcome BeginBatch := do
  let name ← getMeasurementAndValidate renderScalar recordBatch
  let group ← getGroupString recordBatch
  let (tags, byName) ← groupTagsAndByName recordBatch
  return { name, group, tags, byName, size := recordBatch.numRows }

def getEndBatchResponse (recordBatch : RecordBatch) : Outcome EndBatch := do
  let name ← getMeasurementAndValidate renderScalar recordBatch
  let group ← getGroupString recordBatch
  let (tags, byName) ← groupTagsAndByName recordBatch
  let tmax ← getTMax recordBatch
  return { name, group, tags, byName, tmax }

end Batch

/-- The members of a storage that do not change; a missing one is a null pointer. -/
structure PointsStorage (State : Type) where
  pointsConverter : Option Converter
  handler : Option (RecordBatchHandler State)
  providesBatch : Bool
  renderScalar : DataType → Value → String

namespace PointsStorage

variable {State : Type}

def note (event : Event) : EStateM Fault (Contents State) Unit :=
  modify fun contents => { contents with events := contents.events ++ [event] }

def writeResponse (response : Response) : EStateM Fault (Contents State) Unit :=
  note (.writes response)

def addPoint (point : Point) : EStateM Fault (Contents State) Unit :=
  modify fun contents => { contents with points := contents.points ++ [point] }

def clear : EStateM Fault (Contents State) Unit :=
  modify fun contents => { contents with points := [] }

def setPointsName (name : String) : EStateM Fault (Contents State) Unit :=
  modify fun contents =>
    { contents with points := contents.points.map fun point => { point with name } }

/-- A call of the converter, which records what it is given. -/
def callConverter (pointsConverter : Converter) (points : List Point) :
    EStateM Fault (Contents State) (List RecordBatch) := fun contents =>
  let recorded := { contents with events := contents.events ++ [.converts points] }
  match pointsConverter.convertToRecordBatches points with
  | .ok recordBatches => .ok recordBatches recorded
  | .error fault => .error fault recorded

/-- A call of the handler, which records what it is given. -/
def callHandler (handler : RecordBatchHandler State) (recordBatches : List RecordBatch) :
    EStateM Fault (Contents State) (List RecordBatch) := fun contents =>
  let events := contents.events ++ [.handles recordBatches]
  match handler.handle recordBatches contents.handler with
  | .ok results after => .ok results { contents with handler := after, events }
  | .error fault after => .error fault { contents with handler := after, events }

/-- The begin and end messages of a batch, or nothing where a status keeps one from being
built and the loop goes on with the next batch. -/
def bracket (renderScalar : DataType → Value → String) (resultBatch : RecordBatch) :
    Outcome (Option (BeginBatch × EndBatch)) :=
  match getBeginBatchResponse renderScalar resultBatch with
  | .error (.status _) => .ok none
  | .error fault => .error fault
  | .ok beginBatch =>
      match getEndBatchResponse renderScalar resultBatch with
      | .error (.status _) => .ok none
      | .error fault => .error fault
      | .ok endBatch => .ok (some (beginBatch, endBatch))

def resultResponses (storage : PointsStorage State) (pointsConverter : Converter)
    (resultBatch : RecordBatch) : Outcome (List Response) := do
  let responsePoints ← pointsConverter.convertToPoints [resultBatch]
  if storage.providesBatch then do
    match ← bracket storage.renderScalar resultBatch with
    | none => return []
    | some (beginBatch, endBatch) =>
        return .beginBatch beginBatch :: (responsePoints.map .point ++ [.endBatch endBatch])
  else return responsePoints.map .point

def writeResults (storage : PointsStorage State) (pointsConverter : Converter) :
    List RecordBatch → EStateM Fault (Contents State) Unit
  | [] => pure ()
  | resultBatch :: rest => do
      let responses ← ofExcept (storage.resultResponses pointsConverter resultBatch)
      responses.forM writeResponse
      storage.writeResults pointsConverter rest

def refuse (error : String) : EStateM Fault (Contents State) Unit := do
  writeResponse (.error error)
  throw (.status ⟨.invalid, error⟩)

def handleBatch (storage : PointsStorage State) : EStateM Fault (Contents State) Unit :=
  match storage.pointsConverter, storage.handler with
  | none, _ => refuse "PointsConverter is not provided"
  | _, none => refuse "RecordBatchHandler is not provided"
  | some pointsConverter, some handler => do
      let contents ← get
      if contents.points = [] then pure ()
      else do
        let recordBatches ← callConverter pointsConverter contents.points
        let resultBatches ← callHandler handler recordBatches
        storage.writeResults pointsConverter resultBatches

/-- `restore`, which clears the points before it knows whether the bytes can be parsed. -/
def restore (codec : PointsCodec) (data : Bytes) : EStateM Fault (Contents State) Bool := do
  let (parsed, success) := codec.parse data
  modify fun contents => { contents with points := parsed }
  return success

theorem note_apply (event : Event) (contents : Contents State) :
    note event contents = .ok () { contents with events := contents.events ++ [event] } := rfl

theorem call_converter_ok {pointsConverter : Converter} {points : List Point}
    {recordBatches : List RecordBatch}
    (converted : pointsConverter.convertToRecordBatches points = .ok recordBatches)
    (contents : Contents State) : callConverter pointsConverter points contents =
      .ok recordBatches { contents with events := contents.events ++ [.converts points] } := by
  simp only [callConverter, converted]

theorem call_converter_error {pointsConverter : Converter} {points : List Point} {fault : Fault}
    (refused : pointsConverter.convertToRecordBatches points = .error fault)
    (contents : Contents State) : callConverter pointsConverter points contents =
      .error fault { contents with events := contents.events ++ [.converts points] } := by
  simp only [callConverter, refused]

theorem write_response_apply (response : Response) (contents : Contents State) :
    writeResponse response contents =
      .ok () { contents with events := contents.events ++ [.writes response] } := rfl

theorem restore_apply (codec : PointsCodec) (data : Bytes) (contents : Contents State) :
    restore codec data contents =
      .ok (codec.parse data).2 { contents with points := (codec.parse data).1 } := rfl

theorem write_responses_apply (responses : List Response) (contents : Contents State) :
    responses.forM writeResponse contents =
      .ok () { contents with events := contents.events ++ responses.map .writes } := by
  induction responses generalizing contents with
  | nil => simp
  | cons response rest induction =>
      change (writeResponse response >>= fun _ => rest.forM writeResponse) contents = _
      rw [bind_of_ok (write_response_apply response contents), induction, List.map_cons,
        List.append_assoc]
      rfl

end PointsStorage

end StreamDataProcessor.Kapacitor
