import StreamDataProcessor.Kapacitor.AggregateOptionsParser
import StreamDataProcessor.Kapacitor.Resumption

/-!
# The batch aggregate UDF

`BatchAggregateRequestHandler`. Its record batch handler keeps nothing between calls, so the
flag and the points of a snapshot are all that later requests depend on.
-/

namespace StreamDataProcessor.Kapacitor

open Foundation.Effect Arrow Metadata Handlers Utils.Uvarint
open DynamicWindowRequestHandler (RequestOption)

set_option autoImplicit false

structure InitResponse where
  success : Bool
  error : String := ""

/-- The orders in which unordered maps are visited: the groups of the points, the groups of
the batches and the columns to aggregate. -/
structure MapOrders where
  pointGroups : List Point → List String
  batchGroups : List RecordBatchGroup → List RecordBatchGroup
  aggregateColumns : List (String × List Aggregate.AggregateCase) →
    List (String × List Aggregate.AggregateCase)

/-- `AggregateHandler`, which has no state. -/
def aggregateHandler (orders : MapOrders) (renderScalar : DataType → Value → String)
    (options : Aggregate.AggregateOptions) : RecordBatchHandler Unit where
  handle recordBatches := ofExcept (Aggregate.handle renderScalar orders.batchGroups
    { options with aggregateColumns := orders.aggregateColumns options.aggregateColumns }
    recordBatches)

namespace BatchAggregateRequestHandler

variable (orders : MapOrders) (renderScalar : DataType → Value → String)

def init (requestOptions : List RequestOption) (handler : BatchRequestHandler Unit) :
    InitResponse × BatchRequestHandler Unit :=
  match AggregateOptionsParser.parseOptions requestOptions with
  | .error message => (⟨false, message⟩, handler)
  | .ok aggregateOptions => (⟨true, ""⟩, { handler with
      pointsStorage := some {
        pointsConverter := some (basePointsConverter orders.pointGroups renderScalar)
        handler := some (aggregateHandler orders renderScalar aggregateOptions)
        providesBatch := false
        renderScalar } })

def fresh : BatchState Unit := { contents := { handler := () } }

theorem initialised_has_storage {codec : PointsCodec} {requestOptions : List RequestOption}
    {handler : BatchRequestHandler Unit}
    (initialised : init orders renderScalar requestOptions ⟨none, codec⟩ = (⟨true, ""⟩, handler)) :
    (∃ storage, handler.pointsStorage = some storage) ∧ handler.codec = codec := by
  unfold init at initialised
  cases parsed : AggregateOptionsParser.parseOptions requestOptions with
  | error message =>
      rw [parsed] at initialised
      cases initialised
  | ok options =>
      rw [parsed] at initialised
      cases initialised
      exact ⟨⟨_, rfl⟩, rfl⟩

/-- In any state, a snapshot changes nothing. A handler that is initialised again and given the
snapshot answers success, and then whatever the other one would. -/
theorem restored_handler_resumes (codec : PointsCodec) (requestOptions : List RequestOption)
    (handler : BatchRequestHandler Unit)
    (initialised : init orders renderScalar requestOptions ⟨none, codec⟩ = (⟨true, ""⟩, handler))
    (state : BatchState Unit)
    (roundTrips : codec.parse (codec.serialize state.contents.points) =
      (state.contents.points, true)) :
    ∃ snapshot restored, handler.snapshot state = .ok (.snapshot snapshot) state ∧
      handler.restore snapshot fresh = .ok (.restore true "") restored ∧
      ∀ later : List BatchRequest,
        handler.answers later restored = handler.answers later state := by
  obtain ⟨⟨storage, stored⟩, own⟩ := initialised_has_storage orders renderScalar initialised
  exact BatchRequestHandler.restore_resumes stored state (own ▸ roundTrips)

def parseTimes : Bytes → List Point × Bool
  | [] => ([], true)
  | [_] => ([], false)
  | _ :: time :: rest =>
      ({ time := time.toNat } :: (parseTimes rest).1, (parseTimes rest).2)

def timesCodec : PointsCodec where
  serialize points := points.flatMap fun point => [8, UInt8.ofNat point.time.toNat]
  parse := parseTimes

def lastOption : RequestOption where
  name := "aggregate"
  values := [{ type := .string, stringValue := "last(value) as value" }]

def keptOrders : MapOrders where
  pointGroups points := (points.map Point.group).dedup
  batchGroups groups := groups
  aggregateColumns columns := columns

def lastHandler : BatchRequestHandler Unit :=
  (init keptOrders (fun _ _ => "") [lastOption] ⟨none, timesCodec⟩).2

def openBatch : BatchState Unit :=
  { inBatch := true, contents := { handler := (), points := [{ time := 4 }, { time := 6 }] } }

theorem open_batch_resumes :
    lastHandler.handleRequests [.beginBatch, .point { time := 4 }, .point { time := 6 }] fresh =
        .ok () openBatch ∧
      ∃ snapshot restored, lastHandler.snapshot openBatch = .ok (.snapshot snapshot) openBatch ∧
        lastHandler.restore snapshot fresh = .ok (.restore true "") restored ∧
        ∀ later, lastHandler.answers later restored = lastHandler.answers later openBatch :=
  ⟨rfl, restored_handler_resumes keptOrders (fun _ _ => "") timesCodec [lastOption] lastHandler rfl
    openBatch rfl⟩

end BatchAggregateRequestHandler

end StreamDataProcessor.Kapacitor
