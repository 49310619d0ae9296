import StreamDataProcessor.Handlers.DynamicWindow
import StreamDataProcessor.Handlers.GroupDispatcher
import StreamDataProcessor.Handlers.ThresholdStateMachine
import StreamDataProcessor.Kapacitor.BatchAggregateRequestHandler
import StreamDataProcessor.Kapacitor.DerivativeRequestHandler

/-!
# The stream UDFs with a state

What `init` sets up for the dynamic window, the derivative, the stateful threshold and the
stream aggregate, and what they do with a request. The options are those that were parsed.
-/

namespace StreamDataProcessor.Kapacitor

open Foundation.Binary64 Foundation.Effect Arrow Metadata Handlers Utils.Uvarint
open DynamicWindowRequestHandler (ConvertOptions)

set_option autoImplicit false

section Decorator

/-- `setTimeUnitMetadata` where the batch has the column of the option. -/
def setOptionTimeUnit (option : Option (String × Metadata.TimeUnit)) (recordBatch : RecordBatch) :
    Outcome RecordBatch :=
  match option with
  | none => .ok recordBatch
  | some (columnName, timeUnit) =>
      match recordBatch.getColumnByName columnName with
      | none => .ok recordBatch
      | some _ => setTimeUnitMetadata recordBatch columnName timeUnit

def setOptionsTimeUnits (options : ConvertOptions) (recordBatch : RecordBatch) :
    Outcome RecordBatch := do
  let everySet ← setOptionTimeUnit options.everyOption recordBatch
  setOptionTimeUnit options.periodOption everySet

def windowOptionsConverterDecorator (options : ConvertOptions) (wrappee : Converter) :
    Converter where
  convertToRecordBatches points := do
    let recordBatches ← wrappee.convertToRecordBatches points
    recordBatches.mapM (setOptionsTimeUnits options)
  convertToPoints := wrappee.convertToPoints

end Decorator

/-- A stream UDF whose `init` has succeeded; `point` of some handles what it has stored. -/
structure StreamUdf (State : Type) where
  pointsConverter : Converter
  handler : VectorHandler State
  created : State
  providesBatch : Bool
  handlesPoints : Bool := false

namespace StreamUdf

variable {State : Type} (udf : StreamUdf State)
variable (renderScalar : DataType → Value → String) (codec : PointsCodec)

def storage : PointsStorage State where
  pointsConverter := some udf.pointsConverter
  handler := some ⟨udf.handler⟩
  providesBatch := udf.providesBatch
  renderScalar := renderScalar

def requestHandler : StreamRequestHandler State := ⟨some (udf.storage renderScalar), codec⟩

def fresh : Contents State := { handler := udf.created }

def handleRequest : StreamRequest → EStateM Fault (Contents State) Unit
  | .point point => do
      (udf.requestHandler renderScalar codec).point point
      if udf.handlesPoints then (udf.requestHandler renderScalar codec).handleBatch else pure ()
  | request => (udf.requestHandler renderScalar codec).handleRequest request

def handleRequests : List StreamRequest → EStateM Fault (Contents State) Unit
  | [] => pure ()
  | request :: rest => do
      udf.handleRequest renderScalar codec request
      handleRequests rest

end StreamUdf

section Init

variable (orders : MapOrders) (renderScalar : DataType → Value → String)

def dispatchUdf {State : Type} (pointsConverter : Converter) (createHandler : State)
    (handle : BatchHandler State) (providesBatch : Bool) (handlesPoints : Bool := false) :
    StreamUdf (GroupsStates State) where
  pointsConverter := pointsConverter
  handler := handleVector (GroupDispatcher.handle createHandler handle)
  created := fun _ => none
  providesBatch := providesBatch
  handlesPoints := handlesPoints

def dynamicWindowUdf (options : DynamicWindowRequestHandler.WindowOptions) :
    StreamUdf (GroupsStates Window.WindowHandler) :=
  dispatchUdf
    (windowOptionsConverterDecorator options.convertOptions
      (basePointsConverter orders.pointGroups renderScalar))
    { options := options.windowHandlerOptions }
    (DynamicWindow.handle DynamicWindow.windowHandler
      { periodColumnName := options.convertOptions.periodOption.map Prod.fst
        everyColumnName := options.convertOptions.everyOption.map Prod.fst })
    true

def derivativeUdf (calculator : Derivative.DerivativeCalculator)
    (options : Derivative.DerivativeOptions) :
    StreamUdf (GroupsStates Derivative.DerivativeHandler) :=
  dispatchUdf (basePointsConverter orders.pointGroups renderScalar) {}
    (Derivative.handle calculator options) false

def statefulThresholdUdf (options : Threshold.Options Double) :
    StreamUdf (GroupsStates (Threshold.ThresholdState Double)) :=
  dispatchUdf (basePointsConverter orders.pointGroups renderScalar)
    (Threshold.initialState options) (Threshold.handle options) false true

def streamAggregatePipeline (options : Aggregate.AggregateOptions) :
    VectorHandler Window.WindowHandler :=
  PipelineHandler.handle [
    handleVector Window.handle,
    fun recordBatches => ofExcept (Aggregate.handle renderScalar orders.batchGroups
      { options with aggregateColumns := orders.aggregateColumns options.aggregateColumns }
      recordBatches)]

/-- The windows are a second longer than the tolerance. -/
def streamAggregateUdf (options : Aggregate.AggregateOptions) (tolerance : Int) :
    StreamUdf Window.WindowHandler where
  pointsConverter := basePointsConverter orders.pointGroups renderScalar
  handler := streamAggregatePipeline orders renderScalar options
  created := { options := ⟨tolerance + 1, tolerance + 1, true⟩ }
  providesBatch := false

end Init

/-- The stream UDFs with a state, each with the options that its `init` has parsed. -/
inductive StatefulUdf where
  | dynamicWindow (options : DynamicWindowRequestHandler.WindowOptions)
  | derivative (calculator : Derivative.DerivativeCalculator)
      (options : Derivative.DerivativeOptions)
  | statefulThreshold (options : Threshold.Options Double)
  | streamAggregate (options : Aggregate.AggregateOptions) (tolerance : Int)

namespace StatefulUdf

def State : StatefulUdf → Type
  | .dynamicWindow _ => GroupsStates Window.WindowHandler
  | .derivative _ _ => GroupsStates Derivative.DerivativeHandler
  | .statefulThreshold _ => GroupsStates (Threshold.ThresholdState Double)
  | .streamAggregate _ _ => Window.WindowHandler

variable (orders : MapOrders) (renderScalar : DataType → Value → String)

def init : (kind : StatefulUdf) → StreamUdf kind.State
  | .dynamicWindow options => dynamicWindowUdf orders renderScalar options
  | .derivative calculator options => derivativeUdf orders renderScalar calculator options
  | .statefulThreshold options => statefulThresholdUdf orders renderScalar options
  | .streamAggregate options tolerance => streamAggregateUdf orders renderScalar options tolerance

end StatefulUdf

end StreamDataProcessor.Kapacitor
