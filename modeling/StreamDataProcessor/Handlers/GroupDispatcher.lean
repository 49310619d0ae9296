import StreamDataProcessor.Foundation.Dispatch
import StreamDataProcessor.Metadata.Access

/-!
# Handlers of several batches

The vector overload of `record_batch_handler.h`, `GroupDispatcher` and `PipelineHandler`. The
unordered map of a dispatcher is a function; a handler that fails leaves its entry behind.
-/

namespace StreamDataProcessor.Handlers

open Foundation Arrow Metadata

set_option autoImplicit false

variable {State : Type}

abbrev BatchHandler (State : Type) := RecordBatch → EStateM Fault State (List RecordBatch)

abbrev VectorHandler (State : Type) := List RecordBatch → EStateM Fault State (List RecordBatch)

/-- The vector overload of a handler that does not override it. -/
def handleVector (handle : BatchHandler State) : VectorHandler State := Dispatch.each handle

abbrev GroupsStates (State : Type) := RecordBatchGroup → Option State

/-- `GroupDispatcher::handle`; the handlers that the factory creates start in the given state. -/
def GroupDispatcher.handle (createHandler : State) (handle : BatchHandler State) :
    BatchHandler (GroupsStates State) := Dispatch.dispatch extractGroup createHandler handle

/-- `PipelineHandler::handle` on a vector, over handlers with one state. -/
def PipelineHandler.handle : List (VectorHandler State) → VectorHandler State
  | [], recordBatches => pure recordBatches
  | handler :: rest, recordBatches => do
      let result ← handler recordBatches
      PipelineHandler.handle rest result

end StreamDataProcessor.Handlers
