import StreamDataProcessor.Arrow.Table
import StreamDataProcessor.Foundation.Effect
import StreamDataProcessor.Nodes.PipelineRuns

/-!
# Nodes that handle record batches

`DataParser` and `SerializedRecordBatchHandler`: the first node of a pipeline parses its data,
the others read the record batches back that the node above has written, one in each buffer.
What comes to a node is what the parser and the handlers above it make of the data, and nothing
of the way it is written.
-/

namespace StreamDataProcessor.Nodes.RecordBatchNodes

open Foundation.Machine Foundation.Dataflow Arrow Utils.Uvarint EvalNode Pipelines

set_option autoImplicit false

/-- A stream writer and a stream reader of record batches: what is written for a batch reads
back as the batch alone. An error is the message of a status. -/
structure StreamFormat where
  writeRecordBatch : RecordBatch → Except String Bytes
  readAll : Bytes → Except String (List RecordBatch)
  roundTrip : ∀ recordBatch buffer, writeRecordBatch recordBatch = .ok buffer →
    readAll buffer = .ok [recordBatch]

def serializeRecordBatches (format : StreamFormat) (recordBatches : List RecordBatch) :
    Except String (List Bytes) :=
  recordBatches.mapM format.writeRecordBatch

def deserializeRecordBatches (format : StreamFormat) (buffer : Bytes) :
    Except String (List RecordBatch) :=
  format.readAll buffer

variable {Node Memory : Type*} [DecidableEq Node]

abbrev Parser (Memory : Type*) := Memory → Bytes → Memory × Except String (List RecordBatch)

/-- `RecordBatchHandler::handle` of a handler that throws nothing. -/
abbrev HandlerStrategy (Memory : Type*) :=
  Memory → List RecordBatch → Memory × Except String (List RecordBatch)

def dataParser (format : StreamFormat) (parseRecordBatches : Parser Memory) :
    DataHandler Memory := fun memory source =>
  match parseRecordBatches memory source with
  | (after, .error message) => (after, .error message)
  | (after, .ok recordBatches) =>
      if recordBatches = [] then (after, .ok [])
      else (after, serializeRecordBatches format recordBatches)

def serializedRecordBatchHandler (format : StreamFormat) (handle : HandlerStrategy Memory) :
    DataHandler Memory := fun memory source =>
  match deserializeRecordBatches format source with
  | .error message => (memory, .error message)
  | .ok recordBatches =>
      if recordBatches = [] then (memory, .ok [])
      else match handle memory recordBatches with
        | (after, .error message) => (after, .error message)
        | (after, .ok result) => (after, serializeRecordBatches format result)

inductive Strategy (Memory : Type*) where
  | parser (parseRecordBatches : Parser Memory)
  | handler (handle : HandlerStrategy Memory)

def Strategy.dataHandler (format : StreamFormat) : Strategy Memory → DataHandler Memory
  | .parser parseRecordBatches => dataParser format parseRecordBatches
  | .handler handle => serializedRecordBatchHandler format handle

section Batches

variable (format : StreamFormat)

/-- What of a result is passed on: all of it, or nothing where the call has failed or a batch
of it cannot be written. -/
def passedOn : Except String (List RecordBatch) → List RecordBatch
  | .error _ => []
  | .ok recordBatches =>
      if (serializeRecordBatches format recordBatches).isOk then recordBatches else []

def parseData (parseRecordBatches : Parser Memory) (memory : Memory) (data : Bytes) :
    Memory × List RecordBatch :=
  ((parseRecordBatches memory data).1, passedOn format (parseRecordBatches memory data).2)

def handleBatch (handle : HandlerStrategy Memory) (memory : Memory) (recordBatch : RecordBatch) :
    Memory × List RecordBatch :=
  ((handle memory [recordBatch]).1, passedOn format (handle memory [recordBatch]).2)

def Holds (data : Bytes) (recordBatch : RecordBatch) : Prop :=
  deserializeRecordBatches format data = .ok [recordBatch]

variable {format}

theorem serialized_holds (recordBatches : List RecordBatch) :
    List.Forall₂ (Holds format)
      (match serializeRecordBatches format recordBatches with
        | .ok buffers => buffers
        | .error _ => [])
      (passedOn format (.ok recordBatches)) := by
  rw [passedOn]
  cases written : serializeRecordBatches format recordBatches with
  | error message => exact .nil
  | ok buffers =>
      have each := Foundation.Effect.map_m_ok_iff.mp written
      exact (each.imp fun recordBatch buffer writes => format.roundTrip recordBatch buffer writes).flip

theorem parser_passes (parseRecordBatches : Parser Memory) (memory : Memory) (data : Bytes) :
    (process (dataParser format parseRecordBatches) memory data).1 =
        (parseData format parseRecordBatches memory data).1 ∧
      List.Forall₂ (Holds format) (process (dataParser format parseRecordBatches) memory data).2
        (parseData format parseRecordBatches memory data).2 := by
  unfold process evaluate dataParser parseData
  rcases parsed : parseRecordBatches memory data with ⟨after, message | recordBatches⟩
  · exact ⟨rfl, .nil⟩
  · have holds := @serialized_holds format recordBatches
    dsimp only
    by_cases empty : recordBatches = []
    · rw [if_pos empty, empty]
      exact ⟨rfl, .nil⟩
    · rw [if_neg empty]
      cases written : serializeRecordBatches format recordBatches with
      | error message =>
          rw [written] at holds
          exact ⟨rfl, holds⟩
      | ok buffers =>
          rw [written] at holds
          exact ⟨rfl, holds⟩

theorem handler_passes (handle : HandlerStrategy Memory) (memory : Memory) {data : Bytes}
    {recordBatch : RecordBatch} (holds : Holds format data recordBatch) :
    (process (serializedRecordBatchHandler format handle) memory data).1 =
        (handleBatch format handle memory recordBatch).1 ∧
      List.Forall₂ (Holds format)
        (process (serializedRecordBatchHandler format handle) memory data).2
        (handleBatch format handle memory recordBatch).2 := by
  unfold process evaluate serializedRecordBatchHandler handleBatch
  rw [holds]
  dsimp only
  rw [if_neg (List.cons_ne_nil _ _)]
  rcases handled : handle memory [recordBatch] with ⟨after, message | result⟩
  · exact ⟨rfl, .nil⟩
  · have passes := @serialized_holds format result
    dsimp only
    cases written : serializeRecordBatches format result with
    | error message =>
        rw [written] at passes
        exact ⟨rfl, passes⟩
    | ok buffers =>
        rw [written] at passes
        exact ⟨rfl, passes⟩

end Batches

section Network

variable (format : StreamFormat) (wiring : Wiring Node) (strategies : Node → Strategy Memory)
  (initial : Node → Memory)

/-- The record batches that come to a node when every source is given its data: those that the
parser of a source makes of them, handled by one node after the other. -/
inductive Delivers (given : Node → List Bytes) : Node → List RecordBatch → Prop
  | parsed {node above : Node} {parseRecordBatches : Parser Memory}
      (joined : wiring.upstream node = some above) (root : wiring.upstream above = none)
      (parses : strategies above = .parser parseRecordBatches) :
      Delivers given node (outputs (parseData format parseRecordBatches) (initial above) (given above))
  | handled {node above : Node} {handle : HandlerStrategy Memory} {recordBatches : List RecordBatch}
      (joined : wiring.upstream node = some above) (handles : strategies above = .handler handle)
      (delivered : Delivers given above recordBatches) :
      Delivers given node (outputs (handleBatch format handle) (initial above) recordBatches)

def dataHandlers (node : Node) : DataHandler Memory := (strategies node).dataHandler format

variable {format wiring strategies initial} {given : Node → List Bytes}

/-- What comes to a node as bytes holds the record batches that come to it. -/
theorem delivers_carries {node : Node} {recordBatches : List RecordBatch}
    (delivers : Delivers format wiring strategies initial given node recordBatches) :
    ∃ items, (graph wiring (dataHandlers format strategies) initial).Carries given node items ∧
      List.Forall₂ (Holds format) items recordBatches := by
  induction delivers with
  | @parsed node above parseRecordBatches joined root parses =>
      refine ⟨_, .link joined (.source root), ?_⟩
      have same : List.Forall₂ (fun item view : Bytes => item = view) (given above) (given above) :=
        List.forall₂_same.mpr fun _ _ => rfl
      have own : dataHandlers format strategies above = dataParser format parseRecordBatches := by
        rw [dataHandlers, parses]
        rfl
      show List.Forall₂ _ (outputs (process (dataHandlers format strategies above)) _ _) _
      rw [own]
      apply outputs_related _ same
      rintro memory data _ rfl
      exact parser_passes parseRecordBatches memory data
  | @handled node above handle recordBatches joined handles _ induction =>
      obtain ⟨items, carried, holds⟩ := induction
      refine ⟨_, .link joined carried, ?_⟩
      have own : dataHandlers format strategies above =
          serializedRecordBatchHandler format handle := by
        rw [dataHandlers, handles]
        rfl
      show List.Forall₂ _ (outputs (process (dataHandlers format strategies above)) _ _) _
      rw [own]
      apply outputs_related _ holds
      intro memory data recordBatch held
      exact handler_passes handle memory held

/-- In every run without a lossy step, what a node was given holds the first of the record
batches that come to it, one in each buffer, and all of them when it was stopped. -/
theorem nodes_receive_batches (format : StreamFormat) (wiring : Wiring Node)
    (strategies : Node → Strategy Memory) (initial : Node → Memory)
    (actions : List (Action Node))
    (harmless : StepsMeet (step wiring (dataHandlers format strategies))
      (Harmless wiring (dataHandlers format strategies)) { memory := initial } actions)
    (node : Node) (recordBatches : List RecordBatch)
    (delivers : Delivers format wiring strategies initial
      (run (step wiring (dataHandlers format strategies)) { memory := initial } actions).1.received
      node recordBatches) :
    let final := (run (step wiring (dataHandlers format strategies)) { memory := initial } actions).1
    ∃ taken, List.Forall₂ (Holds format) (final.received node) taken ∧ taken <+: recordBatches ∧
      (final.stopped node = true → taken = recordBatches) := by
  intro final
  have settled := settled_run harmless
  obtain ⟨items, carried, holds⟩ := delivers_carries delivers
  obtain ⟨missing, begins⟩ := Graph.taken_begins (settled_begins settled) carried
  refine ⟨recordBatches.take (final.received node).length, ?_, List.take_prefix _ _, ?_⟩
  · have flipped := holds.flip
    rw [← begins] at flipped
    exact (List.forall₂_take_append _ _ _ flipped).flip
  · intro stops
    have whole : final.received node = items :=
      Graph.taken_whole (fun other above joined halted =>
        settled_whole settled other above joined halted) carried stops
    rw [whole, holds.length_eq, List.take_length]

end Network

def ticks (count : Nat) : RecordBatch where
  schema := { fields := [{ name := "tick", type := .int64 }] }
  rows := List.replicate count [some (.integer 0)]
  conforms := by
    intro row listed
    rw [List.eq_of_mem_replicate listed]
    exact .cons rfl .nil

def tickFormat : StreamFormat where
  writeRecordBatch recordBatch :=
    if recordBatch.schema = (ticks recordBatch.numRows).schema ∧
        recordBatch.rows = (ticks recordBatch.numRows).rows then
      .ok (7 :: List.replicate recordBatch.numRows 0)
    else .error "unexpected schema"
  readAll buffer := if buffer = [] then .error "no schema" else .ok [ticks (buffer.length - 1)]
  roundTrip := by
    intro recordBatch buffer written
    split at written
    · next own =>
      cases written
      have same : ticks recordBatch.numRows = recordBatch :=
        (RecordBatch.ext_rows own.1 own.2).symm
      rw [if_neg (List.cons_ne_nil _ _), List.length_cons, List.length_replicate,
        Nat.add_sub_cancel, same]
    · cases written

def tickParser : Parser Nat := fun count data => (count, .ok [ticks data.length, ticks 2])

def tickHandler : HandlerStrategy Nat := fun count recordBatches =>
  (count + 1, .ok (recordBatches.map fun recordBatch => recordBatch.sliceFrom count))

def tickStrategies (node : Fin 3) : Strategy Nat :=
  if node.val = 0 then .parser tickParser else .handler tickHandler

theorem ticks_received :
    List.Forall₂ (Holds tickFormat)
      ((run (step threeInLine (dataHandlers tickFormat tickStrategies)) { memory := fun _ => 0 }
        oneBufferThrough).1.received 2)
      (outputs (handleBatch tickFormat tickHandler) 0
        (outputs (parseData tickFormat tickParser) 0
          ((run (step threeInLine (dataHandlers tickFormat tickStrategies)) { memory := fun _ => 0 }
            oneBufferThrough).1.received 0))) := by
  obtain ⟨taken, holds, _, whole⟩ := nodes_receive_batches tickFormat threeInLine tickStrategies
    (fun _ => 0) oneBufferThrough (by decide +kernel) 2 _ (.handled rfl rfl (.parsed rfl rfl rfl))
  rw [whole (by decide +kernel)] at holds
  exact holds

end StreamDataProcessor.Nodes.RecordBatchNodes
