import StreamDataProcessor.Kapacitor.PointsStorage

/-!
# Request handlers over a storage

`record_batch_request_handler.cpp`. A status of `handleBatch` is logged and
forgotten; an exception leaves the request where it was raised. The agent writes
the response that a snapshot or a restore returns.
-/

namespace StreamDataProcessor.Kapacitor

open Foundation.Effect Arrow Utils.Uvarint

set_option autoImplicit false

variable {State : Type}

namespace PointsStorage

/-- `handleBatch` where its status is only logged. -/
def handleBatchLogged (storage : PointsStorage State) :
    EStateM Fault (Contents State) Unit := fun contents =>
  match storage.handleBatch contents with
  | .error (.status _) after => .ok () after
  | result => result

end PointsStorage

def snapshotText (snapshot : Bytes) : String :=
  String.ofList (snapshot.map fun byte => Char.ofNat byte.toNat)

def inBatchFlag : UInt8 := 49

def outOfBatchFlag : UInt8 := 48

structure BatchState (State : Type) where
  inBatch : Bool := false
  contents : Contents State

/-- `BatchRecordBatchRequestHandlerBase`, of which `pointsStorage` may be a null pointer. -/
structure BatchRequestHandler (State : Type) where
  pointsStorage : Option (PointsStorage State)
  codec : PointsCodec

structure StreamRequestHandler (State : Type) where
  pointsStorage : Option (PointsStorage State)
  codec : PointsCodec

inductive BatchRequest where
  | beginBatch
  | point (point : Point)
  | endBatch (name : String)
  | snapshot
  | restore (snapshot : Bytes)

inductive StreamRequest where
  | point (point : Point)
  | flush
  | snapshot
  | restore (snapshot : Bytes)

namespace BatchRequestHandler

open PointsStorage

variable (handler : BatchRequestHandler State)

def onStorage {Value : Type} (action : EStateM Fault (Contents State) Value) :
    EStateM Fault (BatchState State) Value := fun state =>
  match action state.contents with
  | .ok value contents => .ok value { state with contents }
  | .error fault contents => .error fault { state with contents }

def snapshot : EStateM Fault (BatchState State) Response := do
  match handler.pointsStorage with
  | none =>
      onStorage (writeResponse
        (.error "Can't provide snapshot. PointsStorage is not provided"))
      return .snapshot []
  | some _ =>
      let state ← get
      let flag := if state.inBatch then inBatchFlag else outOfBatchFlag
      return .snapshot (flag :: handler.codec.serialize state.contents.points)

def restore (restoreSnapshot : Bytes) : EStateM Fault (BatchState State) Response :=
  match handler.pointsStorage, restoreSnapshot with
  | none, _ =>
      return .restore false "Can't restore from snapshot. PointsStorage is not provided"
  | some _, [] => return .restore false "Can't restore from empty snapshot"
  | some _, flag :: rest => do
      let text := snapshotText (flag :: rest)
      let invalid := Response.restore false s!"Invalid snapshot: {text}"
      if flag ≠ outOfBatchFlag ∧ flag ≠ inBatchFlag then return invalid
      else do
        let success ← onStorage (PointsStorage.restore handler.codec rest)
        if success then do
          modify fun state => { state with inBatch := flag = inBatchFlag }
          return .restore true ""
        else return invalid

def beginBatch : EStateM Fault (BatchState State) Unit :=
  modify fun state => { state with inBatch := true }

def point (point : Point) : EStateM Fault (BatchState State) Unit := do
  match handler.pointsStorage with
  | none =>
      onStorage (writeResponse (.error "Can't handle point. PointsStorage is not provided"))
  | some _ =>
      let state ← get
      if state.inBatch then onStorage (addPoint point)
      else onStorage (writeResponse (.error "Can't add point: not in batch"))

/-- `endBatch`, which goes on after it has found that no batch was begun. -/
def endBatch (name : String) : EStateM Fault (BatchState State) Unit := do
  match handler.pointsStorage with
  | none =>
      onStorage (writeResponse
        (.error "Can't handle EndBatch message. PointsStorage is not provided"))
  | some storage =>
      let state ← get
      if ¬state.inBatch then
        onStorage (writeResponse (.error "Can't end batch: currently not in batch"))
      onStorage (setPointsName name)
      onStorage storage.handleBatchLogged
      onStorage clear
      modify fun state => { state with inBatch := false }

def handleRequest : BatchRequest → EStateM Fault (BatchState State) Unit
  | .beginBatch => beginBatch
  | .point point => handler.point point
  | .endBatch name => handler.endBatch name
  | .snapshot => do
      let response ← handler.snapshot
      onStorage (writeResponse response)
  | .restore restoreSnapshot => do
      let response ← handler.restore restoreSnapshot
      onStorage (writeResponse response)

def handleRequests : List BatchRequest → EStateM Fault (BatchState State) Unit
  | [] => pure ()
  | request :: rest => do
      handler.handleRequest request
      handleRequests rest

end BatchRequestHandler

namespace StreamRequestHandler

open PointsStorage

variable (handler : StreamRequestHandler State)

def snapshot : EStateM Fault (Contents State) Response := do
  match handler.pointsStorage with
  | none =>
      writeResponse (.error "Can't provide snapshot. PointsStorage is not provided")
      return .snapshot []
  | some _ =>
      let contents ← get
      return .snapshot (handler.codec.serialize contents.points)

def restore (restoreSnapshot : Bytes) : EStateM Fault (Contents State) Response := do
  match handler.pointsStorage with
  | none =>
      return .restore false "Can't restore from snapshot. PointsStorage is not provided"
  | some _ =>
      let success ← PointsStorage.restore handler.codec restoreSnapshot
      let text := snapshotText restoreSnapshot
      return if success then .restore true ""
        else .restore false s!"Can't restore from snapshot: {text}"

def handleBatch : EStateM Fault (Contents State) Unit := do
  match handler.pointsStorage with
  | none => writeResponse (.error "Can't handle batch. PointsStorage is not provided")
  | some storage =>
      storage.handleBatchLogged
      clear

def point (point : Point) : EStateM Fault (Contents State) Unit := do
  match handler.pointsStorage with
  | none => writeResponse (.error "Can't handle point. PointsStorage is not provided")
  | some _ => addPoint point

def handleRequest : StreamRequest → EStateM Fault (Contents State) Unit
  | .point point => handler.point point
  | .flush => handler.handleBatch
  | .snapshot => do
      let response ← handler.snapshot
      writeResponse response
  | .restore restoreSnapshot => do
      let response ← handler.restore restoreSnapshot
      writeResponse response

def handleRequests : List StreamRequest → EStateM Fault (Contents State) Unit
  | [] => pure ()
  | request :: rest => do
      handler.handleRequest request
      handleRequests rest

end StreamRequestHandler

end StreamDataProcessor.Kapacitor
