import StreamDataProcessor.Foundation.Machine
import StreamDataProcessor.Kapacitor.DynamicWindowRequestHandler
import StreamDataProcessor.Kapacitor.PointsStorage
import StreamDataProcessor.Kapacitor.RequestReader

/-!
# The agent of a UDF

`UDFAgent` between a stream of bytes from Kapacitor and a request handler. A session is
the agent without its reader: it is given whole requests. `SerializeAsString` and
`ParseFromString` are parameters.
-/

namespace StreamDataProcessor.Kapacitor.UdfAgent

open Foundation.Framing Arrow Utils.Uvarint RequestReader
open DynamicWindowRequestHandler (RequestOption ValueType)

set_option autoImplicit false

inductive EdgeType where
  | stream
  | batch
  deriving DecidableEq, Repr

structure InfoResponse where
  wants : EdgeType
  provides : EdgeType
  options : List (String × List ValueType) := []

/-- `agent::Request`; `unhandled` stands for every other `message_case`. -/
inductive Request where
  | info
  | init (options : List RequestOption)
  | keepalive (time : Int)
  | snapshot
  | restore (snapshot : Bytes)
  | beginBatch (batch : BeginBatch)
  | point (point : Point)
  | endBatch (batch : EndBatch)
  | unhandled (number : Nat)

inductive AgentResponse where
  | info (info : InfoResponse)
  | init (success : Bool) (error : String)
  | keepalive (time : Int)
  | response (response : Response)

/-- What a method of a request handler leaves: the state, the responses it has written
through its agent, and the value it returns or the fault that ends it. -/
structure Left (State Value : Type) where
  state : State
  written : List AgentResponse := []
  outcome : Outcome Value

/-- The interface `RequestHandler`; `tick` is an event of a handle of the handler's own. -/
structure RequestHandler (State : Type) where
  info : State → Left State AgentResponse
  init : List RequestOption → State → Left State AgentResponse
  snapshot : State → Left State AgentResponse
  restore : Bytes → State → Left State AgentResponse
  beginBatch : BeginBatch → State → Left State Unit
  point : Point → State → Left State Unit
  endBatch : EndBatch → State → Left State Unit
  tick : State → Left State Unit
  stop : State → Left State Unit

variable {State : Type}

/-- A response that a method returns is written after those that it has written itself. -/
def answered (left : Left State AgentResponse) : Left State Unit :=
  match left.outcome with
  | .ok response => ⟨left.state, left.written ++ [response], .ok ()⟩
  | .error fault => ⟨left.state, left.written, .error fault⟩

def handleRequest (handler : RequestHandler State) : Request → State → Left State Unit
  | .info, state => answered (handler.info state)
  | .init options, state => answered (handler.init options state)
  | .keepalive time, state => ⟨state, [.keepalive time], .ok ()⟩
  | .snapshot, state => answered (handler.snapshot state)
  | .restore snapshot, state => answered (handler.restore snapshot state)
  | .beginBatch batch, state => handler.beginBatch batch state
  | .point point, state => handler.point point state
  | .endBatch batch, state => handler.endBatch batch state
  | .unhandled _, state => ⟨state, [], .ok ()⟩

/-- What a call of `readRequests` with a handler leaves; `exhausted` would be a loop that
never ends. -/
inductive CallEnding where
  | returned
  | threw (what : String)
  | crashed (fault : Fault)
  | exhausted

def CallEnding.ofFault : Fault → CallEnding
  | .exception what => .threw what
  | fault => .crashed fault

structure Call (State : Type) where
  reader : Reader
  state : State
  written : List AgentResponse
  ending : CallEnding

def Call.after (written : List AgentResponse) (call : Call State) : Call State :=
  { call with written := written ++ call.written }

variable (parse : Bytes → Request) (handler : RequestHandler State)

/-- The loop of `readRequests`, which gives every request to the handler before it reads
the next one. -/
def handleLoop : Nat → Reader → Bytes → State → Call State
  | 0, reader, _, state => ⟨reader, state, [], .exhausted⟩
  | fuel + 1, reader, input, state =>
      let request := if reader.residualRequestSize = 0 then decode input
        else .ok (reader.residualRequestSize, input)
      match request with
      | .error .eof => ⟨reader, state, [], .returned⟩
      | .error (.runtimeError what) => ⟨reader, state, [], .threw what⟩
      | .ok (requestSize, input) =>
          let gcount := min requestSize input.length
          let requestData := reader.residualRequestData ++
            (input.take requestSize ++ List.replicate (requestSize - gcount) 0)
          if gcount < requestSize then
            ⟨⟨requestData.take gcount, requestSize - gcount⟩, state, [], .returned⟩
          else
            let left := handleRequest handler (parse requestData) state
            match left.outcome with
            | .ok _ => (handleLoop fuel {} (input.drop requestSize) left.state).after left.written
            | .error fault => ⟨{}, left.state, left.written, .ofFault fault⟩

/-- What has become of the handler and of the two ends of the connection; `written` is what
was written before they were shut down, and a fault ends the process. -/
structure Session (State : Type) where
  state : State
  written : List AgentResponse := []
  shut : Bool := false
  fault : Option Fault := none

namespace Session

def running (session : Session State) : Bool := !session.shut && session.fault.isNone

def write (session : Session State) (responses : List AgentResponse) : Session State :=
  if session.shut then session
  else { session with written := session.written ++ responses }

def absorb (session : Session State) (state : State) (written : List AgentResponse) :
    Session State :=
  ({ session with state } : Session State).write written

def stop (session : Session State) : Session State :=
  let left := handler.stop session.state
  let session := session.absorb left.state left.written
  match left.outcome with
  | .ok _ => { session with shut := true }
  | .error fault => { session with fault := some fault }

def report (session : Session State) (what : String) : Session State :=
  (session.write [.response (.error s!"error processing request: {what}")]).stop handler

def conclude (session : Session State) : CallEnding → Session State
  | .returned => session
  | .threw what => session.report handler what
  | .crashed fault => { session with fault := some fault }
  | .exhausted => { session with fault := some .diverges }

def handle (session : Session State) (request : Request) : Session State :=
  let left := handleRequest handler request session.state
  let session := session.absorb left.state left.written
  match left.outcome with
  | .ok _ => session
  | .error fault => session.conclude handler (.ofFault fault)

def tick (session : Session State) : Session State :=
  let left := handler.tick session.state
  let session := session.absorb left.state left.written
  match left.outcome with
  | .ok _ => session
  | .error fault => { session with fault := some fault }

/-- What happens to a session; the connection ends once, the server may stop at any time. -/
inductive Action where
  | request (request : Request)
  | tick
  | ended
  | stop

def Action.request? : Action → Option Request
  | .request asked => some asked
  | _ => none

def step (session : Session State) : Action → Session State × Unit
  | .request request => (if session.running then session.handle handler request else session, ())
  | .tick => (if session.fault.isNone then session.tick handler else session, ())
  | .ended => (if session.running then session.stop handler else session, ())
  | .stop => (if session.fault.isNone then session.stop handler else session, ())

end Session

structure Agent (State : Type) where
  reader : Reader := {}
  session : Session State

namespace Agent

/-- What happens to an agent: a `DataEvent`, or what also happens to a session. -/
inductive Action where
  | data (bytes : Bytes)
  | other (action : Session.Action) (isOther : action.request? = none)

def handleData (agent : Agent State) (bytes : Bytes) : Agent State :=
  let call := handleLoop parse handler (bytes.length + 1) agent.reader bytes agent.session.state
  ⟨call.reader, (agent.session.absorb call.state call.written).conclude handler call.ending⟩

def step (agent : Agent State) : Action → Agent State × Unit
  | .data bytes => (if agent.session.running then agent.handleData parse handler bytes else agent, ())
  | .other action _ => ({ agent with session := (agent.session.step handler action).1 }, ())

def Action.data? : Action → Option Bytes
  | .data bytes => some bytes
  | _ => none

def Action.other? : Action → Option Session.Action
  | .data _ => none
  | .other action _ => some action

def output (serialize : AgentResponse → Bytes) (agent : Agent State) : Bytes :=
  (agent.session.written.map serialize).flatMap writeWithUvarintLength

end Agent

end StreamDataProcessor.Kapacitor.UdfAgent
