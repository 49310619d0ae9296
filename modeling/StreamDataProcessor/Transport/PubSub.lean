import StreamDataProcessor.Foundation.Machine
import StreamDataProcessor.Utils.TransportUtils
import Mathlib.Data.Fintype.Card
import Mathlib.Logic.Function.Basic

/-!
# A publisher and its subscribers

`PublisherConsumer` and `SubscriberProducer` over their sockets. Control messages
travel among the data, so a message carries a mark of where it comes from that
neither party sees. An event of a closed handle changes nothing.
-/

namespace StreamDataProcessor.Transport.PubSub

open Utils.Uvarint Utils.TransportUtils

set_option autoImplicit false

structure Message where
  bytes : Bytes
  fromBuffer : Bool
  deriving DecidableEq, Repr

def connectControl : Message := ⟨connectMessage, false⟩

def endControl : Message := ⟨endMessage, false⟩

/-- One subscriber and what lies between it and the publisher: published messages on
their way and in its socket, whether some CONNECT message has reached it, messages
in the publisher's synchronize socket and whether that socket's poller is closed.
`mistaken` collects data messages that were taken for control messages. -/
structure Peer where
  inFlight : List Message := []
  reached : Bool := false
  socket : List Message := []
  synchronizeMessages : Nat := 0
  pollerClosed : Bool := false
  started : Bool := false
  isReady : Bool := false
  readyToConfirmConnection : Bool := false
  synchronizePollerClosed : Bool := false
  stopped : Bool := false
  handled : List Bytes := []
  mistaken : List Bytes := []
  deriving DecidableEq, Repr

namespace Peer

def start (peer : Peer) : Peer :=
  if peer.started then peer else { peer with socket := [], started := true }

def confirmConnection (peer : Peer) : Peer :=
  { peer with
    synchronizeMessages := peer.synchronizeMessages + 1
    synchronizePollerClosed := true }

def synchronizePoll (peer : Peer) : Peer :=
  if peer.started ∧ ¬peer.stopped ∧ ¬peer.synchronizePollerClosed then
    let peer := { peer with readyToConfirmConnection := true }
    if peer.isReady then peer.confirmConnection else { peer with synchronizePollerClosed := true }
  else peer

def takeForControl (peer : Peer) (message : Message) : Peer :=
  if message.fromBuffer then { peer with mistaken := peer.mistaken ++ [message.bytes] } else peer

def stop (peer : Peer) : Peer :=
  { peer with synchronizePollerClosed := true, stopped := true }

def handleMessage (peer : Peer) (message : Message) : Peer :=
  if message.bytes = endMessage then (peer.takeForControl message).stop
  else if ¬peer.isReady then
    let peer := { peer.takeForControl message with isReady := true }
    if peer.readyToConfirmConnection then peer.confirmConnection else peer
  else if message.bytes ≠ connectMessage then
    { peer with handled := peer.handled ++ [message.bytes] }
  else peer.takeForControl message

def readMessage (peer : Peer) : Peer :=
  if peer.started ∧ ¬peer.stopped then
    match peer.socket with
    | [] => peer
    | message :: rest => { peer with socket := rest }.handleMessage message
  else peer

def arrive (peer : Peer) : Peer :=
  match peer.inFlight with
  | [] => peer
  | message :: rest =>
      { peer with
        inFlight := rest
        reached := peer.reached || message.bytes = connectMessage
        socket := peer.socket ++ [message] }

/-- A published message is lost, which happens only before a CONNECT message got through. -/
def lose (peer : Peer) (position : Nat) : Peer :=
  if peer.reached then peer else { peer with inFlight := peer.inFlight.eraseIdx position }

def publish (message : Message) (peer : Peer) : Peer :=
  { peer with inFlight := peer.inFlight ++ [message] }

end Peer

/-- The publisher with its `n` subscribers; `consumed` and `published` are the buffers
given to `consume` and those sent so far. -/
structure System (n : Nat) where
  expectedSubscribers : Int := n
  dataBuffers : List Bytes := []
  socketIsWriteable : Bool := false
  timerStopped : Bool := false
  closed : Bool := false
  consumed : List Bytes := []
  published : List Bytes := []
  peers : Fin n → Peer := fun _ => {}

namespace System

variable {n : Nat}

def isReady (system : System n) : Bool := system.expectedSubscribers ≤ 0

def send (system : System n) (message : Message) : System n :=
  { system with peers := fun index => (system.peers index).publish message }

def consume (system : System n) (data : Bytes) : System n :=
  if system.closed then system
  else
    { system with
      dataBuffers := system.dataBuffers ++ [data]
      consumed := system.consumed ++ [data] }

def timerTick (system : System n) : System n :=
  if system.closed ∨ system.timerStopped then system
  else if ¬system.isReady ∧ system.socketIsWriteable then
    { system.send connectControl with socketIsWriteable := false }
  else if system.isReady then { system with timerStopped := true }
  else system

def flushBuffer (system : System n) : System n :=
  match system.dataBuffers with
  | [] => system
  | data :: rest =>
      { system.send ⟨data, true⟩ with
        socketIsWriteable := false
        dataBuffers := rest
        published := system.published ++ [data] }

/-- `startSending`, where the socket shows `ZMQ_POLLOUT` the given number of times. -/
def startSending : Nat → System n → System n
  | 0, system => system
  | count + 1, system =>
      let system := { system with socketIsWriteable := true }
      if system.isReady ∧ system.dataBuffers ≠ [] then startSending count system.flushBuffer
      else system

def poll (system : System n) (writeable : Nat) : System n :=
  if system.closed then system else startSending writeable system

def setPeer (system : System n) (index : Fin n) (peer : Peer) : System n :=
  { system with peers := Function.update system.peers index peer }

def synchronizeMessage (system : System n) (index : Fin n) : System n :=
  let peer := system.peers index
  if system.closed ∨ peer.pollerClosed ∨ peer.synchronizeMessages = 0 then system
  else
    { system.setPeer index
        { peer with
          synchronizeMessages := peer.synchronizeMessages - 1
          pollerClosed := true } with
      expectedSubscribers := system.expectedSubscribers - 1 }

def stop (system : System n) (writeable : Nat) : System n :=
  if system.closed then system
  else { (startSending writeable system).send endControl with closed := true }

end System

inductive Action (n : Nat) where
  | consume (data : Bytes)
  | timerTick
  | poll (writeable : Nat)
  | synchronizeMessage (index : Fin n)
  | stop (writeable : Nat)
  | start (index : Fin n)
  | synchronizePoll (index : Fin n)
  | readMessage (index : Fin n)
  | arrive (index : Fin n)
  | lose (index : Fin n) (position : Nat)
  deriving DecidableEq

def System.change {n : Nat} (system : System n) (index : Fin n) (action : Peer → Peer) :
    System n :=
  system.setPeer index (action (system.peers index))

def step {n : Nat} (system : System n) : Action n → System n × Unit
  | .consume data => (system.consume data, ())
  | .timerTick => (system.timerTick, ())
  | .poll writeable => (system.poll writeable, ())
  | .synchronizeMessage index => (system.synchronizeMessage index, ())
  | .stop writeable => (system.stop writeable, ())
  | .start index => (system.change index Peer.start, ())
  | .synchronizePoll index => (system.change index Peer.synchronizePoll, ())
  | .readMessage index => (system.change index Peer.readMessage, ())
  | .arrive index => (system.change index Peer.arrive, ())
  | .lose index position => (system.change index (Peer.lose · position), ())

/-- What lossless and ordered means in one state: what a node was given are the first of the
consumed buffers; a node that was stopped, or whose messages have all come after the publisher
stopped, was given every one; no buffer is sent before all subscribers have confirmed and none is
taken for a control message. -/
structure Lossless {n : Nat} (system : System n) : Prop where
  ordered : ∀ index, (system.peers index).handled <+: system.consumed
  stoppedLast : ∀ index, (system.peers index).stopped = true →
    (system.peers index).handled = system.consumed
  complete : system.closed = true → ∀ index, (system.peers index).socket = [] →
    (system.peers index).inFlight = [] → (system.peers index).handled = system.consumed
  confirmedFirst : system.published ≠ [] → ∀ index, (system.peers index).pollerClosed = true
  nothingMistaken : ∀ index, (system.peers index).mistaken = []

end StreamDataProcessor.Transport.PubSub
