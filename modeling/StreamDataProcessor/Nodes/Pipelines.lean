import StreamDataProcessor.Foundation.Dataflow
import StreamDataProcessor.Nodes.EvalNode
import StreamDataProcessor.Transport.PubSubLossless

/-!
# Pipelines that subscribe to each other

`NodePipeline::subscribeTo` gives the other pipeline's node a `PublisherConsumer` and its
own node a `SubscriberProducer`. All handles belong to one loop, so the step of the whole
is one event of one handle together with what the nodes do in it.
-/

namespace StreamDataProcessor.Nodes.Pipelines

open Foundation.Machine Utils.Uvarint Transport.PubSub EvalNode

set_option autoImplicit false

variable {Node Memory : Type*} [DecidableEq Node]

/-- The calls of `subscribeTo`, each as the subscribing pipeline and the other one. A
pipeline has one producer, so it subscribes at most once. -/
structure Wiring (Node : Type*) where
  subscriptions : List (Node × Node)
  once : (subscriptions.map Prod.fst).Nodup

namespace Wiring

def consumers (wiring : Wiring Node) (node : Node) : List Node :=
  (wiring.subscriptions.filter (·.2 = node)).map Prod.fst

def upstream (wiring : Wiring Node) (node : Node) : Option Node :=
  (wiring.subscriptions.find? (·.1 = node)).map Prod.snd

theorem consumers_nodup (wiring : Wiring Node) (node : Node) : (wiring.consumers node).Nodup :=
  wiring.once.sublist (List.filter_sublist.map Prod.fst)

theorem mem_consumers_iff (wiring : Wiring Node) (node above : Node) :
    node ∈ wiring.consumers above ↔ wiring.upstream node = some above := by
  obtain ⟨subscriptions, once⟩ := wiring
  unfold consumers upstream
  induction subscriptions with
  | nil => simp
  | cons subscription rest induction =>
      obtain ⟨foreign, others⟩ := List.nodup_cons.mp once
      have later := induction others
      by_cases own : subscription.1 = node
      · have absent : ∀ other, (node, other) ∉ rest := by
          intro other member
          exact foreign (List.mem_map.mpr ⟨_, member, own.symm⟩)
        by_cases same : subscription.2 = above <;> simp_all
      · by_cases same : subscription.2 = above <;> simp_all [Ne.symm own]

end Wiring

/-- The nodes, the sockets that lead to each of them, what `handleData` of each was
called with, whether its `stop` was called and what it has logged as errors. -/
structure Network (Node Memory : Type*) where
  memory : Node → Memory
  edges : Node → System 1 := fun _ => {}
  received : Node → List Bytes := fun _ => []
  stopped : Node → Bool := fun _ => false
  errors : Node → List String := fun _ => []

def subscriber : Fin 1 := ⟨0, Nat.zero_lt_one⟩

/-- Events of the handles between two nodes in which neither node takes part. -/
inductive Event where
  | timerTick
  | poll (writeable : Nat)
  | synchronizeMessage
  | start
  | synchronizePoll
  | arrive
  | lose (position : Nat)
  deriving DecidableEq, Repr

def Event.action : Event → Transport.PubSub.Action 1
  | .timerTick => .timerTick
  | .poll writeable => .poll writeable
  | .synchronizeMessage => .synchronizeMessage subscriber
  | .start => .start subscriber
  | .synchronizePoll => .synchronizePoll subscriber
  | .arrive => .arrive subscriber
  | .lose position => .lose subscriber position

/-- A node without upstream gets its data and its end from a producer of its own. Whenever
a node stops, the sockets of its publishers show `ZMQ_POLLOUT` the given number of times. -/
inductive Action (Node : Type*) where
  | input (node : Node) (data : Bytes)
  | stopInput (node : Node) (writeable : Node → Nat)
  | event (node : Node) (event : Event)
  | readMessage (node : Node) (writeable : Node → Nat)

section Step

variable (wiring : Wiring Node) (handlers : Node → DataHandler Memory)

/-- `PublisherConsumer::consume` throws nothing. -/
def consumeEdge (buffer : Bytes) (edge : System 1) : System 1 × Option String :=
  (edge.consume buffer, none)

namespace Network

def setEdge (network : Network Node Memory) (node : Node) (edge : System 1) :
    Network Node Memory :=
  { network with edges := Function.update network.edges node edge }

@[simp] theorem set_edge_own (network : Network Node Memory) (node : Node) (edge : System 1) :
    (network.setEdge node edge).edges node = edge := Function.update_self _ _ _

theorem set_edge_of_ne (network : Network Node Memory) {node other : Node}
    (foreign : other ≠ node) (edge : System 1) :
    (network.setEdge node edge).edges other = network.edges other :=
  Function.update_of_ne foreign _ _

def handleData (network : Network Node Memory) (node : Node) (data : Bytes) :
    Network Node Memory :=
  let (memory, processedData, logged) := evaluate (handlers node) (network.memory node) data
  let (edges, thrown) := passData consumeEdge (wiring.consumers node) processedData network.edges
  { network with
    memory := Function.update network.memory node memory
    edges
    received := Function.update network.received node (network.received node ++ [data])
    errors := Function.update network.errors node (network.errors node ++ logged ++ thrown) }

/-- `EvalNode::stop`, which stops the consumers one after the other. -/
def stop (network : Network Node Memory) (node : Node) (writeable : Node → Nat) :
    Network Node Memory :=
  { network with
    edges := changeEach (fun consumer edge => edge.stop (writeable consumer))
      (wiring.consumers node) network.edges
    stopped := Function.update network.stopped node true }

/-- The edge to a node after the producer of the node has read a message. -/
def readEdge (network : Network Node Memory) (node : Node) : System 1 :=
  (network.edges node).change subscriber Peer.readMessage

omit [DecidableEq Node] in
theorem read_edge_peer (network : Network Node Memory) (node : Node) :
    (network.readEdge node).peers subscriber = ((network.edges node).peers subscriber).readMessage :=
  Function.update_self subscriber _ (network.edges node).peers

def calls (network : Network Node Memory) (node : Node) : List Bytes :=
  ((network.readEdge node).peers subscriber).handled.drop ((network.edges node).peers subscriber).handled.length

/-- The producer stops its node when the message it reads is the last one. -/
def ends (network : Network Node Memory) (node : Node) : Bool :=
  ((network.readEdge node).peers subscriber).stopped && !((network.edges node).peers subscriber).stopped

def readMessage (network : Network Node Memory) (node : Node) (writeable : Node → Nat) :
    Network Node Memory :=
  let called := (network.calls node).foldl (fun network data =>
    network.handleData wiring handlers node data) (network.setEdge node (network.readEdge node))
  if network.ends node then called.stop wiring node writeable else called

/-- A producer of the node that is no subscriber; a stopped one has closed its handles. -/
def isSource (network : Network Node Memory) (node : Node) : Bool :=
  (wiring.upstream node).isNone && !network.stopped node

end Network

def step (network : Network Node Memory) : Action Node → Network Node Memory × Unit
  | .input node data =>
      (if network.isSource wiring node then network.handleData wiring handlers node data
        else network, ())
  | .stopInput node writeable =>
      (if network.isSource wiring node then network.stop wiring node writeable else network, ())
  | .event node event =>
      (if (wiring.upstream node).isSome then
        network.setEdge node (Transport.PubSub.step (network.edges node) event.action).1
        else network, ())
  | .readMessage node writeable =>
      (if (wiring.upstream node).isSome then network.readMessage wiring handlers node writeable
        else network, ())

/-- None of the buffers a node passes for this data reads as a control message. -/
def Sendable (network : Network Node Memory) (node : Node) (data : Bytes) : Prop :=
  wiring.consumers node = [] ∨
    ∀ buffer ∈ (process (handlers node) (network.memory node) data).2, ¬Reserved buffer

/-- Every publisher of the node can send the rest of its queue. -/
def Flushed (network : Network Node Memory) (node : Node) (writeable : Node → Nat) : Prop :=
  ∀ consumer ∈ wiring.consumers node, (network.edges consumer).dataBuffers.length ≤
    if (network.edges consumer).isReady then writeable consumer else 0

/-- A step after which no transport has lost a buffer. -/
def Harmless (network : Network Node Memory) : Action Node → Prop
  | .input node data => Sendable wiring handlers network node data
  | .stopInput node writeable => Flushed wiring network node writeable
  | .event _ _ => True
  | .readMessage node writeable =>
      (∀ data ∈ network.calls node, Sendable wiring handlers network node data) ∧
        (network.ends node = true → Flushed wiring network node writeable)

instance (network : Network Node Memory) (action : Action Node) :
    Decidable (Harmless wiring handlers network action) :=
  match action with
  | .input node data => inferInstanceAs (Decidable (wiring.consumers node = [] ∨
      ∀ buffer ∈ (process (handlers node) (network.memory node) data).2, ¬Reserved buffer))
  | .stopInput node writeable => inferInstanceAs (Decidable (∀ consumer ∈ wiring.consumers node,
      (network.edges consumer).dataBuffers.length ≤
        if (network.edges consumer).isReady then writeable consumer else 0))
  | .event _ _ => .isTrue trivial
  | .readMessage node writeable => inferInstanceAs (Decidable
      ((∀ data ∈ network.calls node, wiring.consumers node = [] ∨
        ∀ buffer ∈ (process (handlers node) (network.memory node) data).2, ¬Reserved buffer) ∧
      (network.ends node = true → ∀ consumer ∈ wiring.consumers node,
        (network.edges consumer).dataBuffers.length ≤
          if (network.edges consumer).isReady then writeable consumer else 0)))

def graph (initial : Node → Memory) : Foundation.Dataflow.Graph Node Memory Bytes where
  upstream := wiring.upstream
  process node := process (handlers node)
  initial := initial

end Step

end StreamDataProcessor.Nodes.Pipelines
