import StreamDataProcessor.Nodes.Pipelines

/-!
# What pipelines compute

Every edge is sound in the sense of its transport, what a publisher was given is what its
node's handler has put out, and an edge is closed when the node above it has stopped. So
the order of the events cannot be seen in what a node gets.
-/

namespace StreamDataProcessor.Nodes.Pipelines

open Foundation.Machine Foundation.Dataflow Utils.Uvarint Transport.PubSub EvalNode

set_option autoImplicit false

section Edge

/-- An event in which neither node takes part leaves these as they are. -/
structure Quiet (before after : System 1) : Prop where
  consumed : after.consumed = before.consumed
  closed : after.closed = before.closed
  handled : (after.peers subscriber).handled = (before.peers subscriber).handled
  stopped : (after.peers subscriber).stopped = (before.peers subscriber).stopped

theorem quiet_refl (edge : System 1) : Quiet edge edge := ⟨rfl, rfl, rfl, rfl⟩

theorem Quiet.trans {first second third : System 1} (early : Quiet first second)
    (late : Quiet second third) : Quiet first third :=
  ⟨late.consumed.trans early.consumed, late.closed.trans early.closed,
    late.handled.trans early.handled, late.stopped.trans early.stopped⟩

theorem quiet_send (edge : System 1) (message : Message) : Quiet edge (edge.send message) :=
  ⟨rfl, rfl, rfl, rfl⟩

theorem quiet_flush_buffer (edge : System 1) : Quiet edge edge.flushBuffer := by
  unfold System.flushBuffer
  split
  · exact quiet_refl edge
  · exact ⟨rfl, rfl, rfl, rfl⟩

theorem quiet_start_sending (writeable : Nat) (edge : System 1) :
    Quiet edge (System.startSending writeable edge) := by
  induction writeable generalizing edge with
  | zero => exact quiet_refl edge
  | succ writeable induction =>
      unfold System.startSending
      have writes : Quiet edge { edge with socketIsWriteable := true } := ⟨rfl, rfl, rfl, rfl⟩
      dsimp only
      split
      · exact writes.trans ((quiet_flush_buffer _).trans (induction _))
      · exact writes

theorem quiet_change (edge : System 1) {change : Peer → Peer}
    (handled : (change (edge.peers subscriber)).handled = (edge.peers subscriber).handled)
    (stopped : (change (edge.peers subscriber)).stopped = (edge.peers subscriber).stopped) :
    Quiet edge (edge.change subscriber change) := by
  refine ⟨rfl, rfl, ?_, ?_⟩
  · change (Function.update edge.peers subscriber (change (edge.peers subscriber)) subscriber).handled = _
    rw [Function.update_self, handled]
  · change (Function.update edge.peers subscriber (change (edge.peers subscriber)) subscriber).stopped = _
    rw [Function.update_self, stopped]

theorem quiet_timer_tick (edge : System 1) : Quiet edge edge.timerTick := by
  unfold System.timerTick
  split
  · exact quiet_refl edge
  · split
    · exact ⟨rfl, rfl, rfl, rfl⟩
    · split
      · exact ⟨rfl, rfl, rfl, rfl⟩
      · exact quiet_refl edge

theorem quiet_synchronize_message (edge : System 1) :
    Quiet edge (edge.synchronizeMessage subscriber) := by
  unfold System.synchronizeMessage
  dsimp only
  split
  · exact quiet_refl edge
  · refine ⟨rfl, rfl, ?_, ?_⟩ <;> simp [System.setPeer]

theorem quiet_event (edge : System 1) (event : Event) :
    Quiet edge (Transport.PubSub.step edge event.action).1 := by
  cases event with
  | timerTick => exact quiet_timer_tick edge
  | poll writeable =>
      change Quiet edge (edge.poll writeable)
      unfold System.poll
      split
      · exact quiet_refl edge
      · exact quiet_start_sending writeable edge
  | synchronizeMessage => exact quiet_synchronize_message edge
  | start =>
      refine quiet_change edge ?_ ?_ <;>
        · unfold Peer.start
          split <;> rfl
  | synchronizePoll =>
      refine quiet_change edge ?_ ?_ <;>
        · unfold Peer.synchronizePoll Peer.confirmConnection
          grind
  | arrive =>
      refine quiet_change edge ?_ ?_ <;>
        · unfold Peer.arrive
          split <;> rfl
  | lose position =>
      change Quiet edge (edge.change subscriber (Peer.lose · position))
      refine quiet_change edge ?_ ?_ <;>
        · unfold Peer.lose
          split <;> rfl

theorem sound_event {edge : System 1} (sound : edge.Sound) (event : Event) :
    (Transport.PubSub.step edge event.action).1.Sound := by
  apply sound_step sound
  cases event <;> exact trivial

theorem consume_all_edge {edge : System 1} (buffers : List Bytes) (sound : edge.Sound)
    (opened : edge.closed = false) (free : ∀ buffer ∈ buffers, ¬Reserved buffer) :
    let after := consumeAll consumeEdge buffers edge
    after.Sound ∧ after.consumed = edge.consumed ++ buffers ∧ after.closed = false ∧
      after.peers = edge.peers := by
  induction buffers generalizing edge with
  | nil => exact ⟨sound, (List.append_nil _).symm, opened, rfl⟩
  | cons buffer rest induction =>
      have own := free buffer List.mem_cons_self
      have given : edge.consume buffer =
          { edge with
            dataBuffers := edge.dataBuffers ++ [buffer]
            consumed := edge.consumed ++ [buffer] } := by
        rw [System.consume, if_neg (by simp [opened])]
      have kept := sound_consume sound own
      have opens : (edge.consume buffer).closed = false := by rw [given, opened]
      obtain ⟨later, all, stays, same⟩ := induction kept opens
        fun other member => free other (List.mem_cons_of_mem _ member)
      refine ⟨later, ?_, stays, ?_⟩
      · change (consumeAll consumeEdge rest (edge.consume buffer)).consumed = _
        rw [all, given, List.append_assoc]
        rfl
      · change (consumeAll consumeEdge rest (edge.consume buffer)).peers = _
        rw [same, given]

theorem stop_frame (edge : System 1) (writeable : Nat) :
    (edge.stop writeable).consumed = edge.consumed ∧ (edge.stop writeable).closed = true ∧
      ((edge.stop writeable).peers subscriber).handled = (edge.peers subscriber).handled ∧
      ((edge.stop writeable).peers subscriber).stopped = (edge.peers subscriber).stopped := by
  unfold System.stop
  split
  · next closed => exact ⟨rfl, closed, rfl, rfl⟩
  · have sent := (quiet_start_sending writeable edge).trans
      (quiet_send (System.startSending writeable edge) endControl)
    exact ⟨sent.consumed, rfl, sent.handled, sent.stopped⟩

/-- A message that is read is handled, stops the producer, or neither. -/
theorem read_message_cases (peer : Peer) :
    (peer.readMessage.handled = peer.handled ∧ peer.readMessage.stopped = peer.stopped) ∨
      (∃ data, peer.readMessage.handled = peer.handled ++ [data] ∧
        peer.readMessage.stopped = false ∧ peer.stopped = false) ∨
      (peer.readMessage.handled = peer.handled ∧ peer.readMessage.stopped = true ∧
        peer.stopped = false) := by
  unfold Peer.readMessage Peer.handleMessage Peer.confirmConnection Peer.takeForControl Peer.stop
  grind

end Edge

section Run

variable {Node Memory : Type*} [DecidableEq Node]
variable {wiring : Wiring Node} {handlers : Node → DataHandler Memory} {initial : Node → Memory}
variable {network : Network Node Memory}

/-- What links the nodes to their edges; `called` and `ends` are the calls of `handleData`
and of `stop` that a producer is about to make. -/
structure Linked (wiring : Wiring Node) (handlers : Node → DataHandler Memory)
    (initial : Node → Memory) (called : Node → List Bytes) (ends : Node → Bool)
    (network : Network Node Memory) : Prop where
  edges : ∀ node, (network.edges node).Sound
  memory : ∀ node, network.memory node =
    (run (process (handlers node)) (initial node) (network.received node)).1
  received : ∀ node above, wiring.upstream node = some above →
    network.received node ++ called node = ((network.edges node).peers subscriber).handled
  consumed : ∀ node above, wiring.upstream node = some above → (network.edges node).consumed =
    (graph wiring handlers initial).outputs above (network.received above)
  closed : ∀ node above, wiring.upstream node = some above →
    (network.edges node).closed = network.stopped above
  stopped : ∀ node above, wiring.upstream node = some above →
    (network.stopped node || ends node) = ((network.edges node).peers subscriber).stopped

/-- The same when no producer is about to make a call. -/
abbrev Settled (wiring : Wiring Node) (handlers : Node → DataHandler Memory)
    (initial : Node → Memory) (network : Network Node Memory) : Prop :=
  Linked wiring handlers initial (fun _ => []) (fun _ => false) network

theorem settled_initial : Settled wiring handlers initial { memory := initial } where
  edges _ := sound_initial
  memory _ := rfl
  received _ _ _ := rfl
  consumed _ _ _ := rfl
  closed _ _ _ := rfl
  stopped _ _ _ := rfl

theorem settled_event (settled : Settled wiring handlers initial network) (node : Node)
    (event : Event) : Settled wiring handlers initial
      (network.setEdge node (Transport.PubSub.step (network.edges node) event.action).1) := by
  have quiet (other : Node) : Quiet (network.edges other) ((network.setEdge node
      (Transport.PubSub.step (network.edges node) event.action).1).edges other) := by
    by_cases own : other = node
    · subst own
      rw [Network.set_edge_own]
      exact quiet_event _ event
    · rw [Network.set_edge_of_ne _ own]
      exact quiet_refl _
  constructor
  · intro other
    by_cases own : other = node
    · subst own
      rw [Network.set_edge_own]
      exact sound_event (settled.edges other) event
    · rw [Network.set_edge_of_ne _ own]
      exact settled.edges other
  · exact settled.memory
  · intro other above joined
    rw [(quiet other).handled]
    exact settled.received other above joined
  · intro other above joined
    rw [(quiet other).consumed]
    exact settled.consumed other above joined
  · intro other above joined
    rw [(quiet other).closed]
    exact settled.closed other above joined
  · intro other above joined
    rw [(quiet other).stopped]
    exact settled.stopped other above joined

theorem handle_data_edges (wiring : Wiring Node) (handlers : Node → DataHandler Memory)
    (network : Network Node Memory) (node : Node) (data : Bytes)
    (other : Node) :
    (network.handleData wiring handlers node data).edges other =
      if wiring.upstream other = some node then
        consumeAll consumeEdge (process (handlers node) (network.memory node) data).2
          (network.edges other)
      else network.edges other := by
  have each := pass_data_each consumeEdge (wiring.consumers_nodup node)
    (process (handlers node) (network.memory node) data).2 network.edges other
  simp only [wiring.mem_consumers_iff] at each
  exact each

theorem settled_handle_data {node : Node} {data : Bytes}
    (linked : Linked wiring handlers initial (Function.update (fun _ => []) node [data])
      (fun _ => false) network)
    (running : network.stopped node = false)
    (sendable : Sendable wiring handlers network node data) :
    Settled wiring handlers initial (network.handleData wiring handlers node data) := by
  have grown (other : Node) : (network.handleData wiring handlers node data).received other =
      network.received other ++ Function.update (fun _ => []) node [data] other := by
    by_cases own : other = node
    · subst own
      simp [Network.handleData]
    · simp [Network.handleData, own]
  have given (other : Node) (joined : wiring.upstream other = some node) :=
    consume_all_edge (process (handlers node) (network.memory node) data).2 (linked.edges other)
      ((linked.closed other node joined).trans running) (by
        rcases sendable with alone | free
        · rw [← wiring.mem_consumers_iff, alone] at joined
          exact absurd joined List.not_mem_nil
        · exact free)
  have edge := handle_data_edges wiring handlers network node data
  have sameReceived (other : Node) (foreign : other ≠ node) :
      (network.handleData wiring handlers node data).received other = network.received other := by
    rw [grown, Function.update_of_ne foreign, List.append_nil]
  constructor
  · intro other
    rw [edge]
    split
    · next joined => exact (given other joined).1
    · exact linked.edges other
  · intro other
    by_cases own : other = node
    · subst own
      rw [grown, Function.update_self, run_append]
      change Function.update _ _ _ _ = _
      rw [Function.update_self, ← linked.memory]
      rfl
    · rw [sameReceived other own, ← linked.memory]
      change Function.update _ _ _ _ = _
      rw [Function.update_of_ne own]
  · intro other above joined
    have before := linked.received other above joined
    rw [List.append_nil, grown, before, edge]
    split
    · next own => rw [(given other own).2.2.2]
    · rfl
  · intro other above joined
    rw [edge]
    split
    · next own =>
      have same : above = node := by
        rw [own] at joined
        exact (Option.some.inj joined).symm
      subst same
      rw [(given other own).2.1, linked.consumed other above joined, grown,
        Function.update_self, linked.memory above]
      exact (outputs_concat _ _ _ _).symm
    · next foreign =>
      have other_node : above ≠ node := by
        intro same
        exact foreign (same ▸ joined)
      rw [sameReceived above other_node]
      exact linked.consumed other above joined
  · intro other above joined
    rw [edge]
    split
    · next own =>
      have same : above = node := by
        rw [own] at joined
        exact (Option.some.inj joined).symm
      subst same
      exact (given other own).2.2.1.trans running.symm
    · exact linked.closed other above joined
  · intro other above joined
    rw [edge]
    split
    · next own =>
      rw [(given other own).2.2.2]
      exact linked.stopped other above joined
    · exact linked.stopped other above joined

theorem stop_edges (wiring : Wiring Node) (network : Network Node Memory) (node : Node) (writeable : Node → Nat)
    (other : Node) :
    (network.stop wiring node writeable).edges other =
      if wiring.upstream other = some node then (network.edges other).stop (writeable other)
      else network.edges other := by
  have each := change_each_apart (fun consumer edge => System.stop edge (writeable consumer))
    (wiring.consumers_nodup node) network.edges other
  simp only [wiring.mem_consumers_iff] at each
  exact each

theorem settled_stop {node : Node} {writeable : Node → Nat}
    (linked : Linked wiring handlers initial (fun _ => [])
      (Function.update (fun _ => false) node true) network)
    (flushed : Flushed wiring network node writeable) :
    Settled wiring handlers initial (network.stop wiring node writeable) := by
  have edge := stop_edges wiring network node writeable
  have frame (other : Node) := stop_frame (network.edges other) (writeable other)
  constructor
  · intro other
    rw [edge]
    split
    · next joined =>
      exact sound_stop (linked.edges other)
        (flushed other ((wiring.mem_consumers_iff other node).mpr joined))
    · exact linked.edges other
  · exact linked.memory
  · intro other above joined
    rw [edge]
    split
    · rw [(frame other).2.2.1]
      exact linked.received other above joined
    · exact linked.received other above joined
  · intro other above joined
    rw [edge]
    split
    · rw [(frame other).1]
      exact linked.consumed other above joined
    · exact linked.consumed other above joined
  · intro other above joined
    change _ = Function.update network.stopped node true above
    rw [edge]
    split
    · next own =>
      have same : above = node := by
        rw [own] at joined
        exact (Option.some.inj joined).symm
      rw [(frame other).2.1, same, Function.update_self]
    · next foreign =>
      have apart : above ≠ node := by
        intro same
        exact foreign (same ▸ joined)
      rw [Function.update_of_ne apart]
      exact linked.closed other above joined
  · intro other above joined
    have before := linked.stopped other above joined
    have peer : (((network.stop wiring node writeable).edges other).peers subscriber).stopped =
        ((network.edges other).peers subscriber).stopped := by
      rw [edge]
      split
      · exact (frame other).2.2.2
      · rfl
    change (Function.update network.stopped node true other || false) = _
    rw [peer, ← before]
    by_cases own : other = node
    · subst own
      simp
    · simp [own]

theorem linked_read (settled : Settled wiring handlers initial network) (node : Node)
    (called : List Bytes) (ends : Bool)
    (handled : ((network.readEdge node).peers subscriber).handled =
      ((network.edges node).peers subscriber).handled ++ called)
    (stopped : ((network.readEdge node).peers subscriber).stopped =
      (((network.edges node).peers subscriber).stopped || ends)) :
    Linked wiring handlers initial (Function.update (fun _ => []) node called)
      (Function.update (fun _ => false) node ends)
      (network.setEdge node (network.readEdge node)) := by
  constructor
  · intro other
    by_cases own : other = node
    · subst own
      rw [Network.set_edge_own]
      have harmless : Transport.PubSub.Harmless (network.edges other) (.readMessage subscriber) := trivial
      exact sound_step (settled.edges other) harmless
    · rw [Network.set_edge_of_ne _ own]
      exact settled.edges other
  · exact settled.memory
  · intro other above joined
    have before := settled.received other above joined
    rw [List.append_nil] at before
    change network.received other ++ _ = _
    rw [before]
    by_cases own : other = node
    · subst own
      rw [Network.set_edge_own, Function.update_self, handled]
    · rw [Network.set_edge_of_ne _ own, Function.update_of_ne own, List.append_nil]
  · intro other above joined
    by_cases own : other = node
    · subst own
      rw [Network.set_edge_own]
      exact settled.consumed other above joined
    · rw [Network.set_edge_of_ne _ own]
      exact settled.consumed other above joined
  · intro other above joined
    by_cases own : other = node
    · subst own
      rw [Network.set_edge_own]
      exact settled.closed other above joined
    · rw [Network.set_edge_of_ne _ own]
      exact settled.closed other above joined
  · intro other above joined
    have before := settled.stopped other above joined
    rw [Bool.or_false] at before
    change (network.stopped other || _) = _
    rw [before]
    by_cases own : other = node
    · subst own
      rw [Network.set_edge_own, Function.update_self, stopped]
    · rw [Network.set_edge_of_ne _ own, Function.update_of_ne own, Bool.or_false]

theorem settled_read {node above : Node} (joined : wiring.upstream node = some above)
    (settled : Settled wiring handlers initial network) (writeable : Node → Nat)
    (harmless : Harmless wiring handlers network (.readMessage node writeable)) :
    Settled wiring handlers initial (network.readMessage wiring handlers node writeable) := by
  obtain ⟨sendable, flushed⟩ := harmless
  have before := settled.stopped node above joined
  have peer := network.read_edge_peer node
  have linked := linked_read settled node
  rw [peer] at linked
  unfold Network.readMessage
  rcases read_message_cases ((network.edges node).peers subscriber) with
    ⟨handled, stopped⟩ | ⟨data, handled, stopped, running⟩ | ⟨handled, stopped, running⟩
  · have quiet : network.calls node = [] := by
      rw [Network.calls, peer, handled, List.drop_length]
    have goes : network.ends node = false := by
      rw [Network.ends, peer, stopped, Bool.and_not_self]
    have after := linked [] false (by rw [handled, List.append_nil])
      (by rw [stopped, Bool.or_false])
    rw [Function.update_eq_self, Function.update_eq_self] at after
    rw [quiet, goes]
    exact after
  · have calls : network.calls node = [data] := by
      rw [Network.calls, peer, handled, List.drop_left]
    have goes : network.ends node = false := by
      rw [Network.ends, peer, stopped, Bool.false_and]
    have after := linked [data] false handled (by rw [stopped, running]; rfl)
    rw [Function.update_eq_self] at after
    rw [calls, goes]
    apply settled_handle_data after
    · change network.stopped node = false
      rw [running, Bool.or_false] at before
      exact before
    · exact sendable data (by rw [calls]; exact List.mem_singleton_self data)
  · have quiet : network.calls node = [] := by
      rw [Network.calls, peer, handled, List.drop_length]
    have halts : network.ends node = true := by
      rw [Network.ends, peer, stopped, running]
      rfl
    have after := linked [] true (by rw [handled, List.append_nil]) (by rw [stopped, Bool.or_true])
    rw [Function.update_eq_self] at after
    rw [quiet, halts]
    apply settled_stop after
    intro consumer member
    have own := flushed halts consumer member
    by_cases same : consumer = node
    · subst same
      change ((network.setEdge consumer _).edges consumer).dataBuffers.length ≤
        if ((network.setEdge consumer _).edges consumer).isReady then _ else 0
      rw [Network.set_edge_own]
      exact own
    · change ((network.setEdge node _).edges consumer).dataBuffers.length ≤
        if ((network.setEdge node _).edges consumer).isReady then _ else 0
      rw [Network.set_edge_of_ne _ same]
      exact own

theorem linked_source {node : Node} (root : wiring.upstream node = none)
    (settled : Settled wiring handlers initial network) (called : List Bytes) (ends : Bool) :
    Linked wiring handlers initial (Function.update (fun _ => []) node called)
      (Function.update (fun _ => false) node ends) network := by
  have joined_apart {other above : Node} (joined : wiring.upstream other = some above) :
      other ≠ node := by
    rintro rfl
    rw [root] at joined
    cases joined
  exact { settled with
    received := by
      intro other above joined
      rw [Function.update_of_ne (joined_apart joined)]
      exact settled.received other above joined
    stopped := by
      intro other above joined
      rw [Function.update_of_ne (joined_apart joined)]
      exact settled.stopped other above joined }

theorem settled_step (settled : Settled wiring handlers initial network) {action : Action Node}
    (harmless : Harmless wiring handlers network action) :
    Settled wiring handlers initial (step wiring handlers network action).1 := by
  cases action with
  | input node data =>
      change Settled _ _ _ (if _ then _ else _)
      split
      · next source =>
        obtain ⟨root, running⟩ := Bool.and_eq_true_iff.mp source
        have linked := linked_source (Option.isNone_iff_eq_none.mp root) settled [data] false
        rw [Function.update_eq_self] at linked
        exact settled_handle_data linked (by simpa using running) harmless
      · exact settled
  | stopInput node writeable =>
      change Settled _ _ _ (if _ then _ else _)
      split
      · next source =>
        have root := (Bool.and_eq_true_iff.mp source).1
        have linked := linked_source (Option.isNone_iff_eq_none.mp root) settled [] true
        rw [Function.update_eq_self] at linked
        exact settled_stop linked harmless
      · exact settled
  | event node event =>
      change Settled _ _ _ (if _ then _ else _)
      split
      · exact settled_event settled node event
      · exact settled
  | readMessage node writeable =>
      change Settled _ _ _ (if _ then _ else _)
      split
      · next joined =>
        obtain ⟨above, joined⟩ := Option.isSome_iff_exists.mp joined
        exact settled_read joined settled writeable harmless
      · exact settled

theorem settled_begins (settled : Settled wiring handlers initial network) (node above : Node)
    (joined : wiring.upstream node = some above) : network.received node <+:
      (graph wiring handlers initial).outputs above (network.received above) := by
  have lossless := (lossless_of_sound (settled.edges node)).ordered subscriber
  rw [← settled.received node above joined, settled.consumed node above joined,
    List.append_nil] at lossless
  exact lossless

theorem settled_whole (settled : Settled wiring handlers initial network) (node above : Node)
    (joined : wiring.upstream node = some above) (stops : network.stopped node = true) :
    network.stopped above = true ∧ network.received node =
      (graph wiring handlers initial).outputs above (network.received above) := by
  have peer := settled.stopped node above joined
  rw [stops, Bool.true_or] at peer
  have whole := (lossless_of_sound (settled.edges node)).stoppedLast subscriber peer.symm
  rw [← settled.received node above joined, settled.consumed node above joined,
    List.append_nil] at whole
  have closed := (((settled.edges node).peers subscriber).handledAll peer.symm).1
  exact ⟨(settled.closed node above joined).symm.trans closed, whole⟩

theorem settled_run {actions : List (Action Node)}
    (harmless : StepsMeet (step wiring handlers) (Harmless wiring handlers)
      { memory := initial } actions) :
    Settled wiring handlers initial (run (step wiring handlers) { memory := initial } actions).1 := by
  have kept : ∀ (network : Network Node Memory) (action : Action Node),
      Settled wiring handlers initial network → Harmless wiring handlers network action →
        Settled wiring handlers initial (step wiring handlers network action).1 :=
    fun _ _ settled allowed => settled_step settled allowed
  exact run_invariant (step wiring handlers) kept settled_initial harmless

/-- When the node above has stopped and nothing is under way, all of it has come. -/
theorem settled_drained (settled : Settled wiring handlers initial network) (node above : Node)
    (joined : wiring.upstream node = some above) (stops : network.stopped above = true)
    (read : ((network.edges node).peers subscriber).socket = [])
    (arrived : ((network.edges node).peers subscriber).inFlight = []) : network.received node =
      (graph wiring handlers initial).outputs above (network.received above) := by
  have closed := (settled.closed node above joined).trans stops
  have whole := (lossless_of_sound (settled.edges node)).complete closed subscriber read arrived
  rw [← settled.received node above joined, settled.consumed node above joined,
    List.append_nil] at whole
  exact whole

/-- In every run without a lossy step, what a node was given is the beginning of what the
handlers upstream make of the data that came in at the source, in that order and nothing
twice; a node that was stopped was given all of it, after all nodes above it were stopped. -/
theorem nodes_receive_composition (wiring : Wiring Node) (handlers : Node → DataHandler Memory)
    (initial : Node → Memory) (actions : List (Action Node))
    (harmless : StepsMeet (step wiring handlers) (Harmless wiring handlers)
      { memory := initial } actions) (node : Node) (items : List Bytes)
    (carried : (graph wiring handlers initial).Carries
      (run (step wiring handlers) { memory := initial } actions).1.received node items) :
    let final := (run (step wiring handlers) { memory := initial } actions).1
    final.received node <+: items ∧
      (final.stopped node = true → final.received node = items) ∧
      ∀ above, wiring.upstream node = some above →
        (final.stopped node = true → final.stopped above = true) ∧
        (final.stopped above = true → ((final.edges node).peers subscriber).socket = [] →
          ((final.edges node).peers subscriber).inFlight = [] → final.received node =
            (graph wiring handlers initial).outputs above (final.received above)) := by
  have settled := settled_run harmless
  intro final
  refine ⟨Graph.taken_begins (settled_begins settled) carried, ?_, ?_⟩
  · intro stops
    exact Graph.taken_whole (fun other above joined halted =>
      settled_whole settled other above joined halted) carried stops
  · intro above joined
    exact ⟨fun stops => (settled_whole settled node above joined stops).1,
      settled_drained settled node above joined⟩

/-- A pipeline that repeats its data, and one behind it that numbers what it is given and
refuses an empty buffer. -/
def repeatAndNumber : Fin 3 → DataHandler Nat
  | 0 => fun count data => (count, .ok [data, data])
  | _ => fun count data =>
      if data = [] then (count, .error "empty") else (count + 1, .ok [UInt8.ofNat count :: data])

def threeInLine : Wiring (Fin 3) := ⟨[(1, 0), (2, 1)], by decide⟩

def connectEdge (node : Fin 3) : List (Action (Fin 3)) :=
  [.event node .start, .event node (.poll 1), .event node .timerTick, .event node .arrive,
    .readMessage node fun _ => 0, .event node .synchronizePoll, .event node .synchronizeMessage]

def oneBufferThrough : List (Action (Fin 3)) :=
  connectEdge 1 ++ connectEdge 2 ++
    [.input 0 [7], .event 1 (.poll 2), .event 1 .arrive, .event 1 .arrive,
      .readMessage 1 fun _ => 0, .event 2 (.poll 1), .readMessage 1 fun _ => 0,
      .stopInput 0 fun _ => 0, .event 1 .arrive, .readMessage 1 fun _ => 1,
      .event 2 .arrive, .event 2 .arrive, .event 2 .arrive, .readMessage 2 fun _ => 0,
      .readMessage 2 fun _ => 0, .readMessage 2 fun _ => 0]

theorem one_buffer_received :
    (run (step threeInLine repeatAndNumber) { memory := fun _ => 0 } oneBufferThrough).1.received 2 =
      (graph threeInLine repeatAndNumber fun _ => 0).outputs 1
        ((graph threeInLine repeatAndNumber fun _ => 0).outputs 0
          ((run (step threeInLine repeatAndNumber) { memory := fun _ => 0 }
            oneBufferThrough).1.received 0)) :=
  (nodes_receive_composition threeInLine repeatAndNumber (fun _ => 0) oneBufferThrough
    (by decide +kernel) 2 _ (.link rfl (.link rfl (.source rfl)))).2.1 (by decide +kernel)

/-- Two runs whose sources are given the same data hand the same to a node that both have
stopped, in whatever order their events came. -/
theorem stopped_nodes_agree {actions others : List (Action Node)} (height : Node → Nat)
    (descends : ∀ node above, wiring.upstream node = some above → height above < height node)
    (harmless : StepsMeet (step wiring handlers) (Harmless wiring handlers)
      { memory := initial } actions)
    (othersHarmless : StepsMeet (step wiring handlers) (Harmless wiring handlers)
      { memory := initial } others)
    (same : ∀ root, wiring.upstream root = none →
      (run (step wiring handlers) { memory := initial } actions).1.received root =
        (run (step wiring handlers) { memory := initial } others).1.received root)
    {node : Node}
    (stops : (run (step wiring handlers) { memory := initial } actions).1.stopped node = true)
    (othersStop : (run (step wiring handlers) { memory := initial } others).1.stopped node = true) :
    (run (step wiring handlers) { memory := initial } actions).1.received node =
      (run (step wiring handlers) { memory := initial } others).1.received node := by
  have settled := settled_run harmless
  have othersSettled := settled_run othersHarmless
  obtain ⟨items, carried⟩ : ∃ items, (graph wiring handlers initial).Carries
      (run (step wiring handlers) { memory := initial } actions).1.received node items :=
    Graph.carries_exists height descends _ node
  have otherCarried := carried.of_sources same
  rw [Graph.taken_whole (fun other above joined halted =>
      settled_whole settled other above joined halted) carried stops,
    Graph.taken_whole (fun other above joined halted =>
      settled_whole othersSettled other above joined halted) otherCarried othersStop]

/-- The same buffer, with the second edge connected first and all of it read before the stop. -/
def oneBufferLater : List (Action (Fin 3)) :=
  connectEdge 2 ++ connectEdge 1 ++
    [.input 0 [7], .event 1 (.poll 2), .event 1 .arrive, .readMessage 1 fun _ => 0,
      .event 1 .arrive, .readMessage 1 fun _ => 0, .event 2 (.poll 2), .event 2 .arrive,
      .readMessage 2 fun _ => 0, .event 2 .arrive, .readMessage 2 fun _ => 0,
      .stopInput 0 fun _ => 0, .event 1 .arrive, .readMessage 1 fun _ => 0,
      .event 2 .arrive, .readMessage 2 fun _ => 0]

theorem one_buffer_agrees :
    (run (step threeInLine repeatAndNumber) { memory := fun _ => 0 } oneBufferThrough).1.received 2 =
      (run (step threeInLine repeatAndNumber) { memory := fun _ => 0 } oneBufferLater).1.received 2 :=
  stopped_nodes_agree Fin.val (by decide) (by decide +kernel)
    (by decide +kernel) (by decide +kernel) (by decide +kernel) (by decide +kernel)

end Run

end StreamDataProcessor.Nodes.Pipelines
