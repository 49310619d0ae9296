import StreamDataProcessor.Transport.PubSub
import Mathlib.Data.Finset.Card

/-!
# When the transport loses nothing

No buffer is sent before every subscriber has confirmed, and only a subscriber that
a CONNECT message has reached confirms. From then on what a node was given, what lies
in the socket and what is on its way are together what was sent.
-/

namespace StreamDataProcessor.Transport.PubSub

open Foundation.Machine Utils.Uvarint Utils.TransportUtils

set_option autoImplicit false

def Reserved (data : Bytes) : Prop := data = connectMessage ∨ data = endMessage

instance (data : Bytes) : Decidable (Reserved data) :=
  inferInstanceAs (Decidable (data = connectMessage ∨ data = endMessage))

def buffersOf (messages : List Message) : List Bytes :=
  (messages.filter (·.fromBuffer)).map (·.bytes)

@[simp] theorem buffers_of_nil : buffersOf [] = [] := rfl

@[simp] theorem buffers_of_append (earlier later : List Message) :
    buffersOf (earlier ++ later) = buffersOf earlier ++ buffersOf later := by
  simp [buffersOf]

theorem buffers_of_cons (message : Message) (rest : List Message) :
    buffersOf (message :: rest) = buffersOf [message] ++ buffersOf rest :=
  buffers_of_append [message] rest

/-- A message of the publisher: a control message, or a buffer that does not read as one. -/
def Message.Genuine (message : Message) : Prop :=
  if message.fromBuffer then ¬Reserved message.bytes else Reserved message.bytes

def Peer.channel (peer : Peer) : List Message := peer.socket ++ peer.inFlight

/-- What holds of a peer when the publisher has sent `published` and may have closed. -/
structure Peer.Sound (published : List Bytes) (closed : Bool) (peer : Peer) : Prop where
  genuine : ∀ message ∈ peer.channel, message.Genuine
  endIsLast : peer.channel.Pairwise fun earlier _ => earlier.bytes ≠ endMessage
  endAfterStop : closed = false → ∀ message ∈ peer.channel, message.bytes ≠ endMessage
  noticed : ∀ message ∈ peer.socket, message.bytes = connectMessage → peer.reached = true
  readyReached : peer.isReady = true → peer.reached = true ∧ peer.started = true
  confirmedReady : peer.synchronizeMessages ≠ 0 ∨ peer.pollerClosed = true → peer.isReady = true
  buffers : peer.stopped = false → peer.handled ++ buffersOf peer.channel = published
  handledAll : peer.stopped = true → closed = true ∧ peer.handled = published
  early : peer.isReady = false → published = []
  unmistaken : peer.mistaken = []

def confirmedCount {n : Nat} (peers : Fin n → Peer) : Nat :=
  (Finset.univ.filter fun index => (peers index).pollerClosed = true).card

structure System.Sound {n : Nat} (system : System n) : Prop where
  queued : system.consumed = system.published ++ system.dataBuffers
  unreserved : ∀ data ∈ system.consumed, ¬Reserved data
  expected : system.expectedSubscribers = n - confirmedCount system.peers
  confirmed : system.published ≠ [] → ∀ index, (system.peers index).pollerClosed = true
  flushed : system.closed = true → system.dataBuffers = []
  peers : ∀ index, (system.peers index).Sound system.published system.closed

/-- A step that loses nothing: the buffer does not read as a control message, and when the
publisher stops nothing is queued, or all subscribers have confirmed and the socket stays
writeable until the queue is sent. -/
def Harmless {n : Nat} (system : System n) : Action n → Prop
  | .consume data => ¬Reserved data
  | .stop writeable =>
      system.dataBuffers.length ≤ if system.isReady then writeable else 0
  | _ => True

instance {n : Nat} (system : System n) (action : Action n) : Decidable (Harmless system action) :=
  match action with
  | .consume data => inferInstanceAs (Decidable (¬Reserved data))
  | .stop writeable => inferInstanceAs (Decidable (system.dataBuffers.length ≤
      if system.isReady then writeable else 0))
  | .timerTick | .poll _ | .synchronizeMessage _ | .start _ | .synchronizePoll _
  | .readMessage _ | .arrive _ | .lose _ _ => .isTrue trivial

section Peer

variable {published : List Bytes} {closed : Bool} {peer : Peer}

theorem not_from_buffer {message : Message} (genuine : message.Genuine)
    (reserved : Reserved message.bytes) : message.fromBuffer = false := by
  unfold Message.Genuine at genuine
  split at genuine
  · exact absurd reserved genuine
  · next other => simpa using other

theorem from_buffer {message : Message} (genuine : message.Genuine)
    (free : ¬Reserved message.bytes) : message.fromBuffer = true := by
  unfold Message.Genuine at genuine
  split at genuine
  · next own => exact own
  · exact absurd genuine free

theorem buffers_of_control {message : Message} (control : message.fromBuffer = false)
    (rest : List Message) : buffersOf (message :: rest) = buffersOf rest := by
  simp [buffersOf, control]

theorem buffers_of_buffer {message : Message} (own : message.fromBuffer = true)
    (rest : List Message) : buffersOf (message :: rest) = message.bytes :: buffersOf rest := by
  simp [buffersOf, own]

theorem sound_shrink (sound : peer.Sound published closed) {socket inFlight : List Message}
    (unready : peer.isReady = false) (within : (socket ++ inFlight).Sublist peer.channel)
    (own : socket.Sublist peer.socket) :
    ({ peer with socket, inFlight } : Peer).Sound published closed where
  genuine message member := sound.genuine message (within.subset member)
  endIsLast := sound.endIsLast.sublist within
  endAfterStop opened message member := sound.endAfterStop opened message (within.subset member)
  noticed message member := sound.noticed message (own.subset member)
  readyReached := sound.readyReached
  confirmedReady := sound.confirmedReady
  buffers running := by
    have all := sound.buffers running
    rw [sound.early unready, List.append_eq_nil_iff] at all
    have none : buffersOf (socket ++ inFlight) = [] := by
      have sublist : (buffersOf (socket ++ inFlight)).Sublist (buffersOf peer.channel) :=
        (within.filter _).map _
      rw [all.2] at sublist
      exact List.sublist_nil.mp sublist
    rw [sound.early unready]
    exact List.append_eq_nil_iff.mpr ⟨all.1, none⟩
  handledAll := sound.handledAll
  early := sound.early
  unmistaken := sound.unmistaken

theorem sound_start (sound : peer.Sound published closed) :
    peer.start.Sound published closed := by
  unfold Peer.start
  split
  · exact sound
  · next idle =>
    have unready : peer.isReady = false := by
      by_contra ready
      exact idle (sound.readyReached (by simpa using ready)).2
    have drained := @sound_shrink _ _ _ sound [] peer.inFlight unready
      (List.sublist_append_right _ _) (List.nil_sublist _)
    exact { drained with readyReached := fun ready => ⟨(sound.readyReached ready).1, rfl⟩ }

theorem sound_lose (sound : peer.Sound published closed) (position : Nat) :
    (peer.lose position).Sound published closed := by
  unfold Peer.lose
  split
  · exact sound
  · next unreached =>
    have unready : peer.isReady = false := by
      by_contra ready
      exact unreached (sound.readyReached (by simpa using ready)).1
    exact sound_shrink sound unready
      (List.Sublist.append (List.Sublist.refl _) (List.eraseIdx_sublist _ _)) (List.Sublist.refl _)

theorem sound_arrive (sound : peer.Sound published closed) :
    peer.arrive.Sound published closed := by
  unfold Peer.arrive
  split
  · exact sound
  · next message rest shape =>
    have same : (peer.socket ++ [message]) ++ rest = peer.channel := by
      rw [Peer.channel, shape, List.append_assoc, List.singleton_append]
    refine ⟨?_, ?_, ?_, ?_, ?_, sound.confirmedReady, ?_, sound.handledAll, sound.early,
      sound.unmistaken⟩
    · unfold Peer.channel
      rw [same]
      exact sound.genuine
    · unfold Peer.channel
      rw [same]
      exact sound.endIsLast
    · unfold Peer.channel
      rw [same]
      exact sound.endAfterStop
    · intro other member connect
      rcases List.mem_append.mp member with earlier | last
      · simp [sound.noticed other earlier connect]
      · rw [List.mem_singleton.mp last] at connect
        simp [connect]
    · intro ready
      simp [sound.readyReached ready]
    · unfold Peer.channel
      rw [same]
      exact sound.buffers

theorem sound_confirm (sound : peer.Sound published closed) (ready : peer.isReady = true)
    (messages : Nat) (poller own waits : Bool) :
    ({ peer with
      synchronizeMessages := messages
      pollerClosed := poller
      synchronizePollerClosed := own
      readyToConfirmConnection := waits } : Peer).Sound published closed :=
  { sound with confirmedReady := fun _ => ready }

theorem sound_synchronize_poll (sound : peer.Sound published closed) :
    peer.synchronizePoll.Sound published closed := by
  unfold Peer.synchronizePoll
  split
  · dsimp only
    split
    · next ready => exact sound_confirm sound ready _ _ _ _
    · exact { sound with }
  · exact sound

theorem channel_cons {message : Message} {rest : List Message}
    (shape : peer.socket = message :: rest) :
    peer.channel = message :: (rest ++ peer.inFlight) := by
  rw [Peer.channel, shape, List.cons_append]

/-- The peer that has read `message`, and has handled it when it is a buffer. -/
theorem sound_taken (sound : peer.Sound published closed) (running : peer.stopped = false)
    {message : Message} {rest : List Message} (shape : peer.socket = message :: rest) :
    ({ peer with socket := rest, handled := peer.handled ++ buffersOf [message] } :
      Peer).Sound published closed where
  genuine other member := sound.genuine other (by
    rw [channel_cons shape]
    exact List.mem_cons_of_mem _ member)
  endIsLast := by
    have all := sound.endIsLast
    rw [channel_cons shape] at all
    exact (List.pairwise_cons.mp all).2
  endAfterStop opened other member := sound.endAfterStop opened other (by
    rw [channel_cons shape]
    exact List.mem_cons_of_mem _ member)
  noticed other member := sound.noticed other (by
    rw [shape]
    exact List.mem_cons_of_mem _ member)
  readyReached := sound.readyReached
  confirmedReady := sound.confirmedReady
  buffers _ := by
    have all := sound.buffers running
    rw [channel_cons shape, buffers_of_cons] at all
    rw [← all, List.append_assoc]
    rfl
  handledAll stops := absurd stops (by simp [running])
  early := sound.early
  unmistaken := sound.unmistaken

theorem sound_taken_control (sound : peer.Sound published closed)
    (running : peer.stopped = false) {message : Message} {rest : List Message}
    (shape : peer.socket = message :: rest) (control : message.fromBuffer = false) :
    ({ peer with socket := rest } : Peer).Sound published closed := by
  have taken := sound_taken sound running shape
  rw [buffers_of_control control, buffers_of_nil, List.append_nil] at taken
  exact taken

theorem take_for_control_eq {message : Message} (control : message.fromBuffer = false) :
    peer.takeForControl message = peer := by
  simp [Peer.takeForControl, control]

/-- An END message is the last one, and comes when everything was handled. -/
theorem sound_read_end (sound : peer.Sound published closed) (running : peer.stopped = false)
    {message : Message} {rest : List Message} (shape : peer.socket = message :: rest)
    (ends : message.bytes = endMessage) :
    ({ peer with socket := rest } : Peer).stop.Sound published closed := by
  have member : message ∈ peer.channel := by
    rw [channel_cons shape]
    exact List.mem_cons_self
  have control := not_from_buffer (sound.genuine message member) (.inr ends)
  have nothingLeft : rest ++ peer.inFlight = [] := by
    have all := sound.endIsLast
    rw [channel_cons shape] at all
    cases later : rest ++ peer.inFlight with
    | nil => rfl
    | cons next others =>
        rw [later] at all
        exact absurd ends ((List.pairwise_cons.mp all).1 next List.mem_cons_self)
  have stops : closed = true := by
    by_contra opened
    exact sound.endAfterStop (by simpa using opened) message member ends
  have every := sound.buffers running
  rw [channel_cons shape, buffers_of_control control, nothingLeft, buffers_of_nil,
    List.append_nil] at every
  have taken := sound_taken_control sound running shape control
  exact { taken with
    buffers := fun going => by cases going
    handledAll := fun _ => ⟨stops, every⟩ }

/-- The first message of a subscriber is a CONNECT message. -/
theorem sound_read_first (sound : peer.Sound published closed) (running : peer.stopped = false)
    (started : peer.started = true) {message : Message} {rest : List Message}
    (shape : peer.socket = message :: rest) (goesOn : message.bytes ≠ endMessage)
    (unready : peer.isReady = false) :
    message.fromBuffer = false ∧
      ({ peer with socket := rest, isReady := true } : Peer).Sound published closed := by
  have member : message ∈ peer.channel := by
    rw [channel_cons shape]
    exact List.mem_cons_self
  have nothing := sound.early unready
  have control : message.fromBuffer = false := by
    by_contra own
    have every := sound.buffers running
    rw [channel_cons shape, buffers_of_buffer (by simpa using own), nothing] at every
    simp at every
  have connects : message.bytes = connectMessage := by
    have genuine := sound.genuine message member
    rw [Message.Genuine, if_neg (by simp [control])] at genuine
    exact genuine.resolve_right goesOn
  have reached := sound.noticed message (by rw [shape]; exact List.mem_cons_self) connects
  have taken := sound_taken_control sound running shape control
  refine ⟨control, ?_⟩
  exact { taken with
    readyReached := fun _ => ⟨reached, started⟩
    confirmedReady := fun _ => rfl
    early := fun _ => nothing }

theorem sound_read_message (sound : peer.Sound published closed) :
    peer.readMessage.Sound published closed := by
  unfold Peer.readMessage
  split
  · next runs =>
    have running : peer.stopped = false := by simpa using runs.2
    cases shape : peer.socket with
    | nil => exact sound
    | cons message rest =>
        have member : message ∈ peer.channel := by
          rw [channel_cons shape]
          exact List.mem_cons_self
        have genuine := sound.genuine message member
        dsimp only
        unfold Peer.handleMessage
        split
        · next ends =>
          rw [take_for_control_eq (not_from_buffer genuine (.inr ends))]
          exact sound_read_end sound running shape ends
        · next goesOn =>
          split
          · next unready =>
            have first := sound_read_first sound running runs.1 shape goesOn (by simpa using unready)
            rw [take_for_control_eq first.1]
            dsimp only
            split
            · exact sound_confirm first.2 rfl _ _ _ _
            · exact first.2
          · split
            · next other =>
              have own := from_buffer genuine (not_or_intro other goesOn)
              have taken := sound_taken sound running shape
              rw [buffers_of_buffer own, buffers_of_nil] at taken
              exact taken
            · next connects =>
              have control := not_from_buffer genuine (.inl (not_not.mp connects))
              rw [take_for_control_eq control]
              exact sound_taken_control sound running shape control
  · exact sound

theorem channel_publish (message : Message) :
    (peer.publish message).channel = peer.channel ++ [message] := by
  simp [Peer.publish, Peer.channel]

/-- A message that is not an END message is published after others of its kind. -/
theorem end_is_last_publish (sound : peer.Sound published false) (message : Message) :
    (peer.publish message).channel.Pairwise fun earlier _ => earlier.bytes ≠ endMessage := by
  rw [channel_publish, List.pairwise_append]
  exact ⟨sound.endIsLast, List.pairwise_singleton _ _,
    fun other member _ _ => sound.endAfterStop rfl other member⟩

theorem genuine_publish (sound : peer.Sound published closed) {message : Message}
    (genuine : message.Genuine) : ∀ other ∈ (peer.publish message).channel, other.Genuine := by
  intro other member
  rw [channel_publish] at member
  rcases List.mem_append.mp member with earlier | last
  · exact sound.genuine other earlier
  · rw [List.mem_singleton.mp last]
    exact genuine

theorem still_running (sound : peer.Sound published false) : peer.stopped = false := by
  by_contra stops
  have closed := (sound.handledAll (by simpa using stops)).1
  cases closed

theorem sound_publish_control (sound : peer.Sound published false) {message : Message}
    (control : message.fromBuffer = false) (reserved : Reserved message.bytes) {closes : Bool}
    (ends : closes = false → message.bytes ≠ endMessage) :
    (peer.publish message).Sound published closes where
  genuine := genuine_publish sound (by
    rw [Message.Genuine, if_neg (by simp [control])]
    exact reserved)
  endIsLast := end_is_last_publish sound message
  endAfterStop opened other member := by
    rw [channel_publish] at member
    rcases List.mem_append.mp member with earlier | last
    · exact sound.endAfterStop rfl other earlier
    · rw [List.mem_singleton.mp last]
      exact ends opened
  noticed := sound.noticed
  readyReached := sound.readyReached
  confirmedReady := sound.confirmedReady
  buffers running := by
    rw [channel_publish, buffers_of_append, buffers_of_control control, buffers_of_nil,
      List.append_nil]
    exact sound.buffers running
  handledAll stops := absurd stops (by
    change ¬peer.stopped = true
    simp [still_running sound])
  early := sound.early
  unmistaken := sound.unmistaken

theorem sound_publish_buffer {data : Bytes} (sound : peer.Sound published false)
    (free : ¬Reserved data) (ready : peer.isReady = true) :
    (peer.publish ⟨data, true⟩).Sound (published ++ [data]) false where
  genuine := genuine_publish sound (by
    rw [Message.Genuine, if_pos rfl]
    exact free)
  endIsLast := end_is_last_publish sound _
  endAfterStop opened other member := by
    rw [channel_publish] at member
    rcases List.mem_append.mp member with earlier | last
    · exact sound.endAfterStop rfl other earlier
    · rw [List.mem_singleton.mp last]
      exact fun ends => free (.inr ends)
  noticed := sound.noticed
  readyReached := sound.readyReached
  confirmedReady := sound.confirmedReady
  buffers running := by
    rw [channel_publish, buffers_of_append, buffers_of_buffer rfl, buffers_of_nil,
      ← List.append_assoc]
    exact congrArg (· ++ [data]) (sound.buffers running)
  handledAll stops := absurd stops (by
    change ¬peer.stopped = true
    simp [still_running sound])
  early unready := absurd unready (by
    change ¬peer.isReady = false
    simp [ready])
  unmistaken := sound.unmistaken

end Peer

section System

variable {n : Nat} {system : System n}

theorem sound_initial : ({} : System n).Sound where
  queued := rfl
  unreserved data member := absurd member List.not_mem_nil
  expected := by simp [confirmedCount]
  confirmed sent := absurd rfl sent
  flushed closed := by cases closed
  peers index :=
    { genuine := fun message member => absurd member List.not_mem_nil
      endIsLast := List.Pairwise.nil
      endAfterStop := fun _ message member => absurd member List.not_mem_nil
      noticed := fun message member => absurd member List.not_mem_nil
      readyReached := fun ready => by cases ready
      confirmedReady := by simp
      buffers := fun _ => rfl
      handledAll := fun stops => by cases stops
      early := fun _ => rfl
      unmistaken := rfl }

/-- A publisher that is ready has counted every subscriber. -/
theorem all_confirmed (sound : system.Sound) (ready : system.isReady = true) (index : Fin n) :
    (system.peers index).pollerClosed = true := by
  have few : system.expectedSubscribers ≤ 0 := by simpa [System.isReady] using ready
  have most : confirmedCount system.peers ≤ (Finset.univ : Finset (Fin n)).card :=
    Finset.card_filter_le _ _
  have counted := sound.expected
  rw [Finset.card_univ, Fintype.card_fin] at most
  have all : confirmedCount system.peers = (Finset.univ : Finset (Fin n)).card := by
    rw [Finset.card_univ, Fintype.card_fin]
    omega
  exact Finset.card_filter_eq_iff.mp all index (Finset.mem_univ index)

theorem sound_consume (sound : system.Sound) {data : Bytes} (free : ¬Reserved data) :
    (system.consume data).Sound := by
  unfold System.consume
  split
  · exact sound
  · next opened =>
    exact { sound with
      queued := by simp [sound.queued]
      unreserved := by
        intro other member
        rcases List.mem_append.mp member with earlier | last
        · exact sound.unreserved other earlier
        · rw [List.mem_singleton.mp last]
          exact free
      flushed := fun closed => absurd closed opened }

theorem sound_timer_tick (sound : system.Sound) : system.timerTick.Sound := by
  unfold System.timerTick
  split
  · exact sound
  · next open_ =>
    have opened : system.closed = false := by
      simpa using (not_or.mp open_).1
    split
    · refine { sound with peers := fun index => ?_ }
      have peer := sound.peers index
      rw [opened] at peer
      change ((system.peers index).publish connectControl).Sound system.published system.closed
      rw [opened]
      exact sound_publish_control peer rfl (.inl rfl) fun _ => by decide
    · split
      · exact { sound with }
      · exact sound

theorem sound_flush_buffer (sound : system.Sound) (opened : system.closed = false)
    (ready : system.isReady = true) : system.flushBuffer.Sound := by
  unfold System.flushBuffer
  split
  · exact sound
  · next data rest shape =>
    have every := all_confirmed sound ready
    have free : ¬Reserved data := sound.unreserved data (by simp [sound.queued, shape])
    refine { sound with
      queued := by
        change system.consumed = (system.published ++ [data]) ++ rest
        rw [sound.queued, shape, List.append_assoc]
        rfl
      confirmed := fun _ => every
      flushed := fun closed => absurd closed (by simp [System.send, opened])
      peers := fun index => ?_ }
    have peer := sound.peers index
    rw [opened] at peer
    change ((system.peers index).publish ⟨data, true⟩).Sound (system.published ++ [data])
      system.closed
    rw [opened]
    exact sound_publish_buffer peer free (peer.confirmedReady (.inr (every index)))

theorem sound_writeable (sound : system.Sound) :
    ({ system with socketIsWriteable := true } : System n).Sound := { sound with }

theorem flush_buffer_frame (system : System n) :
    system.flushBuffer.closed = system.closed ∧
      system.flushBuffer.expectedSubscribers = system.expectedSubscribers ∧
      system.flushBuffer.dataBuffers = system.dataBuffers.tail := by
  unfold System.flushBuffer
  split
  · next empty => simp [empty]
  · next shape => simp [System.send, shape]

theorem sound_start_sending (writeable : Nat) (sound : system.Sound)
    (opened : system.closed = false) :
    (System.startSending writeable system).Sound ∧
      (System.startSending writeable system).closed = false := by
  induction writeable generalizing system with
  | zero => exact ⟨sound, opened⟩
  | succ writeable induction =>
      rw [System.startSending]
      dsimp only
      split
      · next sends =>
        have flushed := sound_flush_buffer (sound_writeable sound) opened sends.1
        exact induction flushed
          ((flush_buffer_frame { system with socketIsWriteable := true }).1.trans opened)
      · exact ⟨sound_writeable sound, opened⟩

theorem start_sending_empties (writeable : Nat)
    (enough : system.dataBuffers.length ≤ if system.isReady then writeable else 0) :
    (System.startSending writeable system).dataBuffers = [] := by
  induction writeable generalizing system with
  | zero =>
      rw [ite_self, Nat.le_zero, List.length_eq_zero_iff] at enough
      exact enough
  | succ writeable induction =>
      rw [System.startSending]
      dsimp only
      split
      · next sends =>
        have frame := flush_buffer_frame { system with socketIsWriteable := true }
        apply induction
        rw [System.isReady, frame.2.1, frame.2.2]
        have ready : system.isReady = true := sends.1
        rw [if_pos ready] at enough
        rw [if_pos (by simpa [System.isReady] using ready), List.length_tail]
        dsimp only
        omega
      · next stays =>
        by_cases ready : system.isReady = true
        · by_contra left
          exact stays ⟨ready, left⟩
        · rw [if_neg ready, Nat.le_zero, List.length_eq_zero_iff] at enough
          exact enough

theorem sound_stop (sound : system.Sound) {writeable : Nat}
    (enough : system.dataBuffers.length ≤ if system.isReady then writeable else 0) :
    (system.stop writeable).Sound := by
  unfold System.stop
  split
  · exact sound
  · next open_ =>
    have opened : system.closed = false := by simpa using open_
    have sending := sound_start_sending writeable sound opened
    have empty := start_sending_empties writeable enough
    generalize System.startSending writeable system = sent at sending empty
    refine { sending.1 with flushed := fun _ => empty, peers := fun index => ?_ }
    have peer := sending.1.peers index
    rw [sending.2] at peer
    exact sound_publish_control peer rfl (.inr rfl) fun closed => by cases closed

theorem confirmed_count_same {peers : Fin n → Peer} {index : Fin n} {peer : Peer}
    (poller : peer.pollerClosed = (peers index).pollerClosed) :
    confirmedCount (Function.update peers index peer) = confirmedCount peers := by
  unfold confirmedCount
  congr 2
  funext other
  by_cases own : other = index
  · subst own
    simp [poller]
  · simp [own]

theorem confirmed_count_new {peers : Fin n → Peer} {index : Fin n} {peer : Peer}
    (opened : (peers index).pollerClosed = false) (closes : peer.pollerClosed = true) :
    confirmedCount (Function.update peers index peer) = confirmedCount peers + 1 := by
  have grown : (Finset.univ.filter fun other =>
      ((Function.update peers index peer) other).pollerClosed = true) =
      insert index (Finset.univ.filter fun other => (peers other).pollerClosed = true) := by
    ext other
    by_cases own : other = index
    · subst own
      simp [closes]
    · simp [own]
  have fresh : index ∉ Finset.univ.filter fun other => (peers other).pollerClosed = true := by
    simp [opened]
  rw [confirmedCount, grown, Finset.card_insert_of_notMem fresh]
  rfl

theorem peer_of_update {holds : Peer → Prop} {peers : Fin n → Peer} {index : Fin n} {peer : Peer}
    (own : holds peer) (others : ∀ other, other ≠ index → holds (peers other)) (other : Fin n) :
    holds (Function.update peers index peer other) := by
  by_cases same : other = index
  · subst same
    rwa [Function.update_self]
  · rw [Function.update_of_ne same]
    exact others other same

theorem sound_set_peer (sound : system.Sound) {index : Fin n} {peer : Peer}
    (kept : peer.Sound system.published system.closed)
    (poller : peer.pollerClosed = (system.peers index).pollerClosed) :
    (system.setPeer index peer).Sound :=
  { sound with
    expected := by
      change system.expectedSubscribers = n - confirmedCount (Function.update system.peers index peer)
      rw [confirmed_count_same poller]
      exact sound.expected
    confirmed := fun sent => @peer_of_update _ (·.pollerClosed = true) _ _ _
      (poller.trans (sound.confirmed sent index)) fun other _ => sound.confirmed sent other
    peers := @peer_of_update _ (·.Sound system.published system.closed) _ _ _ kept
      fun other _ => sound.peers other }

theorem sound_synchronize_message (sound : system.Sound) (index : Fin n) :
    (system.synchronizeMessage index).Sound := by
  unfold System.synchronizeMessage
  dsimp only
  split
  · exact sound
  · next waits =>
    rw [not_or, not_or] at waits
    have ready := (sound.peers index).confirmedReady (.inl waits.2.2)
    have counted := sound_confirm (sound.peers index) ready
      ((system.peers index).synchronizeMessages - 1) true
      (system.peers index).synchronizePollerClosed (system.peers index).readyToConfirmConnection
    generalize shape : ({ system.peers index with
      synchronizeMessages := (system.peers index).synchronizeMessages - 1
      pollerClosed := true } : Peer) = peer at counted ⊢
    have closes : peer.pollerClosed = true := by rw [← shape]
    have before := sound.expected
    have grown := confirmed_count_new (by simpa using waits.2.1) closes
    exact { sound with
      expected := by
        change system.expectedSubscribers - 1 =
          n - (confirmedCount (Function.update system.peers index peer) : Int)
        rw [grown]
        push_cast
        omega
      confirmed := fun sent => @peer_of_update _ (·.pollerClosed = true) _ _ _ closes
        fun other _ => sound.confirmed sent other
      peers := @peer_of_update _ (·.Sound system.published system.closed) _ _ _ counted
        fun other _ => sound.peers other }

theorem poller_closed_frame (peer : Peer) (position : Nat) :
    peer.start.pollerClosed = peer.pollerClosed ∧
      peer.synchronizePoll.pollerClosed = peer.pollerClosed ∧
      peer.readMessage.pollerClosed = peer.pollerClosed ∧
      peer.arrive.pollerClosed = peer.pollerClosed ∧
      (peer.lose position).pollerClosed = peer.pollerClosed := by
  refine ⟨?_, ?_, ?_, ?_, ?_⟩
  · unfold Peer.start
    split <;> rfl
  · unfold Peer.synchronizePoll Peer.confirmConnection
    grind
  · unfold Peer.readMessage Peer.handleMessage Peer.confirmConnection Peer.takeForControl Peer.stop
    grind
  · unfold Peer.arrive
    split <;> rfl
  · unfold Peer.lose
    split <;> rfl

theorem sound_step (sound : system.Sound) {action : Action n} (harmless : Harmless system action) :
    (step system action).1.Sound := by
  cases action with
  | consume data => exact sound_consume sound harmless
  | timerTick => exact sound_timer_tick sound
  | poll writeable =>
      change (system.poll writeable).Sound
      unfold System.poll
      split
      · exact sound
      · next open_ => exact (sound_start_sending writeable sound (by simpa using open_)).1
  | synchronizeMessage index => exact sound_synchronize_message sound index
  | stop writeable => exact sound_stop sound harmless
  | start index =>
      exact sound_set_peer sound (sound_start (sound.peers index)) (poller_closed_frame _ 0).1
  | synchronizePoll index =>
      exact sound_set_peer sound (sound_synchronize_poll (sound.peers index))
        (poller_closed_frame _ 0).2.1
  | readMessage index =>
      exact sound_set_peer sound (sound_read_message (sound.peers index))
        (poller_closed_frame _ 0).2.2.1
  | arrive index =>
      exact sound_set_peer sound (sound_arrive (sound.peers index))
        (poller_closed_frame _ 0).2.2.2.1
  | lose index position =>
      exact sound_set_peer sound (sound_lose (sound.peers index) position)
        (poller_closed_frame _ position).2.2.2.2

theorem lossless_of_sound (sound : system.Sound) : Lossless system where
  ordered index := by
    have peer := sound.peers index
    have handled : (system.peers index).handled <+: system.published := by
      cases stopped : (system.peers index).stopped with
      | false => exact ⟨_, peer.buffers stopped⟩
      | true => rw [(peer.handledAll stopped).2]
    rw [sound.queued]
    exact handled.trans (List.prefix_append _ _)
  stoppedLast index stopped := by
    obtain ⟨closed, handled⟩ := (sound.peers index).handledAll stopped
    rw [sound.queued, sound.flushed closed, List.append_nil, handled]
  complete closed index socket inFlight := by
    have peer := sound.peers index
    rw [sound.queued, sound.flushed closed, List.append_nil]
    cases stopped : (system.peers index).stopped with
    | true => exact (peer.handledAll stopped).2
    | false =>
        have all := peer.buffers stopped
        rw [Peer.channel, socket, inFlight, List.append_nil, buffers_of_nil,
          List.append_nil] at all
        exact all
  confirmedFirst := sound.confirmed
  nothingMistaken index := (sound.peers index).unmistaken

end System

section Progress

variable {n : Nat}

/-- A step of one peer, taken again and again. -/
theorem run_replicate_change {action : Action n} {index : Fin n} {change : Peer → Peer}
    (changes : ∀ system : System n, (step system action).1 = system.change index change)
    (system : System n) (count : Nat) :
    (run step system (List.replicate count action)).1.peers index =
        change^[count] (system.peers index) ∧
      (run step system (List.replicate count action)).1.consumed = system.consumed := by
  induction count generalizing system with
  | zero => exact ⟨rfl, rfl⟩
  | succ count induction =>
      have later := induction (step system action).1
      rw [List.replicate_succ, run_cons, later.1, later.2, changes]
      exact ⟨by simp [System.change, System.setPeer, Function.iterate_succ_apply], rfl⟩

theorem arrive_all (peer : Peer) :
    (Peer.arrive^[peer.inFlight.length] peer).inFlight = [] := by
  generalize shape : peer.inFlight = messages
  induction messages generalizing peer with
  | nil => exact shape
  | cons message rest induction =>
      rw [List.length_cons, Function.iterate_succ_apply]
      apply induction
      rw [Peer.arrive, shape]

theorem read_message_started (peer : Peer) (started : peer.started = true) :
    peer.readMessage.started = true := by
  unfold Peer.readMessage Peer.handleMessage Peer.confirmConnection Peer.takeForControl Peer.stop
  grind

theorem read_message_socket (peer : Peer) (runs : peer.started = true ∧ ¬peer.stopped = true) :
    peer.readMessage.socket = peer.socket.tail ∧ peer.readMessage.inFlight = peer.inFlight := by
  unfold Peer.readMessage Peer.handleMessage Peer.confirmConnection Peer.takeForControl Peer.stop
  grind

theorem read_message_stopped (peer : Peer) (stopped : peer.stopped = true) :
    peer.readMessage = peer := by
  unfold Peer.readMessage
  rw [if_neg (by simp [stopped])]

theorem read_all (count : Nat) (peer : Peer) (started : peer.started = true)
    (few : peer.socket.length ≤ count) (arrived : peer.inFlight = []) :
    (Peer.readMessage^[count] peer).stopped = true ∨
      ((Peer.readMessage^[count] peer).socket = [] ∧
        (Peer.readMessage^[count] peer).inFlight = []) := by
  induction count generalizing peer with
  | zero => exact .inr ⟨List.length_eq_zero_iff.mp (Nat.le_zero.mp few), arrived⟩
  | succ count induction =>
      rw [Function.iterate_succ_apply]
      by_cases stopped : peer.stopped = true
      · have fixed := Function.iterate_fixed (read_message_stopped peer stopped) count
        rw [read_message_stopped peer stopped, fixed]
        exact .inl stopped
      · have read := read_message_socket peer ⟨started, stopped⟩
        apply induction _ (read_message_started peer started)
        · rw [read.1, List.length_tail]
          omega
        · rw [read.2, arrived]

theorem sound_iterate {published : List Bytes} {closed : Bool} {change : Peer → Peer}
    (kept : ∀ peer : Peer, peer.Sound published closed → (change peer).Sound published closed)
    (count : Nat) {peer : Peer} (sound : peer.Sound published closed) :
    (change^[count] peer).Sound published closed := by
  induction count generalizing peer with
  | zero => exact sound
  | succ count induction =>
      rw [Function.iterate_succ_apply]
      exact induction (kept peer sound)

/-- A peer that has nothing left to read has handled all that was sent. -/
theorem handled_of_read {published : List Bytes} {closed : Bool} {peer : Peer}
    (sound : peer.Sound published closed)
    (read : peer.stopped = true ∨ peer.isReady = false ∨
      (peer.socket = [] ∧ peer.inFlight = [])) : peer.handled = published := by
  cases stopped : peer.stopped with
  | true => exact (sound.handledAll stopped).2
  | false =>
      have all := sound.buffers stopped
      rcases read with stops | unready | ⟨socket, inFlight⟩
      · rw [stopped] at stops
        cases stops
      · rw [sound.early unready] at all ⊢
        exact (List.append_eq_nil_iff.mp all).1
      · rwa [Peer.channel, socket, inFlight, List.append_nil, buffers_of_nil,
          List.append_nil] at all

/-- Once the publisher has stopped, delivering and reading what is under way hands the
node of a subscriber the rest of the buffers. -/
theorem delivery_completes {system : System n} (sound : system.Sound)
    (closed : system.closed = true) (index : Fin n) :
    ∃ arrivals reads : Nat, ((run step system (List.replicate arrivals (.arrive index) ++
      List.replicate reads (.readMessage index))).1.peers index).handled = system.consumed := by
  let arrivals := (system.peers index).inFlight.length
  let peer := Peer.arrive^[arrivals] (system.peers index)
  have kept : peer.Sound system.published system.closed :=
    sound_iterate (fun _ => sound_arrive) arrivals (sound.peers index)
  have all : system.consumed = system.published := by
    rw [sound.queued, sound.flushed closed, List.append_nil]
  have reached : ∀ reads : Nat, (run step system (List.replicate arrivals (.arrive index) ++
      List.replicate reads (.readMessage index))).1.peers index = Peer.readMessage^[reads] peer := by
    intro reads
    rw [run_append, (@run_replicate_change _ (.readMessage index) index Peer.readMessage
      (fun _ => rfl) _ reads).1, (@run_replicate_change _ (.arrive index) index Peer.arrive
      (fun _ => rfl) system arrivals).1]
  by_cases ready : peer.isReady = true
  · have read := read_all peer.socket.length peer (kept.readyReached ready).2 le_rfl
      (arrive_all (system.peers index))
    have final := sound_iterate (fun _ => sound_read_message) peer.socket.length kept
    refine ⟨arrivals, peer.socket.length, ?_⟩
    rw [reached, all]
    exact handled_of_read final (read.imp_right .inr)
  · refine ⟨arrivals, 0, ?_⟩
    rw [reached, all]
    exact handled_of_read kept (.inr (.inl (by simpa using ready)))

end Progress

/-- In a run of harmless steps the transport is lossless and ordered in every state, and once
the publisher has stopped every node gets the rest when what is under way is delivered. -/
theorem lossless_of_harmless_steps (n : Nat) (actions : List (Action n))
    (harmless : StepsMeet step Harmless {} actions) (count : Nat) :
    Lossless (stateAt step {} actions count) ∧
      ((stateAt step {} actions count).closed = true → ∀ index, ∃ arrivals reads : Nat,
        ((run step (stateAt step {} actions count) (List.replicate arrivals (.arrive index) ++
          List.replicate reads (.readMessage index))).1.peers index).handled =
            (stateAt step {} actions count).consumed) := by
  have sound := @state_at_invariant _ _ _ step Harmless System.Sound
    (fun _ _ sound meets => sound_step sound meets) _ actions sound_initial harmless count
  exact ⟨lossless_of_sound sound, fun closed index => delivery_completes sound closed index⟩

def oneBuffer : List (Action 1) :=
  [.start 0, .consume [7], .poll 1, .timerTick, .arrive 0, .readMessage 0, .synchronizePoll 0,
    .synchronizeMessage 0, .stop 1, .arrive 0, .arrive 0, .readMessage 0, .readMessage 0]

theorem lossless_one_buffer :
    Lossless (stateAt step {} oneBuffer 13) ∧
      ((stateAt step {} oneBuffer 13).closed = true → ∀ index, ∃ arrivals reads : Nat,
        ((run step (stateAt step {} oneBuffer 13) (List.replicate arrivals (.arrive index) ++
          List.replicate reads (.readMessage index))).1.peers index).handled =
            (stateAt step {} oneBuffer 13).consumed) :=
  lossless_of_harmless_steps 1 oneBuffer (by decide) 13

/-- The publisher stops before the subscriber has confirmed: its queue is dropped. -/
theorem stop_before_confirmation_loses :
    ¬∀ (n : Nat) (actions : List (Action n)) (count : Nat),
      Lossless (stateAt step {} actions count) := by
  intro lossless
  have ends := (lossless 1 [.start 0, .consume [7], .stop 1, .arrive 0, .readMessage 0] 5).stoppedLast
    0 (by decide)
  revert ends
  decide

end StreamDataProcessor.Transport.PubSub
