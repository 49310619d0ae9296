import StreamDataProcessor.Kapacitor.LoggingRequestHandler
import StreamDataProcessor.Kapacitor.RequestChunking

/-!
# An agent serves its session

The bytes that come to an agent are cut into events, and the loop reads and handles in
turns. Where no cut loses bytes, the agent does to its handler and to its output what a
session does that is given whole requests, faults of the handler included.
-/

namespace StreamDataProcessor.Kapacitor.UdfAgent

open Foundation.Framing Foundation.Machine Arrow Utils.Uvarint RequestReader

set_option autoImplicit false

variable {State : Type} (parse : Bytes → Request) (handler : RequestHandler State)

namespace Session

variable {handler}

@[simp] theorem absorb_shut (session : Session State) (state : State)
    (written : List AgentResponse) : (session.absorb state written).shut = session.shut := by
  unfold absorb write
  split <;> rfl

@[simp] theorem absorb_fault (session : Session State) (state : State)
    (written : List AgentResponse) : (session.absorb state written).fault = session.fault := by
  unfold absorb write
  split <;> rfl

@[simp] theorem absorb_state (session : Session State) (state : State)
    (written : List AgentResponse) : (session.absorb state written).state = state := by
  unfold absorb write
  split <;> rfl

theorem absorb_running (session : Session State) (state : State) (written : List AgentResponse) :
    (session.absorb state written).running = session.running := by
  rw [running, running, absorb_shut, absorb_fault]

theorem absorb_absorb (session : Session State) (state later : State)
    (written others : List AgentResponse) :
    (session.absorb state written).absorb later others =
      session.absorb later (written ++ others) := by
  unfold absorb write
  dsimp only
  by_cases shut : session.shut = true
  · simp only [if_pos shut]
  · simp only [if_neg shut, List.append_assoc]

theorem absorb_nothing (session : Session State) : session.absorb session.state [] = session := by
  unfold absorb write
  split
  · rfl
  · rw [List.append_nil]

theorem stop_not_running (session : Session State) : (session.stop handler).running = false := by
  unfold stop running
  dsimp only
  split
  · rfl
  · simp

theorem conclude_fault_not_running (session : Session State) (fault : Fault) :
    (session.conclude handler (.ofFault fault)).running = false := by
  cases fault with
  | «exception» what => exact stop_not_running _
  | status | undefined | diverges => simp [CallEnding.ofFault, conclude, running]

theorem handle_of_ok {session : Session State} {request : Request}
    (outcome : (handleRequest handler request session.state).outcome = .ok ()) :
    session.handle handler request =
      session.absorb (handleRequest handler request session.state).state
        (handleRequest handler request session.state).written := by
  unfold handle
  simp only [outcome]

theorem handle_of_error {session : Session State} {request : Request} {fault : Fault}
    (outcome : (handleRequest handler request session.state).outcome = .error fault) :
    session.handle handler request =
      (session.absorb (handleRequest handler request session.state).state
        (handleRequest handler request session.state).written).conclude handler
          (.ofFault fault) := by
  unfold handle
  simp only [outcome]

theorem running_eq_false_iff (session : Session State) :
    session.running = false ↔ session.shut = true ∨ session.fault.isNone = false := by
  unfold running
  cases session.shut <;> simp

theorem step_not_running {session : Session State} (idle : session.running = false)
    (action : Action) : (session.step handler action).1.running = false := by
  cases action with
  | request asked => simp only [step, idle, Bool.false_eq_true, if_false]
  | ended => simp only [step, idle, Bool.false_eq_true, if_false]
  | stop =>
      simp only [step]
      split
      · exact stop_not_running session
      · exact idle
  | tick =>
      simp only [step]
      split
      · next whole =>
        have shut : session.shut = true := by
          rw [running_eq_false_iff, whole] at idle
          simpa using idle
        rw [running_eq_false_iff]
        left
        unfold tick
        dsimp only
        split <;> simp [shut]
      · exact idle

theorem run_requests_not_running {session : Session State} (idle : session.running = false)
    (requests : List Request) :
    run (step handler) session (requests.map .request) =
      (session, requests.map fun _ => ()) := by
  induction requests with
  | nil => rfl
  | cons asked rest induction =>
      have stays : (session.step handler (.request asked)).1 = session := by
        simp only [step, idle, Bool.false_eq_true, if_false]
      rw [List.map_cons, run_cons, stays, induction]
      rfl

end Session

open Session (running_eq_false_iff run_requests_not_running conclude_fault_not_running)

/-- How the reader alone ends a call. -/
def CallEnding.ofEnding : Ending → CallEnding
  | .returned => .returned
  | .threw what => .threw what
  | .exhausted => .exhausted

/-- The session after it was given the requests that one call of the reader has read. -/
def served (session : Session State) (result : ReadResult Request) : Session State :=
  (run (Session.step handler) session (result.handled.map .request)).1

/-- Reading and handling in turns is reading first and handling then. -/
theorem handle_loop_serves (fuel : Nat) (reader : Reader) (input : Bytes)
    {session : Session State} (runs : session.running = true) :
    let call := handleLoop parse handler fuel reader input session.state
    let result := readLoop parse fuel reader input
    let after := served handler session result
    (session.absorb call.state call.written).conclude handler call.ending =
        (if after.running then after.conclude handler (.ofEnding result.ending) else after) ∧
      (after.running = true → call.reader = result.reader) := by
  induction fuel generalizing reader input session with
  | zero =>
      simp only [handleLoop, readLoop, served, List.map_nil, run_nil, runs, if_true,
        Session.absorb_nothing]
      exact ⟨rfl, fun _ => trivial⟩
  | succ fuel induction =>
      rw [handleLoop, readLoop]
      generalize (if reader.residualRequestSize = 0 then decode input
        else .ok (reader.residualRequestSize, input)) = request
      cases request with
      | error error =>
          cases error with
          | eof =>
              simp only [served, List.map_nil, run_nil, runs, if_true, Session.absorb_nothing]
              exact ⟨rfl, fun _ => trivial⟩
          | runtimeError what =>
              simp only [served, List.map_nil, run_nil, runs, if_true, Session.absorb_nothing]
              exact ⟨rfl, fun _ => trivial⟩
      | ok pair =>
          obtain ⟨requestSize, input⟩ := pair
          dsimp only
          by_cases short : min requestSize input.length < requestSize
          · simp only [if_pos short, served, List.map_nil, run_nil, runs, if_true,
              Session.absorb_nothing]
            exact ⟨rfl, fun _ => trivial⟩
          · simp only [if_neg short]
            generalize parse _ = asked
            have handles : (session.step handler (.request asked)).1 =
                session.handle handler asked := by
              simp only [Session.step, runs, if_true]
            cases outcome : (handleRequest handler asked session.state).outcome with
            | error fault =>
                have ends := Session.handle_of_error outcome
                have idle : (session.handle handler asked).running = false := by
                  rw [ends]
                  exact conclude_fault_not_running _ fault
                have after (result : ReadResult Request) :
                    served handler session (result.after [asked]) =
                      session.handle handler asked := by
                  unfold served
                  rw [after_handled, List.singleton_append, List.map_cons, run_cons, handles,
                    run_requests_not_running idle]
                simp only [after, idle, Bool.false_eq_true, if_false]
                exact ⟨ends.symm, fun runs => by cases runs⟩
            | ok value =>
                have goes := Session.handle_of_ok outcome
                have later := induction {} (input.drop requestSize)
                  ((session.absorb_running (handleRequest handler asked session.state).state
                    (handleRequest handler asked session.state).written).trans runs)
                have after (result : ReadResult Request) :
                    served handler session (result.after [asked]) =
                      served handler (session.handle handler asked) result := by
                  unfold served
                  rw [after_handled, List.singleton_append, List.map_cons, run_cons, handles]
                simp only [Session.absorb_state, Session.absorb_absorb] at later
                simp only [after, goes]
                exact later

section Decides

variable (messages : List Bytes)

theorem exists_split_iff (holds : List Bytes → Bytes → Prop) :
    (∃ complete message rest, messages = complete ++ message :: rest ∧ holds complete message) ↔
      ∃ index ∈ List.range messages.length,
        holds (messages.take index) (messages.getD index []) := by
  constructor
  · rintro ⟨complete, message, rest, rfl, own⟩
    refine ⟨complete.length, by simp, ?_⟩
    rw [List.take_left, List.getD_append_right _ _ _ _ le_rfl, Nat.sub_self]
    exact own
  · rintro ⟨index, within, own⟩
    have bound := List.mem_range.mp within
    rw [List.getD_eq_getElem _ _ bound] at own
    exact ⟨_, _, _, (List.take_append_drop index messages).symm.trans
      (by rw [List.drop_eq_getElem_cons bound]), own⟩

instance (position : Nat) : Decidable (InsideHeader messages position) :=
  decidable_of_iff _ (exists_split_iff messages fun complete message =>
    (stream header complete).length < position ∧
      position < (stream header complete).length + (header message).length).symm

instance (earlier later : Nat) : Decidable (SameBody messages earlier later) :=
  decidable_of_iff _ (exists_split_iff messages fun complete message =>
    (stream header complete).length + (header message).length < earlier ∧
      later < (stream header complete).length + (header message).length + message.length).symm

instance (received : Nat) (chunks : List Bytes) :
    Decidable (CutsHarmless messages received chunks) :=
  decideHarmless received chunks
where
  decideHarmless : (received : Nat) → (chunks : List Bytes) →
      Decidable (CutsHarmless messages received chunks)
    | _, [] => .isTrue trivial
    | received, chunk :: rest =>
        let _ := decideHarmless (received + chunk.length) rest
        inferInstanceAs (Decidable ((¬InsideHeader messages (received + chunk.length) ∧
          ¬SameBody messages received (received + chunk.length)) ∧ _))

end Decides

namespace Agent

variable {parse} {handler} {messages : List Bytes}

def whole : List Bytes → Nat → List Bytes
  | [], _ => []
  | message :: rest, received =>
      if (frame header message).length ≤ received then
        message :: whole rest (received - (frame header message).length)
      else []

/-- What happens to a session when every `DataEvent` stands for the requests whose last
bytes it brings; `received` bytes have come before. -/
def sessionActions (parse : Bytes → Request) (messages : List Bytes) :
    Nat → List Action → List Session.Action
  | _, [] => []
  | received, .data bytes :: rest =>
      (((whole messages (received + bytes.length)).drop (whole messages received).length).map
          parse).map .request ++
        sessionActions parse messages (received + bytes.length) rest
  | received, .other action _ :: rest => action :: sessionActions parse messages received rest

theorem whole_append (complete rest : List Bytes) (more : Nat) :
    whole (complete ++ rest) ((stream header complete).length + more) =
      complete ++ whole rest more := by
  induction complete with
  | nil => simp
  | cons message others induction =>
      have size : (stream header (message :: others)).length =
          (frame header message).length + (stream header others).length := by
        rw [stream_cons, frame, ← List.append_assoc, List.length_append]
      rw [List.cons_append, whole, size, Nat.add_assoc, if_pos (Nat.le_add_right _ _),
        Nat.add_sub_cancel_left, induction, List.cons_append]

theorem aligned_whole {reader : Reader} {received : Nat} {complete : List Bytes}
    (aligned : Aligned messages received reader complete) : whole messages received = complete := by
  cases aligned with
  | boundary rest split bytes =>
      have after : whole rest 0 = [] := by
        cases rest with
        | nil => rfl
        | cons message others =>
            have positive := header_length_pos message
            rw [whole, if_neg (by rw [frame, List.length_append]; omega)]
      have whole_of := whole_append complete rest 0
      rw [← split, Nat.add_zero, ← bytes, after, List.append_nil] at whole_of
      exact whole_of
  | @inBody _ part suffix rest message split bytes cut proper =>
      have unread := List.length_pos_of_ne_nil proper
      have whole_of := whole_append complete (message :: rest)
        ((header message).length + part.length)
      have short : ¬(frame header message).length ≤ (header message).length + part.length := by
        rw [frame, ← cut]
        simp only [List.length_append]
        omega
      rw [← split, ← Nat.add_assoc, ← bytes, whole, if_neg short, List.append_nil] at whole_of
      exact whole_of

theorem whole_mono (messages : List Bytes) (received more : Nat) :
    whole messages received <+: whole messages (received + more) := by
  induction messages generalizing received with
  | nil => exact List.prefix_rfl
  | cons message rest induction =>
      rw [whole, whole]
      by_cases comes : (frame header message).length ≤ received
      · rw [if_pos comes, if_pos (by omega), Nat.sub_add_comm comes]
        exact (List.prefix_cons_inj message).mpr (induction _)
      · rw [if_neg comes]
        exact List.nil_prefix

theorem session_actions_part (parse : Bytes → Request) (messages : List Bytes) (received : Nat)
    (actions : List Action) :
    whole messages received <+:
        whole messages (received + (actions.filterMap Action.data?).flatten.length) ∧
      (sessionActions parse messages received actions).filterMap Session.Action.request? =
        ((whole messages (received + (actions.filterMap Action.data?).flatten.length)).drop
          (whole messages received).length).map parse ∧
      ∀ action ∈ sessionActions parse messages received actions, action.request? = none →
        action ∈ actions.filterMap Action.other? := by
  induction actions generalizing received with
  | nil =>
      refine ⟨List.prefix_rfl, ?_, fun _ member => absurd member List.not_mem_nil⟩
      simp [sessionActions]
  | cons action rest induction =>
      cases action with
      | other action isOther =>
          obtain ⟨begins, requests, others⟩ := induction received
          refine ⟨begins, ?_, ?_⟩
          · rw [sessionActions, List.filterMap_cons_none isOther]
            exact requests
          · intro given member isNone
            rw [sessionActions] at member
            rcases List.mem_cons.mp member with rfl | member
            · exact List.mem_cons_self
            · exact List.mem_cons_of_mem _ (others given member isNone)
      | data bytes =>
          obtain ⟨begins, requests, others⟩ := induction (received + bytes.length)
          have first := whole_mono messages received bytes.length
          have size : received + ((Action.data bytes :: rest).filterMap
              Action.data?).flatten.length =
                received + bytes.length + (rest.filterMap Action.data?).flatten.length := by
            change received + (bytes :: rest.filterMap Action.data?).flatten.length = _
            rw [List.flatten_cons, List.length_append, Nat.add_assoc]
          rw [size]
          refine ⟨first.trans begins, ?_, ?_⟩
          · have own : ((((whole messages (received + bytes.length)).drop
                (whole messages received).length).map parse).map
                  Session.Action.request).filterMap Session.Action.request? =
                    ((whole messages (received + bytes.length)).drop
                      (whole messages received).length).map parse := by
              rw [List.filterMap_map]
              exact List.filterMap_some
            rw [sessionActions, List.filterMap_append, own, requests, ← List.map_append]
            obtain ⟨early, isEarly⟩ := first
            obtain ⟨late, isLate⟩ := begins
            rw [← isLate, ← isEarly]
            simp only [List.append_assoc, List.length_append, List.drop_append,
              Nat.add_sub_cancel_left, Nat.sub_self]
            simp
          · intro given member isNone
            rw [sessionActions] at member
            rcases List.mem_append.mp member with member | member
            · obtain ⟨request, _, rfl⟩ := List.mem_map.mp member
              cases isNone
            · exact others given member isNone

theorem session_actions_requests (parse : Bytes → Request) (messages : List Bytes)
    (actions : List Action)
    (written : (actions.filterMap Action.data?).flatten =
      messages.flatMap writeWithUvarintLength) :
    (sessionActions parse messages 0 actions).filterMap Session.Action.request? =
        messages.map parse ∧
      ∀ action ∈ sessionActions parse messages 0 actions, action.request? = none →
        action ∈ actions.filterMap Action.other? := by
  obtain ⟨_, requests, others⟩ := session_actions_part parse messages 0 actions
  refine ⟨?_, others⟩
  rw [stream_writes] at written
  have all := whole_append messages [] 0
  have nothing : whole messages 0 = [] := by
    cases messages with
    | nil => rfl
    | cons message rest =>
        have positive := header_length_pos message
        rw [whole, if_neg (by rw [frame, List.length_append]; omega)]
  rw [List.append_nil, Nat.add_zero, whole, List.append_nil] at all
  rw [requests, written, Nat.zero_add, all, nothing]
  rfl

/-- Nothing that is asked of an agent that does not run has an effect. -/
theorem not_running_serves {agent : Agent State} (idle : agent.session.running = false)
    (received : Nat) (actions : List Action) :
    (run (step parse handler) agent actions).1.session =
      (run (Session.step handler) agent.session
        (sessionActions parse messages received actions)).1 := by
  induction actions generalizing agent received with
  | nil => rfl
  | cons action rest induction =>
      cases action with
      | data bytes =>
          have stays : (agent.step parse handler (.data bytes)).1 = agent := by
            simp only [step, idle, Bool.false_eq_true, if_false]
          rw [run_cons, stays, sessionActions, run_append, run_requests_not_running idle]
          exact induction idle _
      | other action isOther =>
          rw [run_cons, sessionActions, run_cons]
          exact induction (Session.step_not_running idle action) _

/-- A `DataEvent` that the reader takes to its end. -/
theorem handle_data_serves {agent : Agent State} (runs : agent.session.running = true)
    {bytes : Bytes} {reader : Reader} {next : List Bytes}
    (call : readRequests parse agent.reader bytes = ⟨reader, next.map parse, .returned⟩) :
    (run (Session.step handler) agent.session ((next.map parse).map .request)).1 =
        (agent.handleData parse handler bytes).session ∧
      ((agent.handleData parse handler bytes).session.running = true →
        (agent.handleData parse handler bytes).reader = reader) := by
  have serving := handle_loop_serves parse handler (bytes.length + 1) agent.reader bytes runs
  unfold readRequests at call
  simp only [call] at serving
  obtain ⟨session, reads⟩ := serving
  have given : served handler agent.session ⟨reader, next.map parse, .returned⟩ =
      (agent.handleData parse handler bytes).session := by
    change _ = Session.conclude handler (Session.absorb _ _ _) _
    rw [session]
    split <;> rfl
  exact ⟨given, fun continues => reads (given ▸ continues)⟩

theorem aligned_serves {agent : Agent State} {received : Nat} {complete : List Bytes}
    {actions : List Action} (small : ∀ message ∈ messages, message.length < 2 ^ 32)
    (aligned : Aligned messages received agent.reader complete)
    (cut : (actions.filterMap Action.data?).flatten = (stream header messages).drop received)
    (harmless : CutsHarmless messages received (actions.filterMap Action.data?)) :
    (run (step parse handler) agent actions).1.session =
      (run (Session.step handler) agent.session
        (sessionActions parse messages received actions)).1 := by
  induction actions generalizing agent received complete with
  | nil => rfl
  | cons action rest induction =>
      by_cases runs : agent.session.running = true
      · cases action with
        | other action isOther =>
            rw [run_cons, sessionActions, run_cons]
            exact induction aligned cut harmless
        | data bytes =>
            have first : (Action.data bytes :: rest).filterMap Action.data? =
                bytes :: rest.filterMap Action.data? := rfl
            rw [first] at cut harmless
            rw [List.flatten_cons] at cut
            obtain ⟨⟨notInside, notSame⟩, others⟩ := harmless
            have call := read_requests_call_end parse small aligned cut
            have advanced : (rest.filterMap Action.data?).flatten =
                (stream header messages).drop (received + bytes.length) := by
              rw [← List.drop_drop, ← cut, List.drop_left]
            have stepped : (agent.step parse handler (.data bytes)).1 =
                agent.handleData parse handler bytes := by
              simp only [step, runs, if_true]
            generalize called : readRequests parse agent.reader bytes = result at call
            cases call with
            | headerLost inside short => exact absurd inside notInside
            | bodyLost same retained unread fits short => exact absurd same notSame
            | @aligned reader next position _ =>
                obtain ⟨given, reads⟩ := @handle_data_serves _ parse handler agent runs _ _ _ called
                have brought : (whole messages (received + bytes.length)).drop
                    (whole messages received).length = next := by
                  rw [aligned_whole aligned, aligned_whole position, List.drop_left]
                rw [run_cons, stepped, sessionActions, brought, run_append, given]
                by_cases continues :
                    (agent.handleData parse handler bytes).session.running = true
                · rw [← reads continues] at position
                  exact induction position advanced others
                · exact not_running_serves (by simpa using continues) _ rest
      · exact not_running_serves (by simpa using runs) _ _

end Agent

/-- What is read out of the bytes that items were written as. -/
theorem written_items_read {Item : Type} {serialize : Item → Bytes} {parseItem : Bytes → Item}
    {items : List Item} {chunks : List Bytes}
    (readable : ∀ item ∈ items, (serialize item).length < 2 ^ 32 ∧ parseItem (serialize item) = item)
    (written : chunks.flatten = (items.map serialize).flatMap writeWithUvarintLength)
    (harmless : CutsHarmless (items.map serialize) 0 chunks) :
    readChunks parseItem {} chunks = ⟨{}, items, .returned⟩ := by
  have small : ∀ message ∈ items.map serialize, message.length < 2 ^ 32 := by
    intro message member
    obtain ⟨item, own, rfl⟩ := List.mem_map.mp member
    exact (readable item own).1
  have same : (items.map serialize).map parseItem = items := by
    rw [List.map_map]
    conv_rhs => rw [← List.map_id items]
    exact List.map_congr_left fun item member => (readable item member).2
  rw [stream_writes] at written
  have aligned : Aligned (items.map serialize) 0 {} [] := .boundary _ rfl rfl
  obtain ⟨next, own, reads⟩ :=
    read_chunks_of_harmless parseItem small aligned (Nat.zero_le _) written harmless
  rw [List.nil_append] at own
  rw [reads, ← own, same]

/-- However the requests are cut into events, as long as no cut loses bytes, and whatever
else happens in between, the agent does to its handler what the session does that is given
each request when its last byte comes; the peer reads the responses of that session. -/
theorem agent_serves_session (parse : Bytes → Request) (serialize : AgentResponse → Bytes)
    (parseResponse : Bytes → AgentResponse) (handler : RequestHandler State) (start : State)
    (messages : List Bytes) (actions : List Agent.Action)
    (small : ∀ message ∈ messages, message.length < 2 ^ 32)
    (written : (actions.filterMap Agent.Action.data?).flatten =
      messages.flatMap writeWithUvarintLength)
    (harmless : CutsHarmless messages 0 (actions.filterMap Agent.Action.data?)) :
    let agent := (run (Agent.step parse handler) { session := { state := start } } actions).1
    let session := (run (Session.step handler) { state := start }
      (Agent.sessionActions parse messages 0 actions)).1
    agent.session = session ∧
      (Agent.sessionActions parse messages 0 actions).filterMap Session.Action.request? =
        messages.map parse ∧
      ∀ outputs : List Bytes, outputs.flatten = agent.output serialize →
        CutsHarmless (session.written.map serialize) 0 outputs →
        (∀ response ∈ session.written, (serialize response).length < 2 ^ 32 ∧
          parseResponse (serialize response) = response) →
        readChunks parseResponse {} outputs = ⟨{}, session.written, .returned⟩ := by
  intro agent session
  have same : agent.session = session := by
    have aligned : Aligned messages 0 {} [] := .boundary messages rfl rfl
    exact Agent.aligned_serves small aligned written harmless
  refine ⟨same, (Agent.session_actions_requests parse messages actions written).1, ?_⟩
  intro outputs whole cut readable
  rw [Agent.output, same] at whole
  exact written_items_read readable whole cut

/-- A codec for keepalives, whose messages are a mark and the time in one byte. -/
def parseKeepalive : Bytes → Request
  | [1, time] => .keepalive time.toNat
  | _ => .info

def serializeKeepalive : AgentResponse → Bytes
  | .keepalive time => [2, UInt8.ofNat time.toNat]
  | _ => []

def parseKeepaliveResponse : Bytes → AgentResponse
  | [2, time] => .keepalive time.toNat
  | _ => .init true ""

/-- Two keepalives come in three events, the timer fires in between, and the peer reads
the answers from two parts. -/
theorem keepalives_served :
    let actions : List Agent.Action :=
      [.data [2, 1], .other .tick rfl, .data [5, 2, 1], .data [9]]
    let session := (run (Session.step (LoggingRequestHandler.requestHandler (fun _ => []) true))
      { state := [] } (Agent.sessionActions parseKeepalive [[1, 5], [1, 9]] 0 actions)).1
    readChunks parseKeepaliveResponse {} [[2, 2, 5], [2, 2, 9]] =
      ⟨{}, session.written, .returned⟩ :=
  (agent_serves_session parseKeepalive serializeKeepalive parseKeepaliveResponse
    (LoggingRequestHandler.requestHandler (fun _ => []) true) [] [[1, 5], [1, 9]]
    [.data [2, 1], .other .tick rfl, .data [5, 2, 1], .data [9]] (by decide) (by decide)
    (by decide +kernel)).2.2 [[2, 2, 5], [2, 2, 9]] (by decide +kernel) (by decide +kernel)
    (by
      change ∀ response ∈ [AgentResponse.keepalive 5, .keepalive 9], _
      simp [serializeKeepalive, parseKeepaliveResponse])

end StreamDataProcessor.Kapacitor.UdfAgent
