import StreamDataProcessor.Kapacitor.TimerRequestHandler

/-!
# Every point is converted once

From the bytes that come in to the batches that the handler is given: whenever the timer
fires, and however the requests are cut, each point is converted once, in its order, and
none is left when the agent has stopped.
-/

namespace StreamDataProcessor.Kapacitor.TimerRequestHandler

open Foundation.Effect Foundation.Machine Arrow Utils.Uvarint RequestReader UdfAgent

set_option autoImplicit false

variable {State : Type}

def pointOf? : Request → Option Point
  | .point point => some point
  | _ => none

/-- The storage of the timer has its converter and its handler. -/
def Provided (timer : Timer State) (pointsConverter : Converter)
    (handler : RecordBatchHandler State) : Prop :=
  ∃ providesBatch renderScalar, timer.base.pointsStorage =
    some ⟨some pointsConverter, some handler, providesBatch, renderScalar⟩

def TimerState.converted (state : TimerState State) : List Point :=
  (convertedIn state.contents.events).flatten

section Accounts

variable (pointsConverter : Converter) (handler : RecordBatchHandler State) (start : State)

/-- What was converted is what the handler was given, from the state it started in. -/
abbrev HandedOn (contents : Contents State) : Prop :=
  Handed pointsConverter handler start (convertedIn contents.events) contents

/-- Each of the points was converted once or still waits, for a timer that runs. -/
structure Accounts (points : List Point) (state : TimerState State) : Prop where
  points : state.converted ++ state.contents.points = points
  armed : state.contents.points ≠ [] → state.active = true
  handed : HandedOn pointsConverter handler start state.contents

/-- All of the points were converted once, and no timer runs. -/
structure Settled (points : List Point) (state : TimerState State) : Prop where
  converted : state.converted = points
  empty : state.contents.points = []
  idle : state.active = false
  handed : HandedOn pointsConverter handler start state.contents

end Accounts

section Handler

variable {timer : Timer State} {pointsConverter : Converter} {handler : RecordBatchHandler State}
  {start : State} {points : List Point} {state : TimerState State}

theorem handle_batch_converts_waiting (provided : Provided timer pointsConverter handler)
    {contents : Contents State} (handed : HandedOn pointsConverter handler start contents) :
    Ends (fun _ _ => True) (fun _ after => after.points = [] ∧
        (convertedIn after.events).flatten =
          (convertedIn contents.events).flatten ++ contents.points ∧
        HandedOn pointsConverter handler start after)
      (timer.base.handleBatch contents) := by
  obtain ⟨providesBatch, renderScalar, own⟩ := provided
  have logged := BatchRequestHandler.handle_batch_logged_converts pointsConverter handler
    providesBatch renderScalar contents
  unfold StreamRequestHandler.handleBatch
  rw [own]
  apply ends_bind (ends_mono logged (fun _ _ _ => trivial) fun _ _ converts => converts)
  intro _ after converts
  refine ⟨rfl, ?_, ?_⟩
  · change (convertedIn after.events).flatten = _
    rw [converts.converted, List.flatten_append, PointsStorage.waiting]
    split
    · next empty => rw [empty]; rfl
    · simp
  · have later := converts.handed handed
    rw [← converts.converted] at later
    exact ⟨rfl, later.handled, later.handler⟩

/-- A request that restores nothing is handled without a fault, and its point waits. -/
theorem accounts_request (provided : Provided timer pointsConverter handler)
    (accounts : Accounts pointsConverter handler start points state)
    {request : Request} (noRestore : ∀ snapshot, request ≠ .restore snapshot) :
    (handleRequest timer.requestHandler request state).outcome = .ok () ∧
      Accounts pointsConverter handler start (points ++ (pointOf? request).toList)
        (handleRequest timer.requestHandler request state).state := by
  obtain ⟨providesBatch, renderScalar, own⟩ := provided
  have same (toList : (pointOf? request).toList = []) :
      Accounts pointsConverter handler start (points ++ (pointOf? request).toList) state := by
    rw [toList, List.append_nil]
    exact accounts
  cases request with
  | init options => exact ⟨rfl, same rfl⟩
  | keepalive time => exact ⟨rfl, same rfl⟩
  | beginBatch batch => exact ⟨rfl, same rfl⟩
  | endBatch batch => exact ⟨rfl, same rfl⟩
  | unhandled number => exact ⟨rfl, same rfl⟩
  | restore snapshot => exact absurd rfl (noRestore snapshot)
  | info =>
      have handled : timer.requestHandler.info state = ⟨state, [], .ok (.info
          { wants := .stream, provides := if providesBatch then .batch else .stream })⟩ := by
        change timer.info state = _
        rw [Timer.info, own]
      rw [handleRequest, handled]
      exact ⟨rfl, same rfl⟩
  | snapshot =>
      have handled : timer.base.snapshot state.contents =
          .ok (.snapshot (timer.base.codec.serialize state.contents.points)) state.contents := by
        rw [StreamRequestHandler.snapshot, own]
        rfl
      change (answered (returnResponse (onContents state _))).outcome = _ ∧
        Accounts _ _ _ _ (answered (returnResponse (onContents state _))).state
      rw [handled]
      exact ⟨rfl, same rfl⟩
  | point point =>
      have handled : timer.base.point point state.contents =
          .ok () { state.contents with points := state.contents.points ++ [point] } := by
        rw [StreamRequestHandler.point, own]
        rfl
      change (timer.point point state).outcome = _ ∧
        Accounts _ _ _ _ (timer.point point state).state
      rw [Timer.point, own, handled]
      refine ⟨rfl, ?_, fun _ => rfl, ⟨rfl, accounts.handed.handled, accounts.handed.handler⟩⟩
      change state.converted ++ (state.contents.points ++ [point]) = points ++ [point]
      rw [← accounts.points, List.append_assoc]

theorem accounts_flushed (active : Bool) (provided : Provided timer pointsConverter handler)
    (accounts : Accounts pointsConverter handler start points state) :
    let left := onContents { state with active } (timer.base.handleBatch state.contents)
    left.outcome = .ok () → left.state.converted = points ∧ left.state.contents.points = [] ∧
      left.state.active = active ∧ HandedOn pointsConverter handler start left.state.contents := by
  have handled := handle_batch_converts_waiting provided accounts.handed
  cases result : timer.base.handleBatch state.contents with
  | error fault after => intro left returned; cases returned
  | ok value after =>
      rw [result] at handled
      intro left _
      exact ⟨handled.2.1.trans accounts.points, handled.1, rfl, handled.2.2⟩

theorem accounts_tick (provided : Provided timer pointsConverter handler)
    (accounts : Accounts pointsConverter handler start points state)
    (returned : (timer.tick state).outcome = .ok ()) :
    Accounts pointsConverter handler start points (timer.tick state).state := by
  unfold Timer.tick at returned ⊢
  split at returned
  · next active =>
    rw [if_pos active]
    obtain ⟨converted, empty, _, handed⟩ := accounts_flushed _ provided accounts returned
    exact ⟨by rw [converted, empty, List.append_nil], fun waits => absurd empty waits, handed⟩
  · next idle =>
    rw [if_neg idle]
    exact accounts

theorem accounts_stop (provided : Provided timer pointsConverter handler)
    (accounts : Accounts pointsConverter handler start points state)
    (returned : (timer.stop state).outcome = .ok ()) :
    Settled pointsConverter handler start points (timer.stop state).state := by
  have flushed := accounts_flushed state.active provided accounts
  obtain ⟨providesBatch, renderScalar, own⟩ := provided
  unfold Timer.stop at returned ⊢
  rw [own] at returned ⊢
  dsimp only at returned flushed ⊢
  split at returned
  · next value result =>
    obtain ⟨converted, empty, _, handed⟩ := flushed result
    exact ⟨converted, empty, rfl, handed⟩
  · next fault result =>
    rw [result] at returned
    cases returned

end Handler

section Session

variable {timer : Timer State} {pointsConverter : Converter} {handler : RecordBatchHandler State}
  {start : State} {points : List Point} {session : Session (TimerState State)}

theorem session_request (provided : Provided timer pointsConverter handler)
    (runs : session.running = true)
    (accounts : Accounts pointsConverter handler start points session.state) {request : Request}
    (noRestore : ∀ snapshot, request ≠ .restore snapshot) :
    (session.handle timer.requestHandler request).running = true ∧
      Accounts pointsConverter handler start (points ++ (pointOf? request).toList)
        (session.handle timer.requestHandler request).state := by
  obtain ⟨returned, after⟩ := accounts_request provided accounts noRestore
  rw [Session.handle_of_ok returned, Session.absorb_running, Session.absorb_state]
  exact ⟨runs, after⟩

theorem session_tick (provided : Provided timer pointsConverter handler)
    (runs : session.running = true)
    (accounts : Accounts pointsConverter handler start points session.state)
    (whole : (session.tick timer.requestHandler).fault = none) :
    (session.tick timer.requestHandler).running = true ∧
      Accounts pointsConverter handler start points
        (session.tick timer.requestHandler).state := by
  unfold Session.tick at whole ⊢
  dsimp only at whole ⊢
  split at whole
  · next value returned =>
    have ticked : (timer.tick session.state).outcome = .ok () := returned
    simp only [Session.absorb_running, Session.absorb_state]
    exact ⟨runs, accounts_tick provided accounts ticked⟩
  · cases whole

theorem session_stop (provided : Provided timer pointsConverter handler)
    (accounts : Accounts pointsConverter handler start points session.state)
    (whole : (session.stop timer.requestHandler).fault = none) :
    Settled pointsConverter handler start points (session.stop timer.requestHandler).state := by
  unfold Session.stop at whole ⊢
  dsimp only at whole ⊢
  split at whole
  · next value returned =>
    have stopped : (timer.stop session.state).outcome = .ok () := returned
    simp only [Session.absorb_state]
    exact accounts_stop provided accounts stopped
  · cases whole

theorem fault_stays {Other : Type} (handler : RequestHandler Other) {session : Session Other}
    (failed : session.fault.isNone = false) (actions : List Session.Action) :
    (run (Session.step handler) session actions).1 = session := by
  have idle : session.running = false := by
    rw [Session.running, failed, Bool.and_false]
  induction actions with
  | nil => rfl
  | cons action rest induction =>
      have stays : (session.step handler action).1 = session := by
        cases action <;> simp [Session.step, idle, failed]
      rw [run_cons, stays, induction]

/-- A run in which only requests come and the timer fires. -/
theorem session_accounts (provided : Provided timer pointsConverter handler)
    (runs : session.running = true)
    (accounts : Accounts pointsConverter handler start points session.state) {actions : List Session.Action}
    (noRestore : ∀ request ∈ actions.filterMap Session.Action.request?,
      ∀ snapshot, request ≠ .restore snapshot)
    (ticks : ∀ action ∈ actions, action.request? = none → action = .tick)
    (whole : (run (Session.step timer.requestHandler) session actions).1.fault = none) :
    (run (Session.step timer.requestHandler) session actions).1.running = true ∧
      Accounts pointsConverter handler start
        (points ++ (actions.filterMap Session.Action.request?).filterMap pointOf?)
        (run (Session.step timer.requestHandler) session actions).1.state := by
  induction actions generalizing session points with
  | nil => exact ⟨runs, by rw [List.filterMap_nil, List.filterMap_nil, List.append_nil]; exact accounts⟩
  | cons action rest induction =>
      rw [run_cons] at whole ⊢
      have others := fun action member => ticks action (List.mem_cons_of_mem _ member)
      cases asked : action.request? with
      | none =>
          have isTick := ticks action List.mem_cons_self asked
          subst isTick
          rw [List.filterMap_cons_none asked] at noRestore ⊢
          have alive : session.fault.isNone = true := (Bool.and_eq_true_iff.mp runs).2
          have stepped : (session.step timer.requestHandler .tick).1 =
              session.tick timer.requestHandler := by
            simp only [Session.step, alive, if_true]
          rw [stepped] at whole ⊢
          have still : (session.tick timer.requestHandler).fault = none := by
            by_contra failed
            have stays := fault_stays timer.requestHandler
              (Option.isNone_eq_false_iff.mpr (Option.isSome_iff_ne_none.mpr failed)) rest
            rw [stays] at whole
            exact failed whole
          obtain ⟨running, after⟩ := session_tick provided runs accounts still
          exact induction running after noRestore others whole
      | some request =>
          have isRequest : action = .request request := by
            cases action with
            | request own => exact congrArg _ (Option.some.inj asked)
            | tick | ended | stop => cases asked
          subst isRequest
          rw [List.filterMap_cons_some asked] at noRestore ⊢
          have stepped : (session.step timer.requestHandler (.request request)).1 =
              session.handle timer.requestHandler request := by
            simp only [Session.step, runs, if_true]
          rw [stepped] at whole ⊢
          obtain ⟨running, after⟩ := session_request provided runs accounts
            (noRestore request List.mem_cons_self)
          have later := induction running after
            (fun other member => noRestore other (List.mem_cons_of_mem _ member)) others whole
          have split : (request :: rest.filterMap Session.Action.request?).filterMap pointOf? =
              (pointOf? request).toList ++
                (rest.filterMap Session.Action.request?).filterMap pointOf? := by
            rw [List.filterMap_cons]
            cases pointOf? request <;> rfl
          rw [split, ← List.append_assoc]
          exact later

end Session

/-- What comes to an agent as bytes, the firing of its timer and the end of the connection:
every point of the messages is converted once and in order, and the handler is in the state in
which the batches made of the points leave it. Before the end those that are not yet converted
wait for a timer that runs, and at the end none is left. -/
theorem points_converted_once (timer : Timer State) (pointsConverter : Converter)
    (handler : RecordBatchHandler State) (provided : Provided timer pointsConverter handler)
    (parse : Bytes → Request) (start : State) (messages : List Bytes)
    (actions : List Agent.Action) (small : ∀ message ∈ messages, message.length < 2 ^ 32)
    (noRestore : ∀ message ∈ messages, ∀ snapshot, parse message ≠ .restore snapshot)
    (ticks : ∀ action ∈ actions.filterMap Agent.Action.other?, action = .tick)
    (written : (actions.filterMap Agent.Action.data?).flatten =
      messages.flatMap writeWithUvarintLength)
    (harmless : CutsHarmless messages 0 (actions.filterMap Agent.Action.data?)) :
    let points := (messages.map parse).filterMap pointOf?
    let agent := (run (Agent.step parse timer.requestHandler)
      { session := { state := ⟨{ handler := start }, false⟩ } } actions).1
    let ended := (agent.step parse timer.requestHandler (.other .ended rfl)).1
    (agent.session.fault = none →
        Accounts pointsConverter handler start points agent.session.state) ∧
      (ended.session.fault = none →
        Settled pointsConverter handler start points ended.session.state) := by
  have aligned : Aligned messages 0 {} [] := .boundary messages rfl rfl
  have accounts : Accounts pointsConverter handler start []
      (TimerState.mk { handler := start } false) :=
    ⟨rfl, fun waits => absurd rfl waits, rfl, rfl, rfl⟩
  obtain ⟨requests, others⟩ := Agent.session_actions_requests parse messages actions written
  have restores : ∀ request ∈ (Agent.sessionActions parse messages 0 actions).filterMap
      Session.Action.request?, ∀ snapshot, request ≠ .restore snapshot := by
    rw [requests]
    intro request member snapshot same
    obtain ⟨message, own, rfl⟩ := List.mem_map.mp member
    exact noRestore message own snapshot same
  intro points agent ended
  have serves : agent.session = (run (Session.step timer.requestHandler)
      { state := ⟨{ handler := start }, false⟩ }
        (Agent.sessionActions parse messages 0 actions)).1 :=
    Agent.aligned_serves small aligned written harmless
  have general (whole : agent.session.fault = none) :
      agent.session.running = true ∧
        Accounts pointsConverter handler start points agent.session.state := by
    rw [serves] at whole ⊢
    have run := session_accounts provided rfl accounts restores
      (fun action member isOther => ticks action (others action member isOther)) whole
    rw [requests, List.nil_append] at run
    exact run
  refine ⟨fun whole => (general whole).2, ?_⟩
  intro whole
  have alive : agent.session.fault = none := by
    by_contra failed
    have idle : agent.session.running = false := by
      rw [Session.running_eq_false_iff]
      exact .inr (Option.isNone_eq_false_iff.mpr (Option.isSome_iff_ne_none.mpr failed))
    have stays : ended.session = agent.session := by
      change (if agent.session.running then _ else _) = _
      rw [idle, if_neg Bool.false_ne_true]
    rw [stays] at whole
    exact failed whole
  obtain ⟨runs, before⟩ := general alive
  have stopped : ended.session = agent.session.stop timer.requestHandler := by
    change (if agent.session.running then _ else _) = _
    rw [if_pos runs]
  rw [stopped] at whole ⊢
  exact session_stop provided before whole

def batchConverter : Converter where
  convertToRecordBatches _ := .ok [{ schema := { fields := [] }, rows := [], conforms := by simp }]
  convertToPoints _ := .ok []

def countingHandler : RecordBatchHandler Nat where
  handle recordBatches := do
    modify (· + recordBatches.length)
    return []

def countingTimer : Timer Nat where
  base :=
    { pointsStorage := some
        { pointsConverter := some batchConverter
          handler := some countingHandler
          providesBatch := false
          renderScalar := fun _ _ => "" }
      codec := ⟨fun _ => [], fun _ => ([], false)⟩ }
  repeats := true

def parsePoint : Bytes → Request
  | [time] => .point { time := time.toNat }
  | _ => .info

/-- Two points before the timer fires, and one before the end: two batches are counted. -/
theorem three_points_converted :
    let agent := (run (Agent.step parsePoint countingTimer.requestHandler)
      { session := { state := ⟨{ handler := 0 }, false⟩ } }
        [.data [1, 4, 1, 5], .other .tick rfl, .data [1, 6]]).1
    let ended := (agent.step parsePoint countingTimer.requestHandler (.other .ended rfl)).1
    Settled batchConverter countingHandler 0 [{ time := 4 }, { time := 5 }, { time := 6 }]
        ended.session.state ∧
      ended.session.state.contents.handler = 2 :=
  ⟨(points_converted_once countingTimer batchConverter countingHandler ⟨_, _, rfl⟩ parsePoint 0
      [[4], [5], [6]] [.data [1, 4, 1, 5], .other .tick rfl, .data [1, 6]] (by decide)
      (by
        intro message member snapshot
        obtain rfl | rfl | rfl : message = [4] ∨ message = [5] ∨ message = [6] := by
          simpa using member
        · exact Request.noConfusion
        · exact Request.noConfusion
        · exact Request.noConfusion)
      (by
        intro action member
        exact List.mem_singleton.mp member)
      (by decide) (by decide +kernel)).2 rfl, rfl⟩

end StreamDataProcessor.Kapacitor.TimerRequestHandler
