import StreamDataProcessor.Kapacitor.AgentSession

/-!
# What an agent answers

Of the responses that come out of an agent, those that answer a management request come
once for each of these requests and in their order, a keepalive with the time that was
asked for. The other responses, whenever they are written, do not disturb this.
-/

namespace StreamDataProcessor.Kapacitor.UdfAgent

open Foundation.Machine Arrow

set_option autoImplicit false

/-- The requests that are answered with a response of their own kind. -/
inductive Kind where
  | info
  | init
  | keepalive (time : Int)
  | snapshot
  | restore
  deriving DecidableEq, Repr

def Request.kind? : Request → Option Kind
  | .info => some .info
  | .init _ => some .init
  | .keepalive time => some (.keepalive time)
  | .snapshot => some .snapshot
  | .restore _ => some .restore
  | _ => none

def responseKind? : Response → Option Kind
  | .snapshot _ => some .snapshot
  | .restore _ _ => some .restore
  | _ => none

def AgentResponse.answers? : AgentResponse → Option Kind
  | .info _ => some .info
  | .init _ _ => some .init
  | .keepalive time => some (.keepalive time)
  | .response given => responseKind? given

def answeredKinds (responses : List AgentResponse) : List Kind :=
  responses.filterMap AgentResponse.answers?

@[simp] theorem answered_kinds_append (earlier later : List AgentResponse) :
    answeredKinds (earlier ++ later) = answeredKinds earlier ++ answeredKinds later :=
  List.filterMap_append

variable {State : Type}

/-- A method that answers nothing while it runs, and returns an answer of the kind. -/
def Returns (kind : Kind) (left : Left State AgentResponse) : Prop :=
  answeredKinds left.written = [] ∧
    ∀ response, left.outcome = .ok response → response.answers? = some kind

/-- A handler that leaves the answers to what its methods return. -/
structure WellBehaved (handler : RequestHandler State) : Prop where
  info : ∀ state, Returns .info (handler.info state)
  init : ∀ options state, Returns .init (handler.init options state)
  snapshot : ∀ state, Returns .snapshot (handler.snapshot state)
  restore : ∀ snapshot state, Returns .restore (handler.restore snapshot state)
  beginBatch : ∀ batch state, answeredKinds (handler.beginBatch batch state).written = []
  point : ∀ point state, answeredKinds (handler.point point state).written = []
  endBatch : ∀ batch state, answeredKinds (handler.endBatch batch state).written = []
  tick : ∀ state, answeredKinds (handler.tick state).written = []
  stop : ∀ state, answeredKinds (handler.stop state).written = []

variable {handler : RequestHandler State}

theorem answered_kinds {kind : Kind} {left : Left State AgentResponse}
    (returns : Returns kind left) :
    answeredKinds (answered left).written =
      match (answered left).outcome with
      | .ok _ => [kind]
      | .error _ => [] := by
  obtain ⟨nothing, answers⟩ := returns
  unfold answered
  cases outcome : left.outcome with
  | ok response =>
      simp only [answered_kinds_append, nothing, List.nil_append]
      exact List.filterMap_cons_some (answers response outcome)
  | error fault => exact nothing

/-- A request that is handled without a fault is answered, if it is to be. -/
theorem handle_request_kinds (behaves : WellBehaved handler) (request : Request) (state : State) :
    answeredKinds (handleRequest handler request state).written =
      match (handleRequest handler request state).outcome with
      | .ok _ => request.kind?.toList
      | .error _ => [] := by
  cases request with
  | info => exact answered_kinds (behaves.info state)
  | init options => exact answered_kinds (behaves.init options state)
  | keepalive time => rfl
  | snapshot => exact answered_kinds (behaves.snapshot state)
  | restore snapshot => exact answered_kinds (behaves.restore snapshot state)
  | unhandled number => rfl
  | beginBatch batch =>
      have nothing := behaves.beginBatch batch state
      simp only [handleRequest, nothing, Request.kind?]
      split <;> rfl
  | point point =>
      have nothing := behaves.point point state
      simp only [handleRequest, nothing, Request.kind?]
      split <;> rfl
  | endBatch batch =>
      have nothing := behaves.endBatch batch state
      simp only [handleRequest, nothing, Request.kind?]
      split <;> rfl

namespace Session

def answers (session : Session State) : List Kind := answeredKinds session.written

theorem answers_write (session : Session State) {responses : List AgentResponse}
    (nothing : answeredKinds responses = []) : (session.write responses).answers = session.answers := by
  unfold write answers
  split
  · rfl
  · rw [answered_kinds_append, nothing, List.append_nil]

theorem answers_absorb (session : Session State) (state : State) {responses : List AgentResponse}
    (nothing : answeredKinds responses = []) :
    (session.absorb state responses).answers = session.answers :=
  answers_write { session with state } nothing

theorem answers_stop (behaves : WellBehaved handler) (session : Session State) :
    (session.stop handler).answers = session.answers := by
  have kept := answers_absorb session (handler.stop session.state).state
    (behaves.stop session.state)
  unfold stop
  dsimp only
  split <;> exact kept

theorem answers_tick (behaves : WellBehaved handler) (session : Session State) :
    (session.tick handler).answers = session.answers := by
  have kept := answers_absorb session (handler.tick session.state).state
    (behaves.tick session.state)
  unfold tick
  dsimp only
  split <;> exact kept

theorem answers_conclude (behaves : WellBehaved handler) (session : Session State)
    (ending : CallEnding) : (session.conclude handler ending).answers = session.answers := by
  cases ending with
  | threw what =>
      change ((session.write _).stop handler).answers = _
      rw [answers_stop behaves]
      exact answers_write session rfl
  | returned | crashed | exhausted => rfl

theorem answers_handle (behaves : WellBehaved handler) {session : Session State}
    (runs : session.running = true) (request : Request) :
    (session.handle handler request).answers =
      session.answers ++
        (if (session.handle handler request).running then request.kind?.toList else []) := by
  have kinds := handle_request_kinds behaves request session.state
  cases outcome : (handleRequest handler request session.state).outcome with
  | ok value =>
      rw [outcome] at kinds
      have opened : session.shut = false := by
        unfold running at runs
        simpa using (Bool.and_eq_true_iff.mp runs).1
      rw [handle_of_ok outcome, absorb_running, runs, if_pos rfl]
      simp only [absorb, write, opened, Bool.false_eq_true, if_false, answers,
        answered_kinds_append, kinds]
  | error fault =>
      rw [outcome] at kinds
      have idle : (session.handle handler request).running = false := by
        rw [handle_of_error outcome]
        exact conclude_fault_not_running _ fault
      rw [idle, handle_of_error outcome, if_neg Bool.false_ne_true, List.append_nil,
        answers_conclude behaves, answers_absorb session _ kinds]

def asked (actions : List Action) : List Kind :=
  (actions.filterMap Action.request?).filterMap Request.kind?

theorem asked_request (request : Request) (rest : List Action) :
    asked (.request request :: rest) = request.kind?.toList ++ asked rest := by
  have first : (Action.request request :: rest).filterMap Action.request? =
      request :: rest.filterMap Action.request? := rfl
  unfold asked
  rw [first, List.filterMap_cons]
  cases request.kind? <;> rfl

theorem answers_not_running (behaves : WellBehaved handler) {session : Session State}
    (idle : session.running = false) (action : Action) :
    (session.step handler action).1.answers = session.answers := by
  cases action with
  | request request => simp only [step, idle, Bool.false_eq_true, if_false]
  | ended => simp only [step, idle, Bool.false_eq_true, if_false]
  | tick =>
      simp only [step]
      split
      · exact answers_tick behaves session
      · rfl
  | stop =>
      simp only [step]
      split
      · exact answers_stop behaves session
      · rfl

theorem run_answers_not_running (behaves : WellBehaved handler) {session : Session State}
    (idle : session.running = false) (actions : List Action) :
    (run (step handler) session actions).1.answers = session.answers ∧
      (run (step handler) session actions).1.running = false := by
  induction actions generalizing session with
  | nil => exact ⟨rfl, idle⟩
  | cons action rest induction =>
      obtain ⟨same, stays⟩ := induction (step_not_running idle action)
      rw [run_cons]
      exact ⟨same.trans (answers_not_running behaves idle action), stays⟩

/-- An action that is no request, or the last that a session runs for, answers nothing. -/
theorem answers_step (behaves : WellBehaved handler) {session : Session State}
    (runs : session.running = true) (action : Action) :
    (session.step handler action).1.answers = session.answers ++
      (if (session.step handler action).1.running then asked [action] else []) := by
  have whole : session.fault.isNone = true := (Bool.and_eq_true_iff.mp runs).2
  have nothing (other : Action) (isOther : other.request? = none) : asked [other] = [] := by
    unfold asked
    rw [List.filterMap_cons_none isOther]
    rfl
  cases action with
  | request request =>
      simp only [step, runs, if_true, asked_request]
      exact (answers_handle behaves runs request).trans (by rw [asked, List.filterMap_nil,
        List.filterMap_nil, List.append_nil])
  | tick =>
      simp only [step, whole, if_true, nothing .tick rfl, ite_self, List.append_nil]
      exact answers_tick behaves session
  | ended =>
      simp only [step, runs, if_true, nothing .ended rfl, ite_self, List.append_nil]
      exact answers_stop behaves session
  | stop =>
      simp only [step, whole, if_true, nothing .stop rfl, ite_self, List.append_nil]
      exact answers_stop behaves session

end Session

/-- Whatever happens to a session, it answers management requests in their order and no
other; while it runs it has answered every one of them. -/
theorem management_requests_answered (handler : RequestHandler State)
    (behaves : WellBehaved handler) (start : State) (actions : List Session.Action) :
    let session := (run (Session.step handler) { state := start } actions).1
    session.answers <+: Session.asked actions ∧
      (session.running = true → session.answers = Session.asked actions) := by
  have general (session : Session State) (runs : session.running = true) :
      ∃ answered, (run (Session.step handler) session actions).1.answers =
        session.answers ++ answered ∧ answered <+: Session.asked actions ∧
        ((run (Session.step handler) session actions).1.running = true →
          answered = Session.asked actions) := by
    induction actions generalizing session with
    | nil => exact ⟨[], (List.append_nil _).symm, List.prefix_rfl, fun _ => rfl⟩
    | cons action rest induction =>
        have first := Session.answers_step behaves runs action
        have split : Session.asked (action :: rest) =
            Session.asked [action] ++ Session.asked rest := by
          unfold Session.asked
          rw [← List.singleton_append, List.filterMap_append, List.filterMap_append]
        rw [run_cons, split]
        by_cases goes : (session.step handler action).1.running = true
        · rw [if_pos goes] at first
          obtain ⟨answered, all, begins, whole⟩ := induction _ goes
          refine ⟨Session.asked [action] ++ answered, ?_, ?_, ?_⟩
          · rw [← List.append_assoc, ← first]
            exact all
          · exact (List.prefix_append_right_inj _).mpr begins
          · intro continues
            rw [whole continues]
        · have idle : (session.step handler action).1.running = false := by simpa using goes
          obtain ⟨same, stays⟩ := Session.run_answers_not_running behaves idle rest
          rw [if_neg goes, List.append_nil] at first
          refine ⟨[], ?_, List.nil_prefix, ?_⟩
          · rw [List.append_nil, ← first]
            exact same
          · intro continues
            rw [stays] at continues
            cases continues
  obtain ⟨answered, all, begins, whole⟩ := general { state := start } rfl
  intro session
  have same : session.answers = answered := all
  rw [same]
  exact ⟨begins, whole⟩

theorem logging_behaves (serializePoint : Point → Utils.Uvarint.Bytes) (isLogging : Bool) :
    WellBehaved (LoggingRequestHandler.requestHandler serializePoint isLogging) where
  info _ := ⟨rfl, fun _ returned => by cases returned; rfl⟩
  init _ _ := ⟨rfl, fun _ returned => by cases returned; rfl⟩
  snapshot _ := ⟨rfl, fun _ returned => by cases returned; rfl⟩
  restore _ _ := ⟨rfl, fun _ returned => by cases returned; rfl⟩
  beginBatch _ _ := rfl
  point _ _ := rfl
  endBatch _ _ := rfl
  tick _ := rfl
  stop _ := rfl

/-- Three requests between which a point comes, of which the last comes after the end. -/
theorem logging_answers :
    let session := (run (Session.step (LoggingRequestHandler.requestHandler (fun _ => []) true))
      { state := [] } [.request (.keepalive 5), .request (.point {}), .request .snapshot, .ended,
        .request .info]).1
    session.answers <+: [.keepalive 5, .snapshot, .info] ∧
      (session.running = true → session.answers = [.keepalive 5, .snapshot, .info]) :=
  management_requests_answered (LoggingRequestHandler.requestHandler (fun _ => []) true)
    (logging_behaves _ _) [] [.request (.keepalive 5), .request (.point {}), .request .snapshot,
      .ended, .request .info]

end StreamDataProcessor.Kapacitor.UdfAgent
