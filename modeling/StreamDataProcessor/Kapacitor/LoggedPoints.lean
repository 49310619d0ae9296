import StreamDataProcessor.Kapacitor.AgentSession

/-!
# The log of a logging handler

The points in the log are those that were mirrored, in their order, and the log reads back
as them with the reader of the requests.
-/

namespace StreamDataProcessor.Kapacitor.LoggingRequestHandler

open Foundation.Framing Foundation.Machine Arrow Utils.Uvarint RequestReader UdfAgent

set_option autoImplicit false

def mirrored? : AgentResponse → Option Point
  | .response (.point mirrored) => some mirrored
  | _ => none

def asked? : Session.Action → Option Point
  | .request (.point asked) => some asked
  | _ => none

def logOf (serializePoint : Point → Bytes) (isLogging : Bool) (points : List Point) : Bytes :=
  if isLogging then (points.map serializePoint).flatMap writeWithUvarintLength else []

section Run

variable {serializePoint : Point → Bytes} {isLogging : Bool} {points : List Point}

theorem log_of_concat (point : Point) :
    logOf serializePoint isLogging (points ++ [point]) =
      if isLogging then
        logOf serializePoint isLogging points ++ writeWithUvarintLength (serializePoint point)
      else logOf serializePoint isLogging points := by
  unfold logOf
  cases isLogging with
  | false => rfl
  | true => simp

structure Holds (serializePoint : Point → Bytes) (isLogging : Bool) (points : List Point)
    (session : Session Bytes) : Prop where
  mirrored : session.written.filterMap mirrored? = points
  log : session.state = logOf serializePoint isLogging points

theorem holds_write {session : Session Bytes}
    (holds : Holds serializePoint isLogging points session) (responses : List AgentResponse)
    (silent : responses.filterMap mirrored? = []) :
    Holds serializePoint isLogging points (session.absorb session.state responses) := by
  refine ⟨?_, by rw [Session.absorb_state]; exact holds.log⟩
  unfold Session.absorb Session.write
  split
  · exact holds.mirrored
  · rw [List.filterMap_append, silent, List.append_nil]
    exact holds.mirrored

/-- What a request adds to the log it adds to the responses. -/
theorem holds_request {session : Session Bytes} (runs : session.running = true)
    (holds : Holds serializePoint isLogging points session) (request : Request) :
    let after := session.handle (requestHandler serializePoint isLogging) request
    after.running = true ∧ Holds serializePoint isLogging
      (points ++ (asked? (.request request)).toList) after := by
  intro after
  have quiet (responses : List AgentResponse) (silent : responses.filterMap mirrored? = [])
      (same : after = session.absorb session.state responses)
      (noPoint : (asked? (.request request)).toList = []) :
      after.running = true ∧ Holds serializePoint isLogging
        (points ++ (asked? (.request request)).toList) after := by
    rw [same, noPoint, List.append_nil, Session.absorb_running]
    exact ⟨runs, holds_write holds _ silent⟩
  cases request with
  | info => exact quiet _ rfl rfl rfl
  | init options => exact quiet _ rfl rfl rfl
  | keepalive time => exact quiet _ rfl rfl rfl
  | snapshot => exact quiet _ rfl rfl rfl
  | restore snapshot => exact quiet _ rfl rfl rfl
  | beginBatch batch => exact quiet _ rfl rfl rfl
  | endBatch batch => exact quiet _ rfl rfl rfl
  | unhandled number => exact quiet [] rfl rfl rfl
  | point point =>
      have opened : session.shut = false := by
        unfold Session.running at runs
        simpa using (Bool.and_eq_true_iff.mp runs).1
      have handled : after = session.absorb
          (if isLogging then session.state ++ writeWithUvarintLength (serializePoint point)
            else session.state) [.response (.point point)] := rfl
      rw [handled, Session.absorb_running]
      refine ⟨runs, ?_, ?_⟩
      · simp only [Session.absorb, Session.write, opened, Bool.false_eq_true, if_false,
          List.filterMap_append, holds.mirrored]
        rfl
      · rw [Session.absorb_state, holds.log]
        exact (log_of_concat point).symm

theorem holds_idle {session : Session Bytes} (idle : session.running = false)
    (holds : Holds serializePoint isLogging points session) (actions : List Session.Action) :
    let final := (run (Session.step (requestHandler serializePoint isLogging)) session actions).1
    final.running = false ∧ Holds serializePoint isLogging points final := by
  induction actions generalizing session with
  | nil => exact ⟨idle, holds⟩
  | cons action rest induction =>
      rw [run_cons]
      apply induction (Session.step_not_running idle action)
      have quiet := holds_write holds [] rfl
      cases action with
      | request request =>
          simp only [Session.step, idle, Bool.false_eq_true, if_false]
          exact holds
      | ended =>
          simp only [Session.step, idle, Bool.false_eq_true, if_false]
          exact holds
      | tick =>
          simp only [Session.step]
          split
          · exact quiet
          · exact holds
      | stop =>
          simp only [Session.step]
          split
          · exact ⟨quiet.mirrored, quiet.log⟩
          · exact holds

theorem holds_run {session : Session Bytes} (runs : session.running = true)
    (holds : Holds serializePoint isLogging points session) (actions : List Session.Action) :
    let final := (run (Session.step (requestHandler serializePoint isLogging)) session actions).1
    ∃ logged, Holds serializePoint isLogging (points ++ logged) final ∧
      logged <+: actions.filterMap asked? ∧
      (final.running = true → logged = actions.filterMap asked?) := by
  induction actions generalizing session points with
  | nil =>
      refine ⟨[], ?_, List.prefix_rfl, fun _ => rfl⟩
      rw [List.append_nil]
      exact holds
  | cons action rest induction =>
      have alive : session.fault.isNone = true := (Bool.and_eq_true_iff.mp runs).2
      have quiet := holds_write holds [] rfl
      have stops (stopped : Session Bytes)
          (same : (session.step (requestHandler serializePoint isLogging) action).1 = stopped)
          (idle : stopped.running = false)
          (kept : Holds serializePoint isLogging points stopped) :
          let final := (run (Session.step (requestHandler serializePoint isLogging)) session
            (action :: rest)).1
          ∃ logged, Holds serializePoint isLogging (points ++ logged) final ∧
            logged <+: (action :: rest).filterMap asked? ∧
            (final.running = true → logged = (action :: rest).filterMap asked?) := by
        rw [run_cons, same]
        obtain ⟨stays, held⟩ := holds_idle idle kept rest
        refine ⟨[], ?_, List.nil_prefix, fun running => ?_⟩
        · rw [List.append_nil]
          exact held
        · rw [stays] at running
          cases running
      cases action with
      | request request =>
          have stepped : (session.step (requestHandler serializePoint isLogging)
              (.request request)).1 =
                session.handle (requestHandler serializePoint isLogging) request := by
            simp only [Session.step, runs, if_true]
          obtain ⟨running, after⟩ := holds_request runs holds request
          obtain ⟨logged, held, begins, whole⟩ := induction running after
          have split : (Session.Action.request request :: rest).filterMap asked? =
              (asked? (.request request)).toList ++ rest.filterMap asked? := by
            rw [List.filterMap_cons]
            cases asked? (.request request) <;> rfl
          rw [run_cons, stepped, split]
          refine ⟨(asked? (.request request)).toList ++ logged, ?_, ?_, ?_⟩
          · rw [← List.append_assoc]
            exact held
          · exact (List.prefix_append_right_inj _).mpr begins
          · intro still
            rw [whole still]
      | tick =>
          have stepped : (session.step (requestHandler serializePoint isLogging) .tick).1 =
              session.absorb session.state [] := by
            simp only [Session.step, alive, if_true]
            rfl
          rw [run_cons, stepped]
          exact induction ((Session.absorb_running _ _ _).trans runs) quiet
      | ended =>
          apply stops (session.stop (requestHandler serializePoint isLogging))
          · simp only [Session.step, runs, if_true]
          · exact Session.stop_not_running session
          · exact ⟨quiet.mirrored, quiet.log⟩
      | stop =>
          apply stops (session.stop (requestHandler serializePoint isLogging))
          · simp only [Session.step, alive, if_true]
          · exact Session.stop_not_running session
          · exact ⟨quiet.mirrored, quiet.log⟩

end Run

/-- Whatever happens to a session, the points of its log are the mirrored ones in their
order, which are the first of those asked for, and all of them while it runs; and the log
reads back as them. -/
theorem log_holds_mirrored_points (serializePoint : Point → Bytes) (parsePoint : Bytes → Point)
    (isLogging : Bool) (actions : List Session.Action) :
    let session := (run (Session.step (requestHandler serializePoint isLogging))
      { state := [] } actions).1
    let mirrored := session.written.filterMap mirrored?
    mirrored <+: actions.filterMap asked? ∧
      (session.running = true → mirrored = actions.filterMap asked?) ∧
      session.state = logOf serializePoint isLogging mirrored ∧
      ∀ chunks : List Bytes, isLogging = true → chunks.flatten = session.state →
        CutsHarmless (mirrored.map serializePoint) 0 chunks →
        (∀ point ∈ mirrored, (serializePoint point).length < 2 ^ 32 ∧
          parsePoint (serializePoint point) = point) →
        readChunks parsePoint {} chunks = ⟨{}, mirrored, .returned⟩ := by
  have fresh : Holds serializePoint isLogging [] { state := [] } := by
    refine ⟨rfl, ?_⟩
    cases isLogging <;> rfl
  obtain ⟨logged, held, begins, whole⟩ := holds_run rfl fresh actions
  intro session mirrored
  have same : mirrored = logged := held.mirrored
  rw [same]
  refine ⟨begins, whole, held.log, ?_⟩
  intro chunks logs cut harmless readable
  rw [held.log, List.nil_append, logOf, if_pos logs] at cut
  exact written_items_read readable cut harmless

/-- Two points before the end and one after it, and the log in three parts. -/
theorem two_points_logged :
    let session := (run (Session.step (requestHandler (fun point => [UInt8.ofNat point.time.toNat])
      true)) { state := [] } [.request (.point { time := 4 }), .request (.point { time := 5 }),
        .ended, .request (.point { time := 6 })]).1
    session.written.filterMap mirrored? = [{ time := 4 }, { time := 5 }] ∧
      readChunks (fun bytes => { time := (bytes.headD 0).toNat }) {} [[1], [4], [1, 5]] =
        ⟨{}, session.written.filterMap mirrored?, .returned⟩ :=
  ⟨rfl, (log_holds_mirrored_points (fun point => [UInt8.ofNat point.time.toNat])
    (fun bytes => { time := (bytes.headD 0).toNat }) true [.request (.point { time := 4 }),
      .request (.point { time := 5 }), .ended, .request (.point { time := 6 })]).2.2.2
    [[1], [4], [1, 5]] rfl (by decide +kernel) (by decide +kernel)
    (by
      change ∀ point ∈ [({ time := 4 } : Point), { time := 5 }], _
      simp)⟩

end StreamDataProcessor.Kapacitor.LoggingRequestHandler
