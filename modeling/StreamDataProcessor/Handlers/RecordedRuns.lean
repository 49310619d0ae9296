import StreamDataProcessor.Handlers.Emissions
import StreamDataProcessor.Handlers.WindowTermination

/-!
# Recorded runs of the dynamic handler over a window handler

The record of a call that returns is followed by the window handler: each slice is handled in
the state that the calls before it leave. The windows of a run are those of the
emissions of its record.
-/

namespace StreamDataProcessor.Handlers.DynamicWindow

open Foundation Foundation.Effect Arrow Metadata Utils Window

set_option autoImplicit false

section Sums

variable (keep : Int → Int)

/-- A record of calls that return, from one state of the window handler to another. -/
inductive FollowsIn : WindowHandler → List (Call WindowHandler) → WindowHandler → Prop where
  | done (handler : WindowHandler) : FollowsIn handler [] handler
  | handled {slice : RecordBatch} {handler after final : WindowHandler}
      {window : List RecordBatch} {rest : List (Call WindowHandler)}
      (returned : handleIn keep slice handler = .ok window after)
      (follows : FollowsIn after rest final) :
      FollowsIn handler (.handled slice handler :: rest) final
  | setPeriod {value ts : Int} {handler final : WindowHandler}
      {rest : List (Call WindowHandler)}
      (follows : FollowsIn (setPeriodOptionIn keep value ts handler) rest final) :
      FollowsIn handler (.setPeriod value ts :: rest) final
  | setEvery {value ts : Int} {handler final : WindowHandler}
      {rest : List (Call WindowHandler)}
      (follows : FollowsIn (setEveryOptionIn keep value ts handler) rest final) :
      FollowsIn handler (.setEvery value ts :: rest) final

def emissionsIn (slice : RecordBatch) (handler : WindowHandler) : List Emission :=
  match handleEmittingIn keep slice handler with
  | .ok emissions _ => emissions
  | .error _ _ => []

def emissionsOfIn : List (Call WindowHandler) → List Emission
  | [] => []
  | .handled slice handler :: rest => emissionsIn keep slice handler ++ emissionsOfIn rest
  | .setPeriod _ _ :: rest => emissionsOfIn rest
  | .setEvery _ _ :: rest => emissionsOfIn rest

def handleAllIn (options : DynamicWindowOptions) :
    List RecordBatch → Step WindowHandler (List RecordBatch)
  | [] => pure []
  | batch :: rest => do
      let result ← handle (windowHandlerIn keep) options batch
      let results ← handleAllIn options rest
      pure (result ++ results)

/-- `handleAllIn`, with the record of the calls that the window handler gets. -/
def handleAllRecordedIn (options : DynamicWindowOptions) :
    List RecordBatch → Step WindowHandler (List RecordBatch × List (Call WindowHandler))
  | [] => pure ([], [])
  | batch :: rest => do
      let handler ← get
      match handle (recording (windowHandlerIn keep)) options batch (handler, []) with
      | .error fault (after, _) => do
          set after
          throw fault
      | .ok result (after, calls) => do
          set after
          let (results, others) ← handleAllRecordedIn options rest
          pure (result ++ results, calls ++ others)

end Sums

abbrev Follows := FollowsIn id

abbrev emissionsOf (calls : List (Call WindowHandler)) : List Emission := emissionsOfIn id calls

variable {keep : Int → Int}

theorem handle_all_eq_recorded (options : DynamicWindowOptions) (batches : List RecordBatch) :
    DynamicWindow.handleAllIn keep options batches =
      (handleAllRecordedIn keep options batches >>= fun recorded => pure recorded.1) := by
  induction batches with
  | nil => rfl
  | cons batch rest induction =>
      funext handler
      have plain := handle_recording_over (windowHandlerIn keep) options batch (handler, [])
      rw [DynamicWindow.handleAllIn, handleAllRecordedIn]
      simp only [bind_apply, get_apply, ← plain, induction]
      cases handle (recording (windowHandlerIn keep)) options batch (handler, []) with
      | error fault final => rfl
      | ok result final =>
          simp only [projectResult, bind_apply, set_apply]
          cases handleAllRecordedIn keep options rest final.1 with
          | error fault after => rfl
          | ok recorded after => rfl

theorem follows_append {first middle last : WindowHandler}
    {earlier later : List (Call WindowHandler)} (start : FollowsIn keep first earlier middle)
    (rest : FollowsIn keep middle later last) : FollowsIn keep first (earlier ++ later) last := by
  induction start with
  | done => exact rest
  | handled returned _ induction => exact .handled returned (induction rest)
  | setPeriod _ induction => exact .setPeriod (induction rest)
  | setEvery _ induction => exact .setEvery (induction rest)

@[simp] theorem emissions_of_append (earlier later : List (Call WindowHandler)) :
    emissionsOfIn keep (earlier ++ later) =
      emissionsOfIn keep earlier ++ emissionsOfIn keep later := by
  induction earlier with
  | nil => rfl
  | cons call rest induction =>
      cases call with
      | handled slice handler =>
          rw [List.cons_append, emissionsOfIn, emissionsOfIn, induction, List.append_assoc]
      | setPeriod value ts => exact induction
      | setEvery value ts => exact induction

def Extends (keep : Int → Int) (handler : WindowHandler) (log : List (Call WindowHandler))
    (windows : List RecordBatch) (final : WindowHandler × List (Call WindowHandler)) : Prop :=
  ∃ calls, final.2 = log ++ calls ∧ FollowsIn keep handler calls final.1 ∧
    windows = (emissionsOfIn keep calls).flatMap Emission.window

theorem extends_refl (handler : WindowHandler) (log : List (Call WindowHandler)) :
    Extends keep handler log [] (handler, log) :=
  ⟨[], (List.append_nil _).symm, .done handler, rfl⟩

theorem extends_trans {handler : WindowHandler} {log : List (Call WindowHandler)}
    {earlier later : List RecordBatch} {middle final : WindowHandler × List (Call WindowHandler)}
    (first : Extends keep handler log earlier middle)
    (second : Extends keep middle.1 middle.2 later final) :
    Extends keep handler log (earlier ++ later) final := by
  obtain ⟨calls, logged, follows, rfl⟩ := first
  obtain ⟨others, loggedNext, followsNext, rfl⟩ := second
  refine ⟨calls ++ others, by rw [loggedNext, logged, List.append_assoc],
    follows_append follows followsNext, ?_⟩
  rw [emissions_of_append, List.flatMap_append]

theorem recorded_slice_extends {recordBatch : RecordBatch} {taken : Nat}
    {handler : WindowHandler} {log : List (Call WindowHandler)} {windows : List RecordBatch}
    {final : WindowHandler × List (Call WindowHandler)}
    (returned : handleSlice (recording (windowHandlerIn keep)) recordBatch taken (handler, log) =
      .ok windows final) :
    Extends keep handler log windows final := by
  unfold handleSlice at returned
  split at returned
  · simp only [recording, windowHandlerIn] at returned
    cases outcome : Window.handleIn keep (recordBatch.slice 0 taken) handler with
    | error fault after =>
        rw [outcome] at returned
        cases returned
    | ok window after =>
        rw [outcome, EStateM.Result.ok.injEq] at returned
        obtain ⟨rfl, rfl⟩ := returned
        refine ⟨[.handled (recordBatch.slice 0 taken) handler], rfl,
          .handled outcome (.done after), ?_⟩
        rw [handle_eq_emitting, bind_apply] at outcome
        simp only [emissionsOfIn, emissionsIn, List.append_nil]
        cases emitting : handleEmittingIn keep (recordBatch.slice 0 taken) handler with
        | error fault other =>
            rw [emitting] at outcome
            cases outcome
        | ok emissions other =>
            rw [emitting] at outcome
            cases outcome
            rfl
  · cases returned
    exact extends_refl handler log

theorem refresh_index_state {batch : RecordBatch} {option : Option OptionColumn}
    {getOption : WindowHandler × List (Call WindowHandler) → Int} {index newIndex : Nat}
    {state after : WindowHandler × List (Call WindowHandler)}
    (returned : refreshIndex batch getOption option index state = .ok newIndex after) :
    after = state := by
  unfold refreshIndex at returned
  cases option with
  | none =>
      cases returned
      rfl
  | some column =>
      dsimp only at returned
      split at returned
      · rw [bind_of_ok (get_apply _)] at returned
        cases found : findNewWindowOptionIndex batch (getOption state) column with
        | error fault =>
            rw [found] at returned
            cases returned
        | ok position =>
            rw [found] at returned
            cases returned
            rfl
      · cases returned
        rfl

theorem apply_option_extends {recordBatch : RecordBatch}
    {setOption : Int → Int → WindowHandler × List (Call WindowHandler) →
      WindowHandler × List (Call WindowHandler)}
    (sets : ∀ value ts handler log,
      Extends keep handler log [] (setOption value ts (handler, log)))
    {option : Option OptionColumn} {reached : Bool} {newOptionsTs : Int}
    {handler : WindowHandler} {log : List (Call WindowHandler)}
    {final : WindowHandler × List (Call WindowHandler)}
    (returned : applyOption recordBatch setOption option reached newOptionsTs (handler, log) =
      .ok () final) :
    Extends keep handler log [] final := by
  unfold applyOption at returned
  cases option with
  | none =>
      cases returned
      exact extends_refl handler log
  | some column =>
      dsimp only at returned
      split at returned
      · cases found : getDurationOption recordBatch 0 column.name column.timeUnit with
        | error fault =>
            rw [found] at returned
            cases returned
        | ok value =>
            rw [found] at returned
            cases returned
            exact sets value newOptionsTs handler log
      · cases returned
        exact extends_refl handler log

theorem dynamic_loop_extends (timeColumnName : String) (period every : Option OptionColumn)
    (fuel : Nat) {sortedByTime : RecordBatch} {periodIndex everyIndex : Nat}
    {result results : List RecordBatch} {handler : WindowHandler}
    {log : List (Call WindowHandler)} {final : WindowHandler × List (Call WindowHandler)}
    (returned : dynamicLoop (recording (windowHandlerIn keep)) timeColumnName period every fuel
      sortedByTime periodIndex everyIndex result (handler, log) = .ok results final) :
    ∃ windows, results = result ++ windows ∧ Extends keep handler log windows final := by
  induction fuel generalizing sortedByTime periodIndex everyIndex result handler log with
  | zero => cases returned
  | succ fuel induction =>
      unfold dynamicLoop at returned
      split at returned
      · cases returned
        exact ⟨[], (List.append_nil _).symm, extends_refl handler log⟩
      · obtain ⟨newPeriodIndex, state, looked, returned⟩ := bind_ok_cases returned
        obtain rfl := refresh_index_state looked
        obtain ⟨newEveryIndex, state, looked, returned⟩ := bind_ok_cases returned
        obtain rfl := refresh_index_state looked
        obtain ⟨intermediateResult, middle, sliced, returned⟩ := bind_ok_cases returned
        have extendsSlice := recorded_slice_extends sliced
        dsimp only at returned
        split at returned
        · cases returned
          exact ⟨intermediateResult, rfl, extendsSlice⟩
        · obtain ⟨newOptionsTs, _, returned⟩ := bind_of_except_cases returned
          obtain ⟨_, periodSet, periodTurn, returned⟩ := bind_ok_cases returned
          obtain ⟨_, everySet, everyTurn, returned⟩ := bind_ok_cases returned
          have extendsPeriod := apply_option_extends (by
            intro value ts handler log
            exact ⟨[.setPeriod value ts], rfl, .setPeriod (.done _), rfl⟩) periodTurn
          have extendsEvery := apply_option_extends (by
            intro value ts handler log
            exact ⟨[.setEvery value ts], rfl, .setEvery (.done _), rfl⟩) everyTurn
          obtain ⟨windows, rfl, extendsRest⟩ := induction returned
          refine ⟨intermediateResult ++ windows, List.append_assoc _ _ _, ?_⟩
          have settled := extends_trans (extends_trans extendsSlice extendsPeriod) extendsEvery
          rw [List.append_nil, List.append_nil] at settled
          exact extends_trans settled extendsRest

/-- A call that returns: its record is followed, and replays the sorted batch. -/
theorem recorded_call {options : DynamicWindowOptions} {recordBatch : RecordBatch}
    {handler : WindowHandler} {windows : List RecordBatch}
    {final : WindowHandler × List (Call WindowHandler)}
    (returned : handle (recording (windowHandlerIn keep)) options recordBatch (handler, []) =
      .ok windows final) :
    FollowsIn keep handler final.2 final.1 ∧ windows = (emissionsOfIn keep final.2).flatMap Emission.window ∧
      Recorded (windowHandlerIn keep) options recordBatch handler final.2 := by
  have keeps : Keeps (windowHandlerIn keep) recordBatch.schema fun _ => True := by
    refine ⟨fun _ _ _ _ => trivial, fun _ _ _ _ => trivial, fun slice state _ _ _ => ?_⟩
    cases (windowHandlerIn keep).handle slice state with
    | ok result after => exact trivial
    | error fault after => exact .inr trivial
  have records := @handle_records _ _ window_getters_return_last_set _ _ keeps handler trivial
    options
  rw [returned] at records
  unfold handle at returned
  obtain ⟨period, _, returned⟩ := bind_of_except_cases returned
  obtain ⟨every, _, returned⟩ := bind_of_except_cases returned
  obtain ⟨timeColumnName, _, returned⟩ := bind_of_except_cases returned
  obtain ⟨sortedByTime, _, returned⟩ := bind_of_except_cases returned
  obtain ⟨results, rfl, calls, logged, follows, isWindows⟩ := dynamic_loop_extends _ _ _ _ returned
  rw [List.nil_append] at logged
  subst logged
  exact ⟨follows, isWindows, records.2.2⟩

end StreamDataProcessor.Handlers.DynamicWindow
