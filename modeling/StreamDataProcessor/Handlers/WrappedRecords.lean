import StreamDataProcessor.Handlers.RecordedRuns

/-!
# Records in which no sum of seconds wraps around

The record of calls to the handler of the program is followed by the handler on unbounded
seconds, with the same emissions, where the sums of each call fit 64 bits in the state that
the calls before it leave.
-/

namespace StreamDataProcessor.Handlers.DynamicWindow

open Foundation Foundation.Effect Foundation.HoppingWindow Foundation.TwosComplement Arrow
  Metadata Utils Window

set_option autoImplicit false

def stateAfterIn (keep : Int → Int) (slice : RecordBatch) (handler : WindowHandler) :
    WindowHandler :=
  match handleIn keep slice handler with
  | .ok _ after => after
  | .error _ after => after

/-- The sums with which a change of an option from `old` moves the next boundary fit. -/
structure MoveFits (value old : Int) (handler : WindowHandler) : Prop where
  sum : FitsInt64 (handler.nextEmit + value)
  moved : FitsInt64 (handler.nextEmit + value - old)

def CallsFit : WindowHandler → List (Call WindowHandler) → Prop
  | _, [] => True
  | handler, .handled slice _ :: rest =>
      (∀ time, timeColumn slice.schema = some time → CallFits time handler slice) ∧
        CallsFit (stateAfterIn wrap64 slice handler) rest
  | handler, .setPeriod value ts :: rest =>
      (handler.nextEmit ≠ 0 ∧ ¬handler.emittedFirst ∧ handler.options.fillPeriod →
        MoveFits value handler.options.period handler) ∧
        CallsFit (setPeriodOptionIn wrap64 value ts handler) rest
  | handler, .setEvery value ts :: rest =>
      (handler.nextEmit ≠ 0 ∧ (handler.emittedFirst ∨ ¬handler.options.fillPeriod) →
        MoveFits value handler.options.every handler) ∧
        CallsFit (setEveryOptionIn wrap64 value ts handler) rest

/-- Enough for the sums of a call to fit: each boundary that is reached is between the first
and the clock. -/
def sumsInside (options : WindowOptions) (maxTs nextEmit : Int) : Bool :=
  decide (1 ≤ options.every ∧ (maxTs < nextEmit ∨ 0 ≤ options.period ∧
    -2 ^ 63 ≤ nextEmit - options.period ∧ maxTs + options.every < 2 ^ 63))

def moveInside (value old : Int) (handler : WindowHandler) : Bool :=
  decide (FitsInt64 (handler.nextEmit + value) ∧ FitsInt64 (handler.nextEmit + value - old))

/-- A check of a record that is enough for its sums to fit. -/
def callsInside : WindowHandler → List (Call WindowHandler) → Bool
  | _, [] => true
  | handler, .handled slice _ :: rest =>
      ((timeColumn slice.schema).all fun time =>
        let sorted := slice.sortRows time.index
        decide (handler.nextEmit = 0 → FitsInt64 (firstEmit handler.options (firstSeconds sorted))) &&
          sumsInside handler.options (lastSeconds sorted) (started handler sorted).nextEmit) &&
        callsInside (stateAfterIn wrap64 slice handler) rest
  | handler, .setPeriod value ts :: rest =>
      moveInside value handler.options.period handler &&
        callsInside (setPeriodOptionIn wrap64 value ts handler) rest
  | handler, .setEvery value ts :: rest =>
      moveInside value handler.options.every handler &&
        callsInside (setEveryOptionIn wrap64 value ts handler) rest

theorem sums_fit_of_inside {options : WindowOptions} {maxTs nextEmit : Int}
    (inside : sumsInside options maxTs nextEmit) : SumsFit options maxTs nextEmit := by
  rw [sumsInside, decide_eq_true_eq] at inside
  obtain ⟨apart, inside⟩ := inside
  intro index reached
  have above := first_le_boundary nextEmit (show 0 < options.every by omega) index
  have next := boundary_add nextEmit options.every index 1
  simp only [boundary, Nat.cast_one, Int.one_mul] at above next reached ⊢
  unfold FitsInt64
  omega

theorem calls_fit_of_inside {handler : WindowHandler} {calls : List (Call WindowHandler)}
    (inside : callsInside handler calls) : CallsFit handler calls := by
  induction calls generalizing handler with
  | nil => trivial
  | cons call rest induction =>
      cases call with
      | handled slice state =>
          simp only [callsInside, Bool.and_eq_true] at inside
          obtain ⟨own, others⟩ := inside
          refine ⟨fun time found => ?_, induction others⟩
          rw [found, Option.all_some, Bool.and_eq_true, decide_eq_true_eq] at own
          exact ⟨own.1, sums_fit_of_inside own.2⟩
      | setPeriod value ts =>
          simp only [callsInside, moveInside, Bool.and_eq_true, decide_eq_true_eq] at inside
          exact ⟨fun _ => ⟨inside.1.1, inside.1.2⟩, induction inside.2⟩
      | setEvery value ts =>
          simp only [callsInside, moveInside, Bool.and_eq_true, decide_eq_true_eq] at inside
          exact ⟨fun _ => ⟨inside.1.1, inside.1.2⟩, induction inside.2⟩

section Setters

variable {handler : WindowHandler} {value : Int}

theorem set_period_agrees
    (fits : handler.nextEmit ≠ 0 ∧ ¬handler.emittedFirst ∧ handler.options.fillPeriod →
      MoveFits value handler.options.period handler) (ts : Int) :
    setPeriodOptionIn wrap64 value ts handler = setPeriodOption value ts handler := by
  by_cases moves : handler.nextEmit ≠ 0 ∧ ¬handler.emittedFirst ∧ handler.options.fillPeriod
  · obtain ⟨sum, moved⟩ := fits moves
    simp only [setPeriodOption, setPeriodOptionIn, id_eq, wrap_of_fits sum, wrap_of_fits moved]
  · have stays : ∀ guard : Prop, ¬(handler.nextEmit ≠ 0 ∧ ¬handler.emittedFirst ∧
        handler.options.fillPeriod ∧ guard) :=
      fun guard holds => moves ⟨holds.1, holds.2.1, holds.2.2.1⟩
    simp only [setPeriodOption, setPeriodOptionIn, if_neg (stays _)]

theorem set_every_agrees
    (fits : handler.nextEmit ≠ 0 ∧ (handler.emittedFirst ∨ ¬handler.options.fillPeriod) →
      MoveFits value handler.options.every handler) (ts : Int) :
    setEveryOptionIn wrap64 value ts handler = setEveryOption value ts handler := by
  by_cases moves : handler.nextEmit ≠ 0 ∧
      (handler.emittedFirst ∨ ¬handler.options.fillPeriod)
  · obtain ⟨sum, moved⟩ := fits moves
    simp only [setEveryOption, setEveryOptionIn, id_eq, wrap_of_fits sum, wrap_of_fits moved]
  · have stays : ∀ guard : Prop, ¬(handler.nextEmit ≠ 0 ∧
        (handler.emittedFirst ∨ ¬handler.options.fillPeriod) ∧ guard) :=
      fun guard holds => moves ⟨holds.1, holds.2.1⟩
    simp only [setEveryOption, setEveryOptionIn, if_neg (stays _)]

end Setters

theorem calls_fit_append {first middle : WindowHandler} {earlier later : List (Call WindowHandler)}
    (follows : FollowsIn wrap64 first earlier middle) :
    CallsFit first (earlier ++ later) ↔ CallsFit first earlier ∧ CallsFit middle later := by
  induction follows with
  | done => simp [CallsFit]
  | handled returned _ induction =>
      rw [List.cons_append, CallsFit, CallsFit, stateAfterIn, returned, and_assoc]
      exact and_congr_right fun _ => induction
  | setPeriod _ induction =>
      rw [List.cons_append, CallsFit, CallsFit, and_assoc]
      exact and_congr_right fun _ => induction
  | setEvery _ induction =>
      rw [List.cons_append, CallsFit, CallsFit, and_assoc]
      exact and_congr_right fun _ => induction

def TimedSlices (calls : List (Call WindowHandler)) : Prop :=
  ∀ slice handler, .handled slice handler ∈ calls → Timed slice.schema ∧ slice.rows ≠ []

theorem follows_agree {handler final : WindowHandler} {calls : List (Call WindowHandler)}
    (follows : FollowsIn wrap64 handler calls final) (slices : TimedSlices calls)
    (fits : CallsFit handler calls) :
    Follows handler calls final ∧ emissionsOfIn wrap64 calls = emissionsOf calls := by
  induction follows with
  | done handler => exact ⟨.done handler, rfl⟩
  | @handled slice handler after final window rest returned follows induction =>
      obtain ⟨timed, nonempty⟩ := slices slice handler List.mem_cons_self
      obtain ⟨time, found⟩ := timed_cases timed
      obtain ⟨own, others⟩ := fits
      rw [stateAfterIn, returned] at others
      obtain ⟨restFollows, sameRest⟩ := induction
        (fun slice handler member => slices slice handler (List.mem_cons_of_mem _ member)) others
      have same : handleIn id slice handler = .ok window after := by
        rw [← handle_agrees found nonempty (own time found)]
        exact returned
      refine ⟨.handled same restFollows, ?_⟩
      rw [emissionsOfIn, emissionsOf, emissionsOfIn, sameRest, emissionsIn, emissionsIn,
        handle_emitting_agrees found nonempty (own time found)]
  | @setPeriod value ts handler final rest follows induction =>
      obtain ⟨own, others⟩ := fits
      obtain ⟨restFollows, sameRest⟩ := induction
        (fun slice handler member => slices slice handler (List.mem_cons_of_mem _ member)) others
      rw [set_period_agrees own] at restFollows
      exact ⟨.setPeriod restFollows, sameRest⟩
  | @setEvery value ts handler final rest follows induction =>
      obtain ⟨own, others⟩ := fits
      obtain ⟨restFollows, sameRest⟩ := induction
        (fun slice handler member => slices slice handler (List.mem_cons_of_mem _ member)) others
      rw [set_every_agrees own] at restFollows
      exact ⟨.setEvery restFollows, sameRest⟩

section Replaying

variable {schema : Schema} {timeColumnName : String} {period every : Option OptionColumn}
  {periodInForce everyInForce : Int} {rows : List Row} {calls : List (Call WindowHandler)}

theorem period_in_force {keep : Int → Int} (handler : WindowHandler) :
    (windowHandlerIn keep).getPeriodOption handler = handler.options.period := rfl

theorem every_in_force {keep : Int → Int} (handler : WindowHandler) :
    (windowHandlerIn keep).getEveryOption handler = handler.options.every := rfl

/-- A record reads the window handler through its getters only. -/
theorem replays_of_getters {keep other : Int → Int}
    (replays : Replays (windowHandlerIn keep) schema timeColumnName period every periodInForce
      everyInForce rows calls) :
    Replays (windowHandlerIn other) schema timeColumnName period every periodInForce
      everyInForce rows calls := by
  induction calls generalizing periodInForce everyInForce rows with
  | nil =>
      rw [Replays] at replays ⊢
      exact replays
  | cons call rest induction =>
      cases call with
      | handled slice state =>
          rw [Replays] at replays ⊢
          obtain ⟨own, nonempty, samePeriod, sameEvery, applies, later, isRows, others⟩ := replays
          rw [period_in_force] at samePeriod applies
          rw [every_in_force] at sameEvery applies
          refine ⟨own, nonempty, ?_, ?_, ?_, later, isRows, induction others⟩
          · rw [period_in_force]
            exact samePeriod
          · rw [every_in_force]
            exact sameEvery
          · rw [period_in_force, every_in_force]
            exact applies
      | setPeriod value ts =>
          rw [Replays] at replays ⊢
          exact ⟨replays.1, induction replays.2⟩
      | setEvery value ts =>
          rw [Replays] at replays ⊢
          exact ⟨replays.1, induction replays.2⟩

theorem timed_slices_of_replays {keep : Int → Int} (timed : Timed schema)
    (replays : Replays (windowHandlerIn keep) schema timeColumnName period every periodInForce
      everyInForce rows calls) : TimedSlices calls := by
  intro slice handler member
  induction calls generalizing periodInForce everyInForce rows with
  | nil => cases member
  | cons call rest induction =>
      cases call with
      | handled first state =>
          obtain ⟨own, nonempty, _, _, _, _, _, others⟩ := replays
          rcases List.mem_cons.mp member with same | inRest
          · cases same
            exact ⟨own ▸ timed, nonempty⟩
          · exact induction others inRest
      | setPeriod value ts =>
          exact induction replays.2 (by simpa using member)
      | setEvery value ts =>
          exact induction replays.2 (by simpa using member)

end Replaying

end StreamDataProcessor.Handlers.DynamicWindow
