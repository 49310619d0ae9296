import StreamDataProcessor.Foundation.Machine
import StreamDataProcessor.Handlers.DynamicWindowLaw
import StreamDataProcessor.Handlers.WrappedSeconds

/-!
# When window processing ends

In 64 bits the boundaries of a loop come again and again through the same numbers, which
are `next_emit_` modulo the greatest power of two in `every`. A call of the window handler
never returns exactly when its clock has reached the greatest of them, and a call of the
dynamic handler when it hands over a slice of that kind.
-/

namespace StreamDataProcessor.Handlers.DynamicWindow

open Foundation Foundation.Effect Foundation.TwosComplement Arrow Metadata Utils Window

set_option autoImplicit false

/-- The time column that the metadata names, when it is there, holds timestamps, as
`setTimeColumnNameMetadata` requires. -/
def NamesTimestamps (schema : Schema) : Prop :=
  ∀ name index, schema.metadata.timeColumnName = some name →
    schema.fieldIndex name = some index → (schema.types[index]?).any isTimestampType

def Advances (handler : WindowHandler) (slice : RecordBatch) : Prop :=
  ∀ time, timeColumn slice.schema = some time →
    lastSeconds (slice.sortRows time.index) <
      greatest (startedIn wrap64 handler (slice.sortRows time.index)).nextEmit
        handler.options.every

structure Steady (handler : WindowHandler) : Prop where
  buffered : ∀ batch ∈ handler.bufferedRecordBatches, Buffered batch
  fits : FitsInt64 handler.nextEmit

/-- Windows at least a second apart advance up to the last `every` seconds of 64 bits. -/
theorem advances_of_positive {handler : WindowHandler} {slice : RecordBatch}
    (positive : 1 ≤ handler.options.every)
    (early : ∀ time, timeColumn slice.schema = some time →
      lastSeconds (slice.sortRows time.index) + handler.options.every < 2 ^ 63) :
    Advances handler slice := by
  intro time found
  have room := early time found
  have divides := Int.le_of_dvd (by omega) (stride_dvd handler.options.every)
  have nonneg := Int.emod_nonneg
    ((startedIn wrap64 handler (slice.sortRows time.index)).nextEmit + 2 ^ 63)
    (Int.natCast_ne_zero.mpr (stride_pos handler.options.every).ne')
  unfold greatest
  omega

theorem untimed_unlocated {schema : Schema} {name : String} (names : NamesTimestamps schema)
    (untimed : timeColumn schema = none) (named : schema.metadata.timeColumnName = some name) :
    schema.fieldIndex name = none := by
  cases located : schema.fieldIndex name with
  | none => rfl
  | some index =>
      have timestamps := names name index named located
      simp only [timeColumn, named, located, Option.bind_eq_bind, Option.bind_some] at untimed
      cases typed : schema.types[index]? with
      | none => rw [typed] at timestamps; cases timestamps
      | some type =>
          rw [typed] at timestamps untimed
          cases type with
          | timestamp unit => cases untimed
          | _ => cases timestamps

theorem untimed_handle_raises {recordBatch : RecordBatch} (handler : WindowHandler)
    (names : NamesTimestamps recordBatch.schema)
    (untimed : timeColumn recordBatch.schema = none) :
    ∃ fault, fault ≠ .diverges ∧ handleIn wrap64 recordBatch handler = .error fault handler := by
  unfold handleIn
  cases named : getTimeColumnNameMetadata recordBatch with
  | error fault =>
      rw [bind_of_error (of_except_error _ _)]
      exact ⟨fault, time_column_name_ends named, rfl⟩
  | ok name =>
      rw [bind_of_ok (of_except_ok _ _)]
      have entry : recordBatch.schema.metadata.timeColumnName = some name := by
        unfold getTimeColumnNameMetadata getColumnNameMetadata at named
        split at named
        · cases named
        · split at named <;> cases named
          assumption
      rcases (@sort_by_column_cases name recordBatch) with
        ⟨status, failed⟩ | ⟨sorted, _, _, located, _⟩
      · rw [failed, bind_of_error (of_except_error _ _)]
        exact ⟨_, by simp, rfl⟩
      · rw [untimed_unlocated names untimed entry] at located
        cases located

theorem boundary_in_wrap (every : Int) {nextEmit : Int} (fits : FitsInt64 nextEmit)
    (turns : Nat) : boundaryIn wrap64 every nextEmit turns = wrap64 (nextEmit + turns * every) := by
  induction turns generalizing nextEmit with
  | zero => simp [boundaryIn, wrap_of_fits fits]
  | succ turns induction =>
      rw [boundaryIn, induction (wrap_fits _), wrap_wrap_add]
      congr 1
      push_cast
      ring

theorem started_fits {handler : WindowHandler} (fits : FitsInt64 handler.nextEmit)
    (sortedRecordBatch : RecordBatch) :
    FitsInt64 (startedIn wrap64 handler sortedRecordBatch).nextEmit := by
  unfold startedIn firstEmitIn
  split
  · dsimp only
    split <;> exact wrap_fits _
  · exact fits

theorem handle_keeps_fits (recordBatch : RecordBatch) :
    Preserves (fun handler : WindowHandler => FitsInt64 handler.nextEmit)
      (handleIn wrap64 recordBatch) := by
  refine @handle_keeps_plan wrap64 (fun _ next => FitsInt64 next) ?_ ?_ recordBatch
  · exact fun _ _ _ => wrap_fits _
  · intro options minTs _
    unfold firstEmitIn
    split <;> exact wrap_fits _

theorem handle_ends_iff_advances {handler : WindowHandler} {slice : RecordBatch}
    (names : NamesTimestamps slice.schema) (nonempty : slice.rows ≠ [])
    (settled : Steady handler) :
    Ends (fun fault after => (fault = .diverges ∧ ¬Advances handler slice) ∨
        (fault ≠ .diverges ∧ Advances handler slice ∧ Steady after))
      (fun _ after => Advances handler slice ∧ Steady after)
      (handleIn wrap64 slice handler) := by
  have fitsAfter := handle_keeps_fits slice handler settled.fits
  cases found : timeColumn slice.schema with
  | none =>
      have advances : Advances handler slice := by
        intro time isTime
        rw [found] at isTime
        cases isTime
      obtain ⟨fault, ended, raised⟩ := untimed_handle_raises handler names found
      rw [raised]
      exact .inr ⟨ended, advances, settled⟩
  | some time =>
      rw [handle_in_eq found nonempty] at fitsAfter ⊢
      dsimp only at fitsAfter ⊢
      have startFits := started_fits settled.fits (slice.sortRows time.index)
      have running : Running time (lastSeconds (slice.sortRows time.index))
          (startedIn wrap64 handler (slice.sortRows time.index)) (slice.sortRows time.index) := by
        refine ⟨found, sort_rows_ne_nil time.index nonempty, rfl, ?_⟩
        rw [started_buffer]
        exact settled.buffered
      by_cases past : lastSeconds (slice.sortRows time.index) <
          greatest (startedIn wrap64 handler (slice.sortRows time.index)).nextEmit
            handler.options.every
      · obtain ⟨count, bound, reached⟩ := greatest_reached
          (startedIn wrap64 handler (slice.sortRows time.index)).nextEmit handler.options.every
        obtain ⟨total, rest, after, ended, _, finished, _⟩ :=
          @emission_loop_ends wrap64 _ _ (fun _ _ _ => True)
            (fun _ _ _ _ _ _ _ _ _ _ _ => trivial)
            (turnBound (lastSeconds (slice.sortRows time.index))
              (startedIn wrap64 handler (slice.sortRows time.index)).nextEmit) count _ _ [] running
            trivial (by rw [started_options, boundary_in_wrap _ startFits, reached]; exact past)
            (by unfold turnBound; omega)
        rw [ended, buffer_rest_ok] at fitsAfter ⊢
        refine ⟨?_, ?_, fitsAfter⟩
        · intro other isTime
          rw [found, Option.some.injEq] at isTime
          subst isTime
          exact past
        · intro batch member
          rcases List.mem_append.mp member with earlier | isRest
          · exact finished.buffered batch earlier
          · rw [List.mem_singleton.mp isRest]
            exact ⟨by rw [Timed, finished.found]; rfl, finished.nonempty⟩
      · obtain ⟨after, diverged⟩ := emission_loop_stuck
          (turnBound (lastSeconds (slice.sortRows time.index))
            (startedIn wrap64 handler (slice.sortRows time.index)).nextEmit) [] running (by
            intro turns
            rw [started_options, boundary_in_wrap _ startFits]
            exact (wrap_le_greatest _ _ turns).trans (not_lt.mp past))
        rw [diverged, buffer_rest_error]
        exact .inl ⟨rfl, fun advances => past (advances time found)⟩

theorem handle_diverges {handler : WindowHandler} {slice : RecordBatch}
    (names : NamesTimestamps slice.schema) (nonempty : slice.rows ≠ [])
    (settled : Steady handler) (stuck : ¬Advances handler slice) :
    ∃ after, handleIn wrap64 slice handler = .error .diverges after := by
  have ends := handle_ends_iff_advances names nonempty settled
  cases outcome : handleIn wrap64 slice handler with
  | ok result after =>
      rw [outcome] at ends
      exact absurd ends.1 stuck
  | error fault after =>
      rw [outcome] at ends
      rcases ends with ⟨rfl, _⟩ | ⟨_, advances, _⟩
      · exact ⟨after, rfl⟩
      · exact absurd advances stuck

section Options

theorem handle_keeps_options {keep : Int → Int} {options : WindowOptions}
    (recordBatch : RecordBatch) :
    Preserves (fun handler : WindowHandler => handler.options = options)
      (handleIn keep recordBatch) :=
  @handle_keeps_plan keep (fun own _ => own = options) (fun _ _ same => same)
    (fun _ _ same => same) recordBatch

theorem window_getters_return_last_set {keep : Int → Int} :
    GettersReturnLastSet (windowHandlerIn keep) where
  periodSet := fun _ _ _ => rfl
  everySet := fun _ _ _ => rfl
  periodKept := fun _ _ _ => rfl
  everyKept := fun _ _ _ => rfl
  handled := by
    intro slice handler result after handled
    have kept := @handle_keeps_options keep _ slice handler rfl
    rw [show handleIn keep slice handler = .ok result after from handled] at kept
    have same : after.options = handler.options := kept
    simp only [windowHandlerIn, same, and_self]

end Options

/-- The calls that the window handler gets during one call of the dynamic handler. -/
def innerCalls (options : DynamicWindowOptions) (handler : WindowHandler)
    (recordBatch : RecordBatch) : List (Call WindowHandler) :=
  match handle (recording (windowHandlerIn wrap64)) options recordBatch (handler, []) with
  | .ok _ final => final.2
  | .error _ final => final.2

/-- Every slice that a call hands over finds windows that advance. -/
def HandsOverAdvancing (options : DynamicWindowOptions) (handler : WindowHandler)
    (recordBatch : RecordBatch) : Prop :=
  ∀ slice inner, .handled slice inner ∈ innerCalls options handler recordBatch →
    Advances inner slice

def call (options : DynamicWindowOptions) (handler : WindowHandler) (recordBatch : RecordBatch) :
    WindowHandler × Bool :=
  match handle (windowHandlerIn wrap64) options recordBatch handler with
  | .ok _ after => (after, true)
  | .error fault after => (after, fault ≠ .diverges)

theorem window_handler_keeps {schema : Schema} (names : NamesTimestamps schema) :
    Keeps (windowHandlerIn wrap64) schema Steady where
  setPeriod := fun _ _ _ settled => ⟨settled.buffered, by
    simp only [windowHandlerIn, setPeriodOptionIn]
    split
    · exact wrap_fits _
    · exact settled.fits⟩
  setEvery := fun _ _ _ settled => ⟨settled.buffered, by
    simp only [windowHandlerIn, setEveryOptionIn]
    split
    · exact wrap_fits _
    · exact settled.fits⟩
  handled := by
    intro slice handler own nonempty settled
    subst own
    refine ends_mono (handle_ends_iff_advances names nonempty settled) ?_ fun _ _ ends => ends.2
    rintro fault after (⟨diverged, _⟩ | ⟨_, _, kept⟩)
    · exact .inl diverged
    · exact .inr kept

theorem returned_advances {schema : Schema} (names : NamesTimestamps schema)
    {slice : RecordBatch} {inner : WindowHandler}
    (returned : Returned (windowHandlerIn wrap64) schema Steady (.handled slice inner)) :
    Advances inner slice := by
  obtain ⟨own, nonempty, settled, ended⟩ := returned
  subst own
  have ends := handle_ends_iff_advances names nonempty settled
  cases outcome : handleIn wrap64 slice inner with
  | ok result after =>
      rw [outcome] at ends
      exact ends.1
  | error fault after =>
      rw [outcome] at ends
      rcases ends with ⟨rfl, _⟩ | ⟨_, advances, _⟩
      · exact absurd outcome (ended after)
      · exact advances

theorem stuck_not_advances {schema : Schema} (names : NamesTimestamps schema)
    {slice : RecordBatch} {inner : WindowHandler}
    (stuck : StuckAt (windowHandlerIn wrap64) schema Steady slice inner) : ¬Advances inner slice := by
  obtain ⟨own, nonempty, settled, after, diverged⟩ := stuck
  subst own
  have ends := handle_ends_iff_advances names nonempty settled
  rw [show handleIn wrap64 slice inner = .error .diverges after from diverged] at ends
  rcases ends with ⟨_, stays⟩ | ⟨ended, _⟩
  · exact stays
  · exact absurd rfl ended

theorem call_returns_iff {options : DynamicWindowOptions} {handler : WindowHandler}
    {recordBatch : RecordBatch} (names : NamesTimestamps recordBatch.schema)
    (settled : Steady handler) :
    ((call options handler recordBatch).2 = true ↔
        HandsOverAdvancing options handler recordBatch) ∧
      ((call options handler recordBatch).2 = true →
        Steady (call options handler recordBatch).1) := by
  have records := handle_records window_getters_return_last_set (window_handler_keeps names)
    settled options
  have plain := handle_recording_over (windowHandlerIn wrap64) options recordBatch (handler, [])
  unfold HandsOverAdvancing innerCalls call
  rw [← plain]
  cases outcome : handle (recording (windowHandlerIn wrap64)) options recordBatch (handler, []) with
  | ok result final =>
      rw [outcome] at records
      obtain ⟨finalSteady, returned, _⟩ := records
      refine ⟨⟨fun _ slice inner member => ?_, fun _ => rfl⟩, fun _ => finalSteady⟩
      exact returned_advances names (returned _ member)
  | error fault final =>
      rw [outcome] at records
      obtain ⟨calls, logged, ⟨ended, finalSteady, returned⟩ |
        ⟨diverged, slice, inner, member, stuck⟩⟩ := records
      all_goals dsimp only [projectResult]; rw [logged, List.nil_append]
      · refine ⟨⟨fun _ slice inner member => ?_, fun _ => decide_eq_true ended⟩,
          fun _ => finalSteady⟩
        exact returned_advances names (returned _ member)
      · have never : decide (fault ≠ .diverges) = false := by simp [diverged]
        refine ⟨⟨fun returns => ?_, fun advances => ?_⟩, fun returns => ?_⟩
        · exact absurd (never.symm.trans returns) (by simp)
        · exact absurd (advances slice inner member)
            (stuck_not_advances names stuck)
        · exact absurd (never.symm.trans returns) (by simp)

/-- A run of calls returns throughout exactly when each call hands plain advancing slices. -/
theorem run_returns_iff {options : DynamicWindowOptions} {handler : WindowHandler}
    {recordBatches : List RecordBatch}
    (names : ∀ recordBatch ∈ recordBatches, NamesTimestamps recordBatch.schema)
    (settled : Steady handler) :
    (Machine.run (call options) handler recordBatches).2.all (· = true) ↔
      Machine.StepsMeet (call options) (HandsOverAdvancing options) handler recordBatches := by
  induction recordBatches generalizing handler with
  | nil => simp [Machine.StepsMeet]
  | cons recordBatch rest induction =>
      obtain ⟨returnsIff, keptSteady⟩ :=
        (@call_returns_iff options) (names recordBatch (by simp)) settled
      rw [Machine.run_cons, List.all_cons, Bool.and_eq_true, decide_eq_true_eq,
        Machine.StepsMeet, ← returnsIff]
      refine and_congr_right fun returns => ?_
      exact induction (fun other member => names other (by simp [member])) (keptSteady returns)

end StreamDataProcessor.Handlers.DynamicWindow
