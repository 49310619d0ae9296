import StreamDataProcessor.Foundation.Effect
import StreamDataProcessor.Foundation.TwosComplement
import StreamDataProcessor.Utils.ComputeUtils

/-!
# The window handler

`WindowHandler` of `window_handler.cpp`: rows wait in a deque of batch slices, and
whenever the clock of a batch reaches `next_emit_` the slices of the last period
are emitted. `next_emit_` is of 64 bits, in which its sums wrap around (`wrap64`): the
handler of the program is `handleIn wrap64`. `handle` is the handler on unbounded seconds;
the two agree where no sum leaves 64 bits.
-/

namespace StreamDataProcessor.Handlers.Window

open Foundation Foundation.Effect Arrow Metadata Utils

set_option autoImplicit false

structure WindowOptions where
  period : Int
  every : Int
  fillPeriod : Bool := false
  deriving DecidableEq

structure WindowHandler where
  options : WindowOptions
  bufferedRecordBatches : List RecordBatch := []
  nextEmit : Int := 0
  emittedFirst : Bool := false

abbrev Step := EStateM Fault WindowHandler

def concatenateRecordBatches (recordBatches : List RecordBatch) : Outcome RecordBatch :=
  concatenateTables recordBatches

def oldDivideIndex (oldest : Int) (batch : RecordBatch) : Outcome Nat := do
  let timeColumnName ← getTimeColumnNameMetadata batch
  match batch.getColumnByName timeColumnName with
  | none => .error (.undefined "missing time column")
  | some timeColumn => tsLowerBound timeColumn (fun ts => ts ≥ oldest) .second

/-- What `removeOldRecords` leaves of the buffer when rows before `oldest` are old. -/
def dropOldRecords (oldest : Int) : List RecordBatch → List RecordBatch × Outcome Unit
  | [] => ([], .ok ())
  | batch :: rest =>
      match oldDivideIndex oldest batch with
      | .error fault => (batch :: rest, .error fault)
      | .ok divideIndex =>
          if divideIndex < batch.numRows then (batch.sliceFrom divideIndex :: rest, .ok ())
          else dropOldRecords oldest rest

/-- The runs of neighbours whose schemas agree but for metadata, each concatenated. -/
def splitBySchema (currentSchema : Schema) (windowBatches : List RecordBatch) :
    List RecordBatch → Outcome (List RecordBatch)
  | [] => do
      let last ← concatenateRecordBatches windowBatches
      return [last]
  | batch :: rest =>
      if ¬currentSchema.equalFields batch.schema then do
        let finished ← concatenateRecordBatches windowBatches
        let others ← splitBySchema batch.schema [batch] rest
        return finished :: others
      else splitBySchema currentSchema (windowBatches ++ [batch]) rest

/-- The time at `num_rows() - 1`, which no batch without rows has. -/
def lastTimestamp (timeColumn : Column) : Nat → Outcome Int
  | 0 => .error (.undefined "an element before the first one is read")
  | row + 1 => timestampAt timeColumn .second row

/-- As many turns as a loop takes at most that ends: seconds that do not wrap around pass
each second up to the clock once, and those that do come through all numbers of 64 bits. -/
def turnBound (maxTs nextEmit : Int) : Nat := 2 ^ 64 + 1 + (maxTs - nextEmit).toNat

section Sums

-- What the type of `next_emit_` keeps of a sum.
variable (keep : Int → Int)

def removeOldRecordsIn : Step Unit := do
  let handler ← get
  let (kept, outcome) := dropOldRecords (keep (handler.nextEmit - handler.options.period))
    handler.bufferedRecordBatches
  set { handler with bufferedRecordBatches := kept }
  ofExcept outcome

def emitWindowIn : Step (List RecordBatch) := do
  removeOldRecordsIn keep
  let handler ← get
  match handler.bufferedRecordBatches with
  | [] => pure []
  | front :: rest => ofExcept (splitBySchema front.schema [] (front :: rest))

def emitBufferedIn : Step (List RecordBatch) := do
  let handler ← get
  if handler.bufferedRecordBatches ≠ [] then emitWindowIn keep else pure []

def emitDueIn (timeColumnName : String) (sortedRecordBatch : RecordBatch) :
    Step (List RecordBatch × RecordBatch) := do
  let handler ← get
  match sortedRecordBatch.getColumnByName timeColumnName with
  | none => throw (.undefined "missing time column")
  | some timeColumn =>
      let divideIndex ← ofExcept
        (tsLowerBound timeColumn (fun ts => ts ≥ handler.nextEmit) .second)
      let buffered := if divideIndex > 0 then
          handler.bufferedRecordBatches ++ [sortedRecordBatch.slice 0 divideIndex]
        else handler.bufferedRecordBatches
      set { handler with bufferedRecordBatches := buffered }
      let window ← emitBufferedIn keep
      let emitted ← get
      set { emitted with
        emittedFirst := true
        nextEmit := keep (emitted.nextEmit + emitted.options.every) }
      removeOldRecordsIn keep
      pure (window, sortedRecordBatch.sliceFrom divideIndex)

/-- `while (max_ts >= next_emit_)`. A loop that outlives its fuel never ends: see
`emission_loop_diverges`. -/
def emissionLoopIn (timeColumnName : String) (maxTs : Int) :
    Nat → RecordBatch → List RecordBatch → Step (List RecordBatch × RecordBatch)
  | 0, _, _ => throw .diverges
  | fuel + 1, sortedRecordBatch, result => do
      let handler ← get
      if maxTs ≥ handler.nextEmit then
        let (window, rest) ← emitDueIn keep timeColumnName sortedRecordBatch
        emissionLoopIn timeColumnName maxTs fuel rest (result ++ window)
      else pure (result, sortedRecordBatch)

/-- The first value of `next_emit_`, for the first timestamp in seconds. -/
def firstEmitIn (options : WindowOptions) (minTs : Int) : Int :=
  if options.fillPeriod then keep (minTs + options.period) else keep (minTs + options.every)

def setFirstEmitIn (timeColumn : Column) : Step Unit := do
  let handler ← get
  if handler.nextEmit = 0 then
    let minTs ← ofExcept (timestampAt timeColumn .second 0)
    set { handler with nextEmit := firstEmitIn keep handler.options minTs }
  else pure ()

def handleIn (recordBatch : RecordBatch) : Step (List RecordBatch) := do
  let timeColumnName ← ofExcept (getTimeColumnNameMetadata recordBatch)
  let sortedRecordBatch ← ofExcept (sortByColumn timeColumnName recordBatch)
  match sortedRecordBatch.getColumnByName timeColumnName with
  | none =>
      ofExcept (fail .invalid s!"RecordBatch has no time column with name {timeColumnName}")
  | some timeColumn =>
      setFirstEmitIn keep timeColumn
      let maxTs ← ofExcept (lastTimestamp timeColumn sortedRecordBatch.numRows)
      let started ← get
      let (result, rest) ← emissionLoopIn keep timeColumnName maxTs
        (turnBound maxTs started.nextEmit) sortedRecordBatch []
      let after ← get
      set { after with bufferedRecordBatches := after.bufferedRecordBatches ++ [rest] }
      pure result

def setPeriodOptionIn (newPeriodOption changeTs : Int) (handler : WindowHandler) :
    WindowHandler :=
  let moved := keep (keep (handler.nextEmit + newPeriodOption) - handler.options.period)
  let nextEmit :=
    if handler.nextEmit ≠ 0 ∧ ¬handler.emittedFirst ∧ handler.options.fillPeriod ∧
        keep (handler.nextEmit + newPeriodOption) ≥ handler.options.period ∧ moved ≥ changeTs
    then moved else handler.nextEmit
  { handler with
    nextEmit := nextEmit
    options := { handler.options with period := newPeriodOption } }

def setEveryOptionIn (newEveryOption changeTs : Int) (handler : WindowHandler) :
    WindowHandler :=
  let moved := keep (keep (handler.nextEmit + newEveryOption) - handler.options.every)
  let nextEmit :=
    if handler.nextEmit ≠ 0 ∧ (handler.emittedFirst ∨ ¬handler.options.fillPeriod) ∧
        keep (handler.nextEmit + newEveryOption) ≥ handler.options.every ∧ moved ≥ changeTs
    then moved else handler.nextEmit
  { handler with
    nextEmit := nextEmit
    options := { handler.options with every := newEveryOption } }

end Sums

section Unbounded

abbrev removeOldRecords : Step Unit := removeOldRecordsIn id

abbrev emitWindow : Step (List RecordBatch) := emitWindowIn id

abbrev emitDue (timeColumnName : String) (sortedRecordBatch : RecordBatch) :
    Step (List RecordBatch × RecordBatch) :=
  emitDueIn id timeColumnName sortedRecordBatch

abbrev emissionLoop (timeColumnName : String) (maxTs : Int) (fuel : Nat)
    (sortedRecordBatch : RecordBatch) (result : List RecordBatch) :
    Step (List RecordBatch × RecordBatch) :=
  emissionLoopIn id timeColumnName maxTs fuel sortedRecordBatch result

abbrev firstEmit (options : WindowOptions) (minTs : Int) : Int := firstEmitIn id options minTs

abbrev handle (recordBatch : RecordBatch) : Step (List RecordBatch) := handleIn id recordBatch

abbrev setPeriodOption (newPeriodOption changeTs : Int) (handler : WindowHandler) :
    WindowHandler :=
  setPeriodOptionIn id newPeriodOption changeTs handler

abbrev setEveryOption (newEveryOption changeTs : Int) (handler : WindowHandler) :
    WindowHandler :=
  setEveryOptionIn id newEveryOption changeTs handler

end Unbounded

theorem last_timestamp_eq (timeColumn : Column) {numRows : Nat} (some_rows : numRows ≠ 0) :
    lastTimestamp timeColumn numRows = timestampAt timeColumn .second (numRows - 1) := by
  cases numRows with
  | zero => exact absurd rfl some_rows
  | succ row => rfl

structure Buffered (batch : RecordBatch) : Prop where
  timed : Timed batch.schema
  nonempty : batch.rows ≠ []

/-- How `removeOldRecords` trims a buffer; on rows in the order of their times it drops
the rows that are old. -/
inductive Trimmed (oldest : Int) : List RecordBatch → List RecordBatch → Prop where
  | empty : Trimmed oldest [] []
  | dropped {batch : RecordBatch} {rest kept : List RecordBatch}
      (old : Chronological batch → ∀ row ∈ batch.rows, batchSeconds batch row < oldest)
      (others : Trimmed oldest rest kept) : Trimmed oldest (batch :: rest) kept
  | cut {batch : RecordBatch} {rest : List RecordBatch} {position : Nat}
      (recent : (batch.sliceFrom position).rows ≠ [])
      (filtered : Chronological batch → (batch.sliceFrom position).rows =
        batch.rows.filter fun row => oldest ≤ batchSeconds batch row) :
      Trimmed oldest (batch :: rest) (batch.sliceFrom position :: rest)

theorem old_divide_index_ends {batch : RecordBatch} (buffered : Buffered batch) (oldest : Int) :
    ∃ position, oldDivideIndex oldest batch = .ok position ∧ position ≤ batch.rows.length ∧
      (Chronological batch → batch.rows.drop position =
        batch.rows.filter fun row => oldest ≤ batchSeconds batch row) := by
  obtain ⟨time, found⟩ := timed_cases buffered.timed
  obtain ⟨column, located, reads⟩ := reads_times_of_timed found
  obtain ⟨position, searched, boundary⟩ :=
    ts_lower_bound_boundary reads (fun ts => decide (ts ≥ oldest)) buffered.nonempty
  refine ⟨position, ?_, boundary.bound, ?_⟩
  · simp only [oldDivideIndex, time_column_name_of_timed found, bind, Except.bind, located,
      searched]
  · intro chronological
    obtain ⟨same, searchedAgain, _, _, dropped⟩ :=
      ts_lower_bound_cuts reads chronological oldest buffered.nonempty
    rw [searched, Except.ok.injEq] at searchedAgain
    rw [searchedAgain]
    exact dropped

theorem drop_old_records_trims (oldest : Int) (buffer : List RecordBatch)
    (buffered : ∀ batch ∈ buffer, Buffered batch) :
    ∃ kept, dropOldRecords oldest buffer = (kept, .ok ()) ∧ Trimmed oldest buffer kept := by
  induction buffer with
  | nil => exact ⟨[], rfl, .empty⟩
  | cons batch rest induction =>
      obtain ⟨position, divided, bound, filtered⟩ :=
        old_divide_index_ends (buffered batch (by simp)) oldest
      simp only [dropOldRecords, divided]
      by_cases inside : position < batch.numRows
      · rw [if_pos inside]
        refine ⟨_, rfl, .cut ?_ filtered⟩
        intro empty
        have length := congrArg List.length empty
        simp only [slice_from_rows, List.length_drop, List.length_nil,
          RecordBatch.numRows] at length inside
        omega
      · rw [if_neg inside]
        obtain ⟨kept, trimmed, others⟩ :=
          induction fun other member => buffered other (by simp [member])
        refine ⟨kept, trimmed, .dropped ?_ others⟩
        intro chronological row member
        have all := filtered chronological
        rw [List.drop_of_length_le (by rw [RecordBatch.numRows] at inside; omega)] at all
        have absent := List.filter_eq_nil_iff.mp all.symm row member
        simpa using absent

theorem trimmed_buffered {oldest : Int} {buffer kept : List RecordBatch}
    (trimmed : Trimmed oldest buffer kept) (buffered : ∀ batch ∈ buffer, Buffered batch) :
    ∀ batch ∈ kept, Buffered batch := by
  induction trimmed with
  | empty => exact buffered
  | dropped old others induction =>
      exact induction fun batch member => buffered batch (by simp [member])
  | @cut batch rest position recent filtered =>
      intro other member
      rcases List.mem_cons.mp member with rfl | inRest
      · exact ⟨(buffered batch (by simp)).timed, recent⟩
      · exact buffered other (by simp [inRest])

section Steps

variable {keep : Int → Int}

theorem remove_old_records_trims (handler : WindowHandler)
    (buffered : ∀ batch ∈ handler.bufferedRecordBatches, Buffered batch) :
    ∃ kept, removeOldRecordsIn keep handler =
        .ok () { handler with bufferedRecordBatches := kept } ∧
      Trimmed (keep (handler.nextEmit - handler.options.period)) handler.bufferedRecordBatches
        kept := by
  obtain ⟨kept, dropped, trimmed⟩ := drop_old_records_trims
    (keep (handler.nextEmit - handler.options.period)) handler.bufferedRecordBatches buffered
  refine ⟨kept, ?_, trimmed⟩
  simp only [removeOldRecordsIn, bind_of_ok (get_apply _), dropped, bind_of_ok (set_apply _ _),
    of_except_ok]

structure Joined (run : List RecordBatch) (result : RecordBatch) : Prop where
  schema : (run.head?).map RecordBatch.schema = some result.schema
  fields : ∀ batch ∈ run, batch.schema.equalFields result.schema
  rows : result.rows = run.flatMap RecordBatch.rows

theorem concatenate_joins {first : RecordBatch} {rest : List RecordBatch}
    (fields : ∀ batch ∈ rest, batch.schema.equalFields first.schema) :
    ∃ result, concatenateRecordBatches (first :: rest) = .ok result ∧
      Joined (first :: rest) result := by
  simp only [concatenateRecordBatches, concatenateTables]
  rw [dif_pos fields]
  refine ⟨_, rfl, rfl, ?_, rfl⟩
  intro batch member
  rcases List.mem_cons.mp member with rfl | inRest
  · exact equal_fields_refl _
  · exact fields batch inRest

/-- The windows emitted for a trimmed buffer: its longest runs of neighbours that agree
in their fields, in order. -/
structure EmittedAs (kept window : List RecordBatch) : Prop where
  runs : ∃ runs : List (List RecordBatch), runs.flatten = kept ∧
    List.Forall₂ Joined runs window
  longest : window.IsChain fun left right => ¬left.schema.equalFields right.schema

theorem split_by_schema_emits (first : RecordBatch) (started pending : List RecordBatch)
    (fields : ∀ batch ∈ started, batch.schema.equalFields first.schema) :
    ∃ result others, splitBySchema first.schema (first :: started) pending =
        .ok (result :: others) ∧ result.schema = first.schema ∧
      EmittedAs (first :: started ++ pending) (result :: others) := by
  induction pending generalizing first started with
  | nil =>
      obtain ⟨result, concatenated, joined⟩ := concatenate_joins fields
      have schema : result.schema = first.schema := by simpa using joined.schema.symm
      refine ⟨result, [], ?_, schema,
        ⟨[first :: started], by simp, .cons joined .nil⟩, .singleton _⟩
      simp only [splitBySchema, concatenated, bind, Except.bind]
      rfl
  | cons batch rest induction =>
      rw [splitBySchema]
      by_cases same : first.schema.equalFields batch.schema
      · rw [if_neg (by simpa using same), List.cons_append]
        obtain ⟨result, others, split, schema, emitted⟩ := induction first (started ++ [batch])
          (by
            intro other member
            rcases List.mem_append.mp member with inStarted | isBatch
            · exact fields other inStarted
            · rw [List.mem_singleton.mp isBatch]
              exact same.symm)
        exact ⟨result, others, split, schema, by simpa using emitted⟩
      · rw [if_pos same]
        obtain ⟨result, concatenated, joinedFirst⟩ := concatenate_joins fields
        have schema : result.schema = first.schema := by simpa using joinedFirst.schema.symm
        obtain ⟨next, others, split, nextSchema, ⟨runs, covers, joined⟩, longest⟩ :=
          induction batch [] (by simp)
        refine ⟨result, next :: others, ?_, schema,
          ⟨(first :: started) :: runs, ?_, .cons joinedFirst joined⟩, .cons_cons ?_ longest⟩
        · simp only [concatenated, split, bind, Except.bind]
          rfl
        · rw [List.flatten_cons, covers]
          rfl
        · rw [schema, nextSchema]
          exact same

theorem emit_window_emits (handler : WindowHandler)
    (buffered : ∀ batch ∈ handler.bufferedRecordBatches, Buffered batch) :
    ∃ kept window, emitWindowIn keep handler =
        .ok window { handler with bufferedRecordBatches := kept } ∧
      Trimmed (keep (handler.nextEmit - handler.options.period)) handler.bufferedRecordBatches
        kept ∧
      EmittedAs kept window := by
  obtain ⟨kept, removed, trimmed⟩ := @remove_old_records_trims keep handler buffered
  simp only [emitWindowIn, bind_of_ok removed, bind_of_ok (get_apply _)]
  cases kept with
  | nil => exact ⟨[], [], rfl, trimmed, ⟨[], rfl, .nil⟩, .nil⟩
  | cons front rest =>
      obtain ⟨result, others, split, _, emitted⟩ := split_by_schema_emits front [] rest (by simp)
      refine ⟨front :: rest, result :: others, ?_, trimmed, emitted⟩
      simp only [splitBySchema, if_neg (not_not.mpr (equal_fields_refl front.schema)),
        List.nil_append, split, of_except_ok]

theorem emit_buffered_emits (handler : WindowHandler)
    (buffered : ∀ batch ∈ handler.bufferedRecordBatches, Buffered batch) :
    ∃ kept window, emitBufferedIn keep handler =
        .ok window { handler with bufferedRecordBatches := kept } ∧
      Trimmed (keep (handler.nextEmit - handler.options.period)) handler.bufferedRecordBatches
        kept ∧
      EmittedAs kept window := by
  simp only [emitBufferedIn, bind_of_ok (get_apply _)]
  by_cases empty : handler.bufferedRecordBatches = []
  · rw [if_neg (not_not.mpr empty), empty]
    refine ⟨[], [], ?_, .empty, ⟨[], rfl, .nil⟩, .nil⟩
    rw [← empty]
    rfl
  · rw [if_pos empty]
    exact emit_window_emits handler buffered

def dueBuffer (handler : WindowHandler) (sortedRecordBatch : RecordBatch) (position : Nat) :
    List RecordBatch :=
  if position > 0 then handler.bufferedRecordBatches ++ [sortedRecordBatch.slice 0 position]
  else handler.bufferedRecordBatches

structure DueTurnIn (keep : Int → Int) (handler : WindowHandler)
    (sortedRecordBatch : RecordBatch) (position : Nat) (kept final window : List RecordBatch) : Prop where
  remains : position < sortedRecordBatch.rows.length
  cuts : Chronological sortedRecordBatch →
    sortedRecordBatch.rows.take position = (sortedRecordBatch.rows.filter fun row =>
      decide (batchSeconds sortedRecordBatch row < handler.nextEmit)) ∧
    sortedRecordBatch.rows.drop position = (sortedRecordBatch.rows.filter fun row =>
      decide (handler.nextEmit ≤ batchSeconds sortedRecordBatch row))
  trims : Trimmed (keep (handler.nextEmit - handler.options.period))
    (dueBuffer handler sortedRecordBatch position) kept
  emits : EmittedAs kept window
  advances : Trimmed
    (keep (keep (handler.nextEmit + handler.options.every) - handler.options.period)) kept final
  keptBuffered : ∀ batch ∈ kept, Buffered batch
  finalBuffered : ∀ batch ∈ final, Buffered batch

theorem emit_due_turns {handler : WindowHandler} {sortedRecordBatch : RecordBatch}
    {time : TimeColumn} (found : timeColumn sortedRecordBatch.schema = some time)
    (nonempty : sortedRecordBatch.rows ≠ [])
    (due : handler.nextEmit ≤
      batchSeconds sortedRecordBatch (sortedRecordBatch.rows.getLast nonempty))
    (buffered : ∀ batch ∈ handler.bufferedRecordBatches, Buffered batch) :
    ∃ position kept final window,
      emitDueIn keep time.name sortedRecordBatch handler =
        .ok (window, sortedRecordBatch.sliceFrom position)
          { handler with
            bufferedRecordBatches := final
            emittedFirst := true
            nextEmit := keep (handler.nextEmit + handler.options.every) } ∧
      DueTurnIn keep handler sortedRecordBatch position kept final window := by
  obtain ⟨column, located, reads⟩ := reads_times_of_timed found
  obtain ⟨position, searched, boundary⟩ := ts_lower_bound_boundary reads
    (fun ts => decide (ts ≥ handler.nextEmit)) nonempty
  have positive := List.length_pos_of_ne_nil nonempty
  have remains : position < sortedRecordBatch.rows.length := by
    refine BinarySearch.boundary_before_last boundary positive ?_
    rw [List.getElem?_eq_getElem (by omega), Option.any_some, ← List.getLast_eq_getElem nonempty]
    simpa using due
  have cuts : Chronological sortedRecordBatch →
      sortedRecordBatch.rows.take position = (sortedRecordBatch.rows.filter fun row =>
        decide (batchSeconds sortedRecordBatch row < handler.nextEmit)) ∧
      sortedRecordBatch.rows.drop position = (sortedRecordBatch.rows.filter fun row =>
        decide (handler.nextEmit ≤ batchSeconds sortedRecordBatch row)) := by
    intro chronological
    obtain ⟨same, searchedAgain, _, cut⟩ :=
      ts_lower_bound_cuts reads chronological handler.nextEmit nonempty
    rw [searched, Except.ok.injEq] at searchedAgain
    rw [searchedAgain]
    exact cut
  have bufferedDue : ∀ batch ∈ dueBuffer handler sortedRecordBatch position, Buffered batch := by
    intro batch member
    unfold dueBuffer at member
    split at member
    · next started =>
      rcases List.mem_append.mp member with earlier | isSlice
      · exact buffered batch earlier
      · rw [List.mem_singleton.mp isSlice]
        refine ⟨by rw [slice_schema, Timed, found]; rfl, ?_⟩
        intro empty
        have length := congrArg List.length empty
        simp only [slice_rows, List.drop_zero, List.length_take, List.length_nil] at length
        omega
    · exact buffered batch member
  obtain ⟨kept, window, emitted, trims, emits⟩ := @emit_buffered_emits keep
    { handler with bufferedRecordBatches := dueBuffer handler sortedRecordBatch position }
    bufferedDue
  have bufferedKept := trimmed_buffered trims bufferedDue
  obtain ⟨final, removed, advances⟩ := @remove_old_records_trims keep
    { handler with
      bufferedRecordBatches := kept
      emittedFirst := true
      nextEmit := keep (handler.nextEmit + handler.options.every) } bufferedKept
  refine ⟨position, kept, final, window, ?_, ⟨remains, cuts, trims, emits, advances,
    bufferedKept, trimmed_buffered advances bufferedKept⟩⟩
  simp only [emitDueIn, bind_of_ok (get_apply _), located, searched, bind_of_ok (of_except_ok _ _),
    bind_of_ok (set_apply _ _)]
  rw [dueBuffer] at emitted
  rw [bind_of_ok emitted]
  simp only [bind_of_ok (get_apply _), bind_of_ok (set_apply _ _), bind_of_ok removed, pure_apply]

/-- The seconds of the first row and of the last, on a batch that has rows. -/
def firstSeconds (batch : RecordBatch) : Int := (batch.rows.head?.map (batchSeconds batch)).getD 0

def lastSeconds (batch : RecordBatch) : Int :=
  (batch.rows.getLast?.map (batchSeconds batch)).getD 0

/-- Between the turns of the emission loop of a call whose clock is `maxTs`. -/
structure Running (time : TimeColumn) (maxTs : Int) (handler : WindowHandler)
    (sortedRecordBatch : RecordBatch) : Prop where
  found : timeColumn sortedRecordBatch.schema = some time
  nonempty : sortedRecordBatch.rows ≠ []
  clock : lastSeconds sortedRecordBatch = maxTs
  buffered : ∀ batch ∈ handler.bufferedRecordBatches, Buffered batch

theorem last_seconds_eq {batch : RecordBatch} (nonempty : batch.rows ≠ []) :
    lastSeconds batch = batchSeconds batch (batch.rows.getLast nonempty) := by
  simp [lastSeconds, List.getLast?_eq_some_getLast nonempty]

theorem first_seconds_eq {batch : RecordBatch} (nonempty : batch.rows ≠ []) :
    firstSeconds batch = batchSeconds batch (batch.rows.head nonempty) := by
  simp [firstSeconds, List.head?_eq_some_head nonempty]

theorem slice_from_last_seconds {batch : RecordBatch} {position : Nat}
    (remains : position < batch.rows.length) :
    (batch.sliceFrom position).rows ≠ [] ∧
      lastSeconds (batch.sliceFrom position) = lastSeconds batch := by
  have rest : (batch.sliceFrom position).rows ≠ [] := by
    intro empty
    have length := congrArg List.length empty
    simp only [slice_from_rows, List.length_drop, List.length_nil] at length
    omega
  refine ⟨rest, ?_⟩
  unfold lastSeconds
  rw [slice_from_rows, List.getLast?_drop, if_neg (by omega)]
  rfl

theorem running_turn_in {time : TimeColumn} {maxTs : Int} {handler : WindowHandler}
    {sortedRecordBatch : RecordBatch} (running : Running time maxTs handler sortedRecordBatch)
    (due : maxTs ≥ handler.nextEmit) :
    ∃ position kept final window after,
      after = { handler with
        bufferedRecordBatches := final
        emittedFirst := true
        nextEmit := keep (handler.nextEmit + handler.options.every) } ∧
      emitDueIn keep time.name sortedRecordBatch handler =
        .ok (window, sortedRecordBatch.sliceFrom position) after ∧
      DueTurnIn keep handler sortedRecordBatch position kept final window ∧
      Running time maxTs after (sortedRecordBatch.sliceFrom position) := by
  have reached : handler.nextEmit ≤
      batchSeconds sortedRecordBatch (sortedRecordBatch.rows.getLast running.nonempty) := by
    rw [← last_seconds_eq running.nonempty, running.clock]
    exact due
  obtain ⟨position, kept, final, window, emitted, turn⟩ :=
    @emit_due_turns keep _ _ _ running.found running.nonempty reached running.buffered
  obtain ⟨rest, last⟩ := slice_from_last_seconds turn.remains
  exact ⟨position, kept, final, window, _, rfl, emitted, turn,
    ⟨running.found, rest, last.trans running.clock, turn.finalBuffered⟩⟩

def boundaryIn (keep : Int → Int) (every : Int) : Int → Nat → Int
  | nextEmit, 0 => nextEmit
  | nextEmit, turns + 1 => boundaryIn keep every (keep (nextEmit + every)) turns

/-- The rule of the emission loop: an invariant that every due turn keeps holds when the
loop ends, and it ends when some boundary is past the clock. -/
theorem emission_loop_ends {time : TimeColumn} {maxTs : Int}
    (invariant : WindowHandler → RecordBatch → List RecordBatch → Prop)
    (keeps : ∀ handler sortedRecordBatch result position kept final window,
      invariant handler sortedRecordBatch result → maxTs ≥ handler.nextEmit →
      Running time maxTs handler sortedRecordBatch →
      DueTurnIn keep handler sortedRecordBatch position kept final window →
      invariant
        { handler with
          bufferedRecordBatches := final
          emittedFirst := true
          nextEmit := keep (handler.nextEmit + handler.options.every) }
        (sortedRecordBatch.sliceFrom position) (result ++ window))
    {fuel turns : Nat} {handler : WindowHandler} {sortedRecordBatch : RecordBatch}
    {result : List RecordBatch} (running : Running time maxTs handler sortedRecordBatch)
    (holds : invariant handler sortedRecordBatch result)
    (past : maxTs < boundaryIn keep handler.options.every handler.nextEmit turns)
    (enough : turns < fuel) :
    ∃ total rest after,
      emissionLoopIn keep time.name maxTs fuel sortedRecordBatch result handler =
        .ok (total, rest) after ∧
      invariant after rest total ∧ Running time maxTs after rest ∧
      maxTs < after.nextEmit ∧ after.options = handler.options := by
  induction turns generalizing fuel handler sortedRecordBatch result with
  | zero =>
      obtain ⟨fuel, rfl⟩ : ∃ less, fuel = less + 1 := ⟨fuel - 1, by omega⟩
      simp only [emissionLoopIn, bind_of_ok (get_apply _)]
      have ended : ¬maxTs ≥ handler.nextEmit := not_le.mpr past
      rw [if_neg ended]
      exact ⟨result, sortedRecordBatch, handler, rfl, holds, running, past, rfl⟩
  | succ turns induction =>
      obtain ⟨fuel, rfl⟩ : ∃ less, fuel = less + 1 := ⟨fuel - 1, by omega⟩
      simp only [emissionLoopIn, bind_of_ok (get_apply _)]
      by_cases due : maxTs ≥ handler.nextEmit
      · rw [if_pos due]
        obtain ⟨position, kept, final, window, after, rfl, emitted, turn, runs⟩ :=
          @running_turn_in keep _ _ _ _ running due
        rw [bind_of_ok emitted]
        exact induction runs (keeps _ _ _ _ _ _ _ holds due running turn) past (by omega)
      · rw [if_neg due]
        exact ⟨result, sortedRecordBatch, handler, rfl, holds, running, Int.not_le.mp due, rfl⟩

theorem emission_loop_stuck {time : TimeColumn} {maxTs : Int} (fuel : Nat)
    {handler : WindowHandler} {sortedRecordBatch : RecordBatch} (result : List RecordBatch)
    (running : Running time maxTs handler sortedRecordBatch)
    (stuck : ∀ turns, boundaryIn keep handler.options.every handler.nextEmit turns ≤ maxTs) :
    ∃ after, emissionLoopIn keep time.name maxTs fuel sortedRecordBatch result handler =
      .error .diverges after := by
  induction fuel generalizing handler sortedRecordBatch result with
  | zero => exact ⟨handler, rfl⟩
  | succ fuel induction =>
      have due : maxTs ≥ handler.nextEmit := stuck 0
      obtain ⟨position, kept, final, window, after, rfl, emitted, turn, runs⟩ :=
        @running_turn_in keep _ _ _ _ running due
      simp only [emissionLoopIn, bind_of_ok (get_apply _), if_pos due, bind_of_ok emitted]
      exact induction _ runs fun turns => stuck (turns + 1)

theorem turn_bound_pos (maxTs nextEmit : Int) : 0 < turnBound maxTs nextEmit := by
  unfold turnBound
  omega

theorem emission_loop_early (timeColumnName : String) {maxTs start : Int}
    {handler : WindowHandler} (sortedRecordBatch : RecordBatch) (result : List RecordBatch)
    (early : maxTs < handler.nextEmit) :
    emissionLoopIn keep timeColumnName maxTs (turnBound maxTs start) sortedRecordBatch result
      handler = .ok (result, sortedRecordBatch) handler := by
  obtain ⟨fuel, isSucc⟩ := Nat.exists_eq_add_one_of_ne_zero (turn_bound_pos maxTs start).ne'
  rw [isSucc]
  simp only [emissionLoopIn, bind_of_ok (get_apply _)]
  rw [if_neg (not_le.mpr early)]
  rfl

end Steps

theorem first_emit_eq (options : WindowOptions) (minTs : Int) :
    firstEmit options minTs =
      if options.fillPeriod then minTs + options.period else minTs + options.every := rfl

theorem lt_turn_bound (maxTs nextEmit : Int) :
    (maxTs - nextEmit + 1).toNat < turnBound maxTs nextEmit := by
  unfold turnBound
  omega

abbrev DueTurn := DueTurnIn id

section Turn

variable {handler : WindowHandler} {sortedRecordBatch : RecordBatch} {position : Nat}
  {kept final window : List RecordBatch}

theorem DueTurn.trims (turn : DueTurn handler sortedRecordBatch position kept final window) :
    Trimmed (handler.nextEmit - handler.options.period)
      (dueBuffer handler sortedRecordBatch position) kept :=
  DueTurnIn.trims turn

theorem DueTurn.advances (turn : DueTurn handler sortedRecordBatch position kept final window) :
    Trimmed (handler.nextEmit + handler.options.every - handler.options.period) kept final :=
  DueTurnIn.advances turn

end Turn

theorem running_turn {time : TimeColumn} {maxTs : Int} {handler : WindowHandler}
    {sortedRecordBatch : RecordBatch} (running : Running time maxTs handler sortedRecordBatch)
    (due : maxTs ≥ handler.nextEmit) :
    ∃ position kept final window after,
      after = { handler with
        bufferedRecordBatches := final
        emittedFirst := true
        nextEmit := handler.nextEmit + handler.options.every } ∧
      emitDue time.name sortedRecordBatch handler =
        .ok (window, sortedRecordBatch.sliceFrom position) after ∧
      DueTurn handler sortedRecordBatch position kept final window ∧
      Running time maxTs after (sortedRecordBatch.sliceFrom position) :=
  @running_turn_in id _ _ _ _ running due

theorem boundary_in_id (every nextEmit : Int) (turns : Nat) :
    boundaryIn id every nextEmit turns = nextEmit + turns * every := by
  induction turns generalizing nextEmit with
  | zero => simp [boundaryIn]
  | succ turns induction =>
      rw [boundaryIn, induction, id_eq, Nat.cast_succ]
      ring

/-- On unbounded seconds the loop ends when windows are at least a second apart. -/
theorem emission_loop_returns {time : TimeColumn} {maxTs : Int}
    (invariant : WindowHandler → RecordBatch → List RecordBatch → Prop)
    (keeps : ∀ handler sortedRecordBatch result position kept final window,
      invariant handler sortedRecordBatch result → maxTs ≥ handler.nextEmit →
      Running time maxTs handler sortedRecordBatch →
      DueTurn handler sortedRecordBatch position kept final window →
      invariant
        { handler with
          bufferedRecordBatches := final
          emittedFirst := true
          nextEmit := handler.nextEmit + handler.options.every }
        (sortedRecordBatch.sliceFrom position) (result ++ window))
    {fuel : Nat} {handler : WindowHandler} {sortedRecordBatch : RecordBatch}
    {result : List RecordBatch} (running : Running time maxTs handler sortedRecordBatch)
    (holds : invariant handler sortedRecordBatch result) (positive : 1 ≤ handler.options.every)
    (enough : (maxTs - handler.nextEmit + 1).toNat < fuel) :
    ∃ total rest after,
      emissionLoop time.name maxTs fuel sortedRecordBatch result handler = .ok (total, rest) after ∧
      invariant after rest total ∧ Running time maxTs after rest ∧
      maxTs < after.nextEmit ∧ after.options = handler.options := by
  apply emission_loop_ends invariant keeps running holds _ enough
  rw [boundary_in_id]
  have scaled := Int.mul_le_mul_of_nonneg_left positive
    (Int.natCast_nonneg (maxTs - handler.nextEmit + 1).toNat)
  omega

/-- A due loop on unbounded seconds whose windows are not apart never ends. -/
theorem emission_loop_diverges {time : TimeColumn} {maxTs : Int} (fuel : Nat)
    {handler : WindowHandler} {sortedRecordBatch : RecordBatch} (result : List RecordBatch)
    (running : Running time maxTs handler sortedRecordBatch) (due : maxTs ≥ handler.nextEmit)
    (stuck : handler.options.every ≤ 0) :
    ∃ after, emissionLoop time.name maxTs fuel sortedRecordBatch result handler =
      .error .diverges after := by
  refine emission_loop_stuck fuel result running fun turns => ?_
  rw [boundary_in_id]
  have scaled := Int.mul_le_mul_of_nonneg_left stuck (Int.natCast_nonneg turns)
  omega

def startedIn (keep : Int → Int) (handler : WindowHandler) (sortedRecordBatch : RecordBatch) :
    WindowHandler :=
  if handler.nextEmit = 0 then
    { handler with nextEmit := firstEmitIn keep handler.options (firstSeconds sortedRecordBatch) }
  else handler

abbrev started (handler : WindowHandler) (sortedRecordBatch : RecordBatch) : WindowHandler :=
  startedIn id handler sortedRecordBatch

section Calls

variable {keep : Int → Int}

@[simp] theorem started_options (handler : WindowHandler) (sortedRecordBatch : RecordBatch) :
    (startedIn keep handler sortedRecordBatch).options = handler.options := by
  unfold startedIn
  split <;> rfl

@[simp] theorem started_buffer (handler : WindowHandler) (sortedRecordBatch : RecordBatch) :
    (startedIn keep handler sortedRecordBatch).bufferedRecordBatches =
      handler.bufferedRecordBatches := by
  unfold startedIn
  split <;> rfl

/-- What a call on a batch with rows under a time column finds before its loop. -/
theorem call_starts {recordBatch : RecordBatch} {time : TimeColumn}
    (found : timeColumn recordBatch.schema = some time) (nonempty : recordBatch.rows ≠ [])
    (handler : WindowHandler) :
    ∃ column, (recordBatch.sortRows time.index).getColumnByName time.name = some column ∧
      setFirstEmitIn keep column handler =
        .ok () (startedIn keep handler (recordBatch.sortRows time.index)) ∧
      lastTimestamp column (recordBatch.sortRows time.index).numRows =
        .ok (lastSeconds (recordBatch.sortRows time.index)) := by
  have sortedNonempty := sort_rows_ne_nil time.index nonempty
  have positive := List.length_pos_of_ne_nil sortedNonempty
  have foundSorted : timeColumn (recordBatch.sortRows time.index).schema = some time := found
  obtain ⟨column, located, reads⟩ := reads_times_of_timed foundSorted
  have first : timestampAt column .second 0 =
      .ok (firstSeconds (recordBatch.sortRows time.index)) := by
    rw [reads.read 0 positive, first_seconds_eq sortedNonempty, List.head_eq_getElem]
  refine ⟨column, located, ?_, ?_⟩
  · simp only [setFirstEmitIn, bind_of_ok (get_apply _), startedIn]
    split
    · rw [first, bind_of_ok (of_except_ok _ _), set_apply]
    · rfl
  · rw [RecordBatch.numRows, last_timestamp_eq column (Nat.ne_of_gt positive),
      reads.read _ (by omega), last_seconds_eq sortedNonempty, List.getLast_eq_getElem]

/-- What a call makes of the end of its loop: the rows that are left join the buffer. -/
def bufferRest {Value : Type} :
    EStateM.Result Fault WindowHandler (Value × RecordBatch) →
      EStateM.Result Fault WindowHandler Value
  | .ok (result, rest) after =>
      .ok result { after with bufferedRecordBatches := after.bufferedRecordBatches ++ [rest] }
  | .error fault after => .error fault after

@[simp] theorem buffer_rest_ok {Value : Type} (result : Value) (rest : RecordBatch)
    (after : WindowHandler) :
    bufferRest (.ok (result, rest) after) =
      .ok result { after with bufferedRecordBatches := after.bufferedRecordBatches ++ [rest] } := rfl

@[simp] theorem buffer_rest_error {Value : Type} (fault : Fault) (after : WindowHandler) :
    bufferRest (.error fault after : EStateM.Result Fault WindowHandler (Value × RecordBatch)) =
      .error fault after := rfl

theorem buffer_rest_bind {Value : Type} (step : Step (Value × RecordBatch))
    (handler : WindowHandler) :
    (do
        let (result, rest) ← step
        let after ← get
        set { after with bufferedRecordBatches := after.bufferedRecordBatches ++ [rest] }
        pure result : Step Value) handler = bufferRest (step handler) := by
  rw [bind_apply]
  cases step handler with
  | ok ended after => rfl
  | error fault after => rfl

/-- A call on a batch with rows under a time column is its emission loop, after which
the rows that are left join the buffer. -/
theorem handle_in_eq {handler : WindowHandler} {recordBatch : RecordBatch} {time : TimeColumn}
    (found : timeColumn recordBatch.schema = some time) (nonempty : recordBatch.rows ≠ []) :
    handleIn keep recordBatch handler =
      let sortedRecordBatch := recordBatch.sortRows time.index
      let maxTs := lastSeconds sortedRecordBatch
      let ready := startedIn keep handler sortedRecordBatch
      bufferRest (emissionLoopIn keep time.name maxTs (turnBound maxTs ready.nextEmit)
        sortedRecordBatch [] ready) := by
  obtain ⟨column, located, start, last⟩ := @call_starts keep _ _ found nonempty handler
  simp only [handleIn, time_column_name_of_timed found, sort_by_time_column found, located, last,
    bind_of_ok (of_except_ok _ _), bind_of_ok start, bind_of_ok (get_apply _), buffer_rest_bind]

end Calls

theorem handle_eq {handler : WindowHandler} {recordBatch : RecordBatch} {time : TimeColumn}
    (found : timeColumn recordBatch.schema = some time) (nonempty : recordBatch.rows ≠ []) :
    handle recordBatch handler =
      let sortedRecordBatch := recordBatch.sortRows time.index
      let maxTs := lastSeconds sortedRecordBatch
      let ready := started handler sortedRecordBatch
      bufferRest (emissionLoop time.name maxTs (turnBound maxTs ready.nextEmit)
        sortedRecordBatch [] ready) :=
  handle_in_eq found nonempty

end StreamDataProcessor.Handlers.Window
