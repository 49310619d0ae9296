import StreamDataProcessor.Handlers.DynamicWindow

/-!
# Every row is handled under its own options

The inner handler is watched through a handler that records its calls. The record
of one call of the dynamic handler replays the sorted batch: slices in order, each
under the options its rows ask for, and a set before the first row of a new value.
-/

namespace StreamDataProcessor.Handlers.DynamicWindow

open Foundation.Effect Arrow Metadata Utils

set_option autoImplicit false

/-- Getters that return what was last set, also after a slice is handled. -/
structure GettersReturnLastSet {State : Type} (windowHandler : IWindowHandler State) :
    Prop where
  periodSet : ∀ value ts state,
    windowHandler.getPeriodOption (windowHandler.setPeriodOption value ts state) = value
  everySet : ∀ value ts state,
    windowHandler.getEveryOption (windowHandler.setEveryOption value ts state) = value
  periodKept : ∀ value ts state,
    windowHandler.getPeriodOption (windowHandler.setEveryOption value ts state) =
      windowHandler.getPeriodOption state
  everyKept : ∀ value ts state,
    windowHandler.getEveryOption (windowHandler.setPeriodOption value ts state) =
      windowHandler.getEveryOption state
  handled : ∀ slice state result after, windowHandler.handle slice state = .ok result after →
    windowHandler.getPeriodOption after = windowHandler.getPeriodOption state ∧
      windowHandler.getEveryOption after = windowHandler.getEveryOption state

/-- A call of the inner handler; a slice comes with the state it is handled in. -/
inductive Call (State : Type) where
  | handled (slice : RecordBatch) (state : State)
  | setPeriod (value ts : Int)
  | setEvery (value ts : Int)

section Recording

variable {State : Type} (windowHandler : IWindowHandler State)

def recording : IWindowHandler (State × List (Call State)) where
  handle := fun slice (state, log) =>
    match windowHandler.handle slice state with
    | .ok result after => .ok result (after, log ++ [.handled slice state])
    | .error fault after => .error fault (after, log ++ [.handled slice state])
  getPeriodOption := fun (state, _) => windowHandler.getPeriodOption state
  getEveryOption := fun (state, _) => windowHandler.getEveryOption state
  setPeriodOption := fun value ts (state, log) =>
    (windowHandler.setPeriodOption value ts state, log ++ [.setPeriod value ts])
  setEveryOption := fun value ts (state, log) =>
    (windowHandler.setEveryOption value ts state, log ++ [.setEvery value ts])

theorem recording_handle_over (slice : RecordBatch) :
    Over Prod.fst ((recording windowHandler).handle slice) (windowHandler.handle slice) := by
  rintro ⟨state, log⟩
  simp only [recording]
  cases windowHandler.handle slice state <;> rfl

theorem refresh_index_over (recordBatch : RecordBatch) (getOption : State → Int)
    (option : Option OptionColumn) (newIndex : Nat) :
    Over (Prod.fst : State × List (Call State) → State)
      (refreshIndex recordBatch (fun state => getOption state.1) option newIndex)
      (refreshIndex recordBatch getOption option newIndex) := by
  unfold refreshIndex
  cases option with
  | none => exact over_pure newIndex
  | some column =>
      refine over_ite ?_ (over_pure newIndex)
      intro state
      exact over_of_except _ state

theorem apply_option_over (recordBatch : RecordBatch)
    {setOption : Int → Int → State → State}
    {recorded : Int → Int → State × List (Call State) → State × List (Call State)}
    (sets : ∀ value ts state, (recorded value ts state).1 = setOption value ts state.1)
    (option : Option OptionColumn) (reached : Bool) (newOptionsTs : Int) :
    Over (Prod.fst : State × List (Call State) → State)
      (applyOption recordBatch recorded option reached newOptionsTs)
      (applyOption recordBatch setOption option reached newOptionsTs) := by
  unfold applyOption
  cases option with
  | none => exact over_pure ()
  | some column =>
      refine over_ite (over_bind (over_of_except _) fun value => ?_) (over_pure ())
      intro state
      simp only [bind_of_ok (get_apply _), set_apply, projectResult, sets]

theorem dynamic_loop_over (timeColumnName : String) (period every : Option OptionColumn)
    (fuel : Nat) (sortedByTime : RecordBatch) (periodIndex everyIndex : Nat)
    (result : List RecordBatch) :
    Over Prod.fst
      (dynamicLoop (recording windowHandler) timeColumnName period every fuel sortedByTime
        periodIndex everyIndex result)
      (dynamicLoop windowHandler timeColumnName period every fuel sortedByTime
        periodIndex everyIndex result) := by
  induction fuel generalizing sortedByTime periodIndex everyIndex result with
  | zero => exact over_throw _
  | succ fuel induction =>
      unfold dynamicLoop
      refine over_ite (over_pure result) ?_
      refine over_bind (refresh_index_over _ _ _ _) fun newPeriodIndex => ?_
      refine over_bind (refresh_index_over _ _ _ _) fun newEveryIndex => ?_
      refine over_bind ?_ fun intermediateResult => ?_
      · exact over_ite (recording_handle_over windowHandler _) (over_pure [])
      · refine over_ite (over_pure _) ?_
        refine over_bind (over_of_except _) fun newOptionsTs => ?_
        refine over_bind (apply_option_over _ (fun _ _ _ => rfl) _ _ _) fun _ => ?_
        refine over_bind (apply_option_over _ (fun _ _ _ => rfl) _ _ _) fun _ => ?_
        exact induction _ _ _ _

/-- Recording changes nothing of what the dynamic handler does. -/
theorem handle_recording_over (options : DynamicWindowOptions) (recordBatch : RecordBatch) :
    Over Prod.fst (handle (recording windowHandler) options recordBatch)
      (handle windowHandler options recordBatch) := by
  unfold handle
  refine over_bind (over_of_except _) fun period => ?_
  refine over_bind (over_of_except _) fun every => ?_
  refine over_bind (over_of_except _) fun timeColumnName => ?_
  refine over_bind (over_of_except _) fun sortedByTime => ?_
  exact dynamic_loop_over windowHandler _ _ _ _ _ _ _ _

end Recording

def rowOption (schema : Schema) (option : OptionColumn) (row : Row) : Outcome Int :=
  match schema.fieldIndex option.name with
  | none => .error (.undefined "missing option column")
  | some index => do
      let duration ← durationCount (schema.types.getD index .na) (row.getD index none)
      convertTime duration option.timeUnit .second

def rowTimestamp (schema : Schema) (timeColumnName : String) (row : Row) : Outcome Int :=
  match schema.fieldIndex timeColumnName with
  | none => .error (.undefined "missing time column")
  | some index => do
      let timestamp ← castTimestampScalar (schema.types.getD index .na) (row.getD index none)
        .second
      return integerValue timestamp

def Applies (schema : Schema) (option : Option OptionColumn) (value : Int) (row : Row) :
    Prop :=
  ∀ column, option = some column → rowOption schema column row = .ok value

/-- The next row is the first to ask for a value other than the one in force. -/
structure AsksAnew (schema : Schema) (timeColumnName : String) (option : Option OptionColumn)
    (inForce value ts : Int) (rows : List Row) : Prop where
  asks : ∃ column row, option = some column ∧ rows.head? = some row ∧
    rowOption schema column row = .ok value ∧ rowTimestamp schema timeColumnName row = .ok ts
  differs : value ≠ inForce

section Replays

variable {State : Type} (windowHandler : IWindowHandler State) (schema : Schema)
  (timeColumnName : String) (period every : Option OptionColumn)

/-- The calls take the rows in order: a slice holds rows that ask for the options in
force, and an option is set, with the time of the next row, when that row asks anew. -/
def Replays : Int → Int → List Row → List (Call State) → Prop
  | _, _, rows, [] => rows = []
  | periodInForce, everyInForce, rows, .handled slice state :: rest =>
      slice.schema = schema ∧ slice.rows ≠ [] ∧
      windowHandler.getPeriodOption state = periodInForce ∧
      windowHandler.getEveryOption state = everyInForce ∧
      (∀ row ∈ slice.rows, Applies schema period (windowHandler.getPeriodOption state) row ∧
        Applies schema every (windowHandler.getEveryOption state) row) ∧
      ∃ later, rows = slice.rows ++ later ∧ Replays periodInForce everyInForce later rest
  | periodInForce, everyInForce, rows, .setPeriod value ts :: rest =>
      AsksAnew schema timeColumnName period periodInForce value ts rows ∧
      Replays value everyInForce rows rest
  | periodInForce, everyInForce, rows, .setEvery value ts :: rest =>
      AsksAnew schema timeColumnName every everyInForce value ts rows ∧
      Replays periodInForce value rows rest

def handledRows : List (Call State) → List Row
  | [] => []
  | .handled slice _ :: rest => slice.rows ++ handledRows rest
  | .setPeriod _ _ :: rest => handledRows rest
  | .setEvery _ _ :: rest => handledRows rest

variable {windowHandler schema timeColumnName period every}

theorem replays_handled_rows {periodInForce everyInForce : Int} {rows : List Row}
    {log : List (Call State)}
    (replays : Replays windowHandler schema timeColumnName period every periodInForce
      everyInForce rows log) : handledRows log = rows := by
  induction log generalizing periodInForce everyInForce rows with
  | nil => exact replays.symm
  | cons call rest induction =>
      cases call with
      | handled slice state =>
          obtain ⟨_, _, _, _, _, later, rfl, others⟩ := replays
          rw [handledRows, induction others]
      | setPeriod value ts => exact induction replays.2
      | setEvery value ts => exact induction replays.2

end Replays

theorem get_duration_option_eq (batch : RecordBatch) {row : Nat} (option : OptionColumn)
    (bound : row < batch.rows.length) (present : (batch.getColumnByName option.name).isSome) :
    getDurationOption batch row option.name option.timeUnit =
      rowOption batch.schema option batch.rows[row] := by
  cases located : batch.schema.fieldIndex option.name with
  | none => rw [get_column_by_name_none batch located] at present; cases present
  | some index =>
      obtain ⟨type, typed⟩ := field_index_bound located
      have type_at : batch.schema.types.getD index .na = type := by
        rw [List.getD_eq_getElem?_getD, typed, Option.getD_some]
      rw [getDurationOption, get_column_by_name_eq batch located typed]
      simp only [Column.getScalar, List.getElem?_map, List.getElem?_eq_getElem bound,
        Option.map_some, rowOption, located, type_at, bind, Except.bind]

theorem first_timestamp_eq (batch : RecordBatch) (timeColumnName : String) {row : Row}
    (first : batch.rows.head? = some row)
    (present : (batch.getColumnByName timeColumnName).isSome) :
    firstTimestamp batch timeColumnName = rowTimestamp batch.schema timeColumnName row := by
  cases located : batch.schema.fieldIndex timeColumnName with
  | none => rw [get_column_by_name_none batch located] at present; cases present
  | some index =>
      obtain ⟨type, typed⟩ := field_index_bound located
      have type_at : batch.schema.types.getD index .na = type := by
        rw [List.getD_eq_getElem?_getD, typed, Option.getD_some]
      rw [List.head?_eq_getElem?] at first
      rw [firstTimestamp, get_column_by_name_eq batch located typed]
      simp only [timestampAt, Column.getScalar, List.getElem?_map, first, Option.map_some,
        rowTimestamp, located, type_at, bind, Except.bind]

theorem duration_count_ends {type : DataType} {scalar : Scalar} {fault : Fault}
    (raised : durationCount type scalar = .error fault) : fault ≠ .diverges := by
  unfold durationCount at raised
  split at raised <;> cases raised
  simp

theorem row_option_ends {schema : Schema} {option : OptionColumn} {row : Row} {fault : Fault}
    (raised : rowOption schema option row = .error fault) : fault ≠ .diverges := by
  unfold rowOption at raised
  split at raised
  · cases raised
    simp
  · next index located =>
    cases counted : durationCount (schema.types.getD index .na) (row.getD index none) with
    | error other =>
        rw [counted] at raised
        cases raised
        exact duration_count_ends counted
    | ok duration =>
        rw [counted] at raised
        exact convert_time_ends _ _ _ _ raised

theorem row_timestamp_ends {schema : Schema} {timeColumnName : String} {row : Row}
    {fault : Fault} (raised : rowTimestamp schema timeColumnName row = .error fault) :
    fault ≠ .diverges := by
  unfold rowTimestamp at raised
  split at raised
  · cases raised
    simp
  · next index located =>
    generalize row.getD index none = cell at raised
    unfold castTimestampScalar at raised
    split at raised <;> cases raised <;> simp

theorem column_present {batch : RecordBatch} {name : String}
    (located : (batch.schema.fieldIndex name).isSome) : (batch.getColumnByName name).isSome := by
  obtain ⟨index, found⟩ := Option.isSome_iff_exists.mp located
  obtain ⟨type, typed⟩ := field_index_bound found
  rw [get_column_by_name_eq batch found typed]
  rfl

section Looking

variable {schema : Schema}

def Present (schema : Schema) (option : Option OptionColumn) : Prop :=
  ∀ column, option = some column → (schema.fieldIndex column.name).isSome

/-- What a look-ahead index says: the rows before it ask for the value in force, and the
row at it, if there is one, for another. -/
structure Looked (schema : Schema) (option : Option OptionColumn) (value : Int)
    (rows : List Row) (index : Nat) : Prop where
  bound : index ≤ rows.length
  before : ∀ row ∈ rows.take index, Applies schema option value row
  reached : match option with
    | none => index = rows.length
    | some column => ∀ row, rows[index]? = some row →
        ∃ newValue, rowOption schema column row = .ok newValue ∧ newValue ≠ value

theorem find_from_looks {batch : RecordBatch} {option : OptionColumn} {value : Int}
    {row rowsLeft : Nat} (present : (batch.getColumnByName option.name).isSome)
    (counts : row + rowsLeft = batch.rows.length)
    (before : ∀ other ∈ batch.rows.take row, rowOption batch.schema option other = .ok value) :
    match findNewWindowOptionFrom batch value option row rowsLeft with
    | .ok index => Looked batch.schema (some option) value batch.rows index
    | .error fault => fault ≠ .diverges := by
  induction rowsLeft generalizing row with
  | zero =>
      refine ⟨by omega, fun other member column isOption => ?_, fun other found => ?_⟩
      · cases isOption
        exact before other member
      · rw [List.getElem?_eq_none (by omega)] at found
        cases found
  | succ rowsLeft induction =>
      have bound : row < batch.rows.length := by omega
      rw [findNewWindowOptionFrom, get_duration_option_eq batch option bound present]
      cases cell : rowOption batch.schema option batch.rows[row] with
      | error fault => exact row_option_ends cell
      | ok newValue =>
          simp only [bind, Except.bind]
          by_cases same : newValue = value
          · rw [if_neg (not_not.mpr same)]
            apply induction (by omega)
            intro other member
            rw [List.take_succ_eq_append_getElem bound, List.mem_append, List.mem_singleton]
              at member
            rcases member with earlier | rfl
            · exact before other earlier
            · rw [cell, same]
          · rw [if_pos same]
            refine ⟨bound.le, fun other member column isOption => ?_, fun other found => ?_⟩
            · cases isOption
              exact before other member
            · rw [List.getElem?_eq_getElem bound, Option.some.injEq] at found
              exact ⟨newValue, found ▸ cell, same⟩

/-- A look-ahead index before it is refreshed: what it says, or zero when it says nothing. -/
def Pending (schema : Schema) (option : Option OptionColumn) (value : Int) (rows : List Row)
    (index : Nat) : Prop :=
  (option.isSome ∧ index = 0) ∨ Looked schema option value rows index

theorem refresh_index_looks {State : Type} {batch : RecordBatch}
    {option : Option OptionColumn} {getOption : State → Int} {state : State} {index : Nat}
    (present : Present batch.schema option)
    (pending : Pending batch.schema option (getOption state) batch.rows index) :
    Ends (fun fault after => after = state ∧ fault ≠ .diverges)
      (fun newIndex after => after = state ∧
        Looked batch.schema option (getOption state) batch.rows newIndex)
      (refreshIndex batch getOption option index state) := by
  cases option with
  | none => exact ⟨rfl, pending.resolve_left (by simp)⟩
  | some column =>
      by_cases zero : index = 0
      · simp only [refreshIndex, if_pos zero, bind_of_ok (get_apply _)]
        have looks := @find_from_looks batch column (getOption state) 0 batch.rows.length
          (column_present (present column rfl)) (by omega) (by simp)
        apply ends_of_except
        · intro fault raised
          rw [findNewWindowOptionIndex, RecordBatch.numRows] at raised
          rw [raised] at looks
          exact ⟨rfl, looks⟩
        · intro newIndex found
          rw [findNewWindowOptionIndex, RecordBatch.numRows] at found
          rw [found] at looks
          exact ⟨rfl, looks⟩
      · simp only [refreshIndex, if_neg zero]
        exact ⟨rfl, pending.resolve_left fun none => zero none.2⟩

/-- What a turn does to an option, for the rows after its slice: nothing, as their first
row still asks for the value in force, or a set to what the first row asks for. -/
inductive OptionTurn (schema : Schema) (option : Option OptionColumn) (value : Int)
    (rest : List Row) (index : Nat) : Option Int → Prop where
  | kept (looked : Looked schema option value rest index) (positive : 0 < index) :
      OptionTurn schema option value rest index none
  | moved {column : OptionColumn} {row : Row} {newValue : Int}
      (configured : option = some column) (first : rest.head? = some row)
      (cell : rowOption schema column row = .ok newValue) (differs : newValue ≠ value)
      (zero : index = 0) : OptionTurn schema option value rest index (some newValue)

theorem option_turn {option : Option OptionColumn} {value : Int} {rows : List Row}
    {index taken : Nat} (looked : Looked schema option value rows index) (le : taken ≤ index)
    (remains : rows.drop taken ≠ []) :
    ∃ change, OptionTurn schema option value (rows.drop taken) (index - taken) change ∧
      (change.isSome ↔ taken = index) := by
  have short : taken < rows.length := by
    by_contra whole
    exact remains (List.drop_of_length_le (by omega))
  by_cases reached : taken = index
  · subst reached
    cases option with
    | none =>
        have atEnd : taken = rows.length := looked.reached
        omega
    | some column =>
        obtain ⟨newValue, cell, differs⟩ :=
          looked.reached rows[taken] (List.getElem?_eq_getElem short)
        refine ⟨some newValue, .moved rfl ?_ cell differs (Nat.sub_self _), by simp⟩
        rw [List.head?_drop, List.getElem?_eq_getElem short]
  · refine ⟨none, .kept ⟨?_, ?_, ?_⟩ (by omega), by simpa using reached⟩
    · have bound := looked.bound
      rw [List.length_drop]
      omega
    · intro row member
      rw [List.take_drop, Nat.add_sub_cancel' le] at member
      exact looked.before row (List.mem_of_mem_drop member)
    · have atIndex := looked.reached
      cases option with
      | none =>
          rw [List.length_drop]
          have atEnd : index = rows.length := atIndex
          omega
      | some column =>
          intro row found
          rw [List.getElem?_drop, Nat.add_sub_cancel' le] at found
          exact atIndex row found

theorem turn_first_applies {option : Option OptionColumn} {value : Int} {rest : List Row}
    {index : Nat} {change : Option Int}
    (turn : OptionTurn schema option value rest index change) {row : Row}
    (first : rest.head? = some row) : Applies schema option (change.getD value) row := by
  cases turn with
  | kept looked positive =>
      apply looked.before row
      cases rest with
      | nil => cases first
      | cons head tail =>
          rw [List.head?_cons, Option.some.injEq] at first
          obtain ⟨index, rfl⟩ := Nat.exists_eq_succ_of_ne_zero positive.ne'
          rw [first, List.take_succ_cons]
          exact List.mem_cons_self
  | moved configured own cell differs zero =>
      intro column isOption
      rw [configured, Option.some.injEq] at isOption
      rw [own, Option.some.injEq] at first
      subst isOption
      subst first
      exact cell

theorem turn_pending {option : Option OptionColumn} {value : Int} {rest : List Row}
    {index : Nat} {change : Option Int}
    (turn : OptionTurn schema option value rest index change) :
    Pending schema option (change.getD value) rest index := by
  cases turn with
  | kept looked positive => exact .inr looked
  | moved configured first cell differs zero => exact .inl ⟨by simp [configured], zero⟩

theorem apply_option_turn {State : Type} {batch : RecordBatch} {option : Option OptionColumn}
    {inForce : Int} {index : Nat} {change : Option Int} {reached : Bool} (ts : Int)
    (state : State) (setOption : Int → Int → State → State)
    (present : Present batch.schema option)
    (turn : OptionTurn batch.schema option inForce batch.rows index change)
    (isReached : change.isSome ↔ reached = true) :
    applyOption batch setOption option reached ts state =
      .ok () ((change.map fun newValue => setOption newValue ts state).getD state) := by
  cases turn with
  | kept looked positive =>
      obtain rfl : reached = false := by simpa using isReached
      cases option <;> rfl
  | @moved column row newValue configured first cell differs zero =>
      obtain rfl : reached = true := by simpa using isReached
      subst configured
      have bound : 0 < batch.rows.length := by
        cases rows : batch.rows with
        | nil => rw [rows] at first; cases first
        | cons head tail => exact Nat.succ_pos _
      have duration : getDurationOption batch 0 column.name column.timeUnit = .ok newValue := by
        rw [get_duration_option_eq batch column bound (column_present (present column rfl)),
          ← cell]
        rw [List.head?_eq_getElem?, List.getElem?_eq_getElem bound, Option.some.injEq] at first
        rw [first]
      simp only [applyOption, if_true, duration, bind_of_ok (of_except_ok _ _),
        bind_of_ok (get_apply _), set_apply]
      rfl

end Looking

section Turns

variable {State : Type} {windowHandler : IWindowHandler State} {schema : Schema}
  {timeColumnName : String} {period every : Option OptionColumn}

def changeCalls (call : Int → Int → Call State) (change : Option Int) (ts : Int) :
    List (Call State) :=
  (change.map fun newValue => call newValue ts).toList

theorem turn_asks_anew {option : Option OptionColumn} {value newValue ts : Int}
    {rest : List Row} {index : Nat}
    (turn : OptionTurn schema option value rest index (some newValue))
    (timed : ∀ row, rest.head? = some row → rowTimestamp schema timeColumnName row = .ok ts) :
    AsksAnew schema timeColumnName option value newValue ts rest := by
  cases turn with
  | moved configured first cell differs zero =>
      exact ⟨⟨_, _, configured, first, cell, timed _ first⟩, differs⟩

theorem replays_period_change {periodInForce everyInForce ts : Int} {rest : List Row}
    {index : Nat} {change : Option Int} {calls : List (Call State)}
    (turn : OptionTurn schema period periodInForce rest index change)
    (timed : ∀ row, rest.head? = some row → rowTimestamp schema timeColumnName row = .ok ts)
    (later : Replays windowHandler schema timeColumnName period every
      (change.getD periodInForce) everyInForce rest calls) :
    Replays windowHandler schema timeColumnName period every periodInForce everyInForce rest
      (changeCalls .setPeriod change ts ++ calls) := by
  cases change with
  | none => exact later
  | some newValue => exact ⟨turn_asks_anew turn timed, later⟩

theorem replays_every_change {periodInForce everyInForce ts : Int} {rest : List Row}
    {index : Nat} {change : Option Int} {calls : List (Call State)}
    (turn : OptionTurn schema every everyInForce rest index change)
    (timed : ∀ row, rest.head? = some row → rowTimestamp schema timeColumnName row = .ok ts)
    (later : Replays windowHandler schema timeColumnName period every periodInForce
      (change.getD everyInForce) rest calls) :
    Replays windowHandler schema timeColumnName period every periodInForce everyInForce rest
      (changeCalls .setEvery change ts ++ calls) := by
  cases change with
  | none => exact later
  | some newValue => exact ⟨turn_asks_anew turn timed, later⟩

def sliceCalls (state : State) (batch : RecordBatch) (taken : Nat) : List (Call State) :=
  if taken > 0 then [.handled (batch.slice 0 taken) state] else []

theorem slice_ne_nil {batch : RecordBatch} {taken : Nat} (some : taken > 0)
    (bound : taken ≤ batch.rows.length) : (batch.slice 0 taken).rows ≠ [] := by
  intro empty
  have length := congrArg List.length empty
  simp only [slice_rows, List.drop_zero, List.length_take, List.length_nil] at length
  omega

theorem replays_taken {batch : RecordBatch} {periodIndex everyIndex taken : Nat} {state : State}
    {calls : List (Call State)}
    (periodLooked : Looked batch.schema period (windowHandler.getPeriodOption state) batch.rows
      periodIndex)
    (everyLooked : Looked batch.schema every (windowHandler.getEveryOption state) batch.rows
      everyIndex)
    (periodLe : taken ≤ periodIndex) (everyLe : taken ≤ everyIndex)
    (later : Replays windowHandler batch.schema timeColumnName period every
      (windowHandler.getPeriodOption state) (windowHandler.getEveryOption state)
      (batch.rows.drop taken) calls) :
    Replays windowHandler batch.schema timeColumnName period every
      (windowHandler.getPeriodOption state) (windowHandler.getEveryOption state) batch.rows
      (sliceCalls state batch taken ++ calls) := by
  unfold sliceCalls
  by_cases some : taken > 0
  · have split : batch.rows = (batch.slice 0 taken).rows ++ batch.rows.drop taken := by
      rw [slice_rows, List.drop_zero, List.take_append_drop]
    have within : ∀ row ∈ (batch.slice 0 taken).rows,
        row ∈ batch.rows.take periodIndex ∧ row ∈ batch.rows.take everyIndex := by
      intro row member
      rw [slice_rows, List.drop_zero] at member
      exact ⟨(List.take_subset_take_left _ periodLe) member,
        (List.take_subset_take_left _ everyLe) member⟩
    have bound := periodLooked.bound
    rw [if_pos some, List.singleton_append]
    refine ⟨rfl, slice_ne_nil some (by omega), rfl, rfl, ?_, batch.rows.drop taken, split, later⟩
    intro row member
    exact ⟨periodLooked.before row (within row member).1,
      everyLooked.before row (within row member).2⟩
  · obtain rfl : taken = 0 := by omega
    simpa using later

/-- A turn that takes no row has found a first row that asks for something new. -/
theorem first_row_asks {option : Option OptionColumn} {value : Int}
    {rows : List Row} {row : Row} (looked : Looked schema option value rows 0)
    (first : rows.head? = some row) : ¬Applies schema option value row := by
  intro applies
  cases option with
  | none =>
      have atEnd : 0 = rows.length := looked.reached
      rw [List.eq_nil_of_length_eq_zero atEnd.symm] at first
      cases first
  | some column =>
      rw [List.head?_eq_getElem?] at first
      obtain ⟨newValue, cell, differs⟩ := looked.reached row first
      rw [applies column rfl, Except.ok.injEq] at cell
      exact differs cell.symm

theorem period_change_records (lawful : GettersReturnLastSet windowHandler)
    (change : Option Int) (ts : Int) (pair : State × List (Call State)) :
    let after := (change.map fun newValue =>
      (recording windowHandler).setPeriodOption newValue ts pair).getD pair
    after.2 = pair.2 ++ changeCalls .setPeriod change ts ∧
      windowHandler.getPeriodOption after.1 =
        change.getD (windowHandler.getPeriodOption pair.1) ∧
      windowHandler.getEveryOption after.1 = windowHandler.getEveryOption pair.1 := by
  cases change with
  | none => exact ⟨(List.append_nil _).symm, rfl, rfl⟩
  | some newValue => exact ⟨rfl, lawful.periodSet _ _ _, lawful.everyKept _ _ _⟩

theorem every_change_records (lawful : GettersReturnLastSet windowHandler)
    (change : Option Int) (ts : Int) (pair : State × List (Call State)) :
    let after := (change.map fun newValue =>
      (recording windowHandler).setEveryOption newValue ts pair).getD pair
    after.2 = pair.2 ++ changeCalls .setEvery change ts ∧
      windowHandler.getPeriodOption after.1 = windowHandler.getPeriodOption pair.1 ∧
      windowHandler.getEveryOption after.1 =
        change.getD (windowHandler.getEveryOption pair.1) := by
  cases change with
  | none => exact ⟨(List.append_nil _).symm, rfl, rfl⟩
  | some newValue => exact ⟨rfl, lawful.periodKept _ _ _, lawful.everySet _ _ _⟩

end Turns

section Runs

variable {State : Type} {windowHandler : IWindowHandler State} {schema : Schema}

/-- An invariant of the inner handler over the calls that the dynamic handler makes. -/
structure Keeps (windowHandler : IWindowHandler State) (schema : Schema)
    (invariant : State → Prop) : Prop where
  setPeriod : ∀ value ts state, invariant state →
    invariant (windowHandler.setPeriodOption value ts state)
  setEvery : ∀ value ts state, invariant state →
    invariant (windowHandler.setEveryOption value ts state)
  handled : ∀ slice state, slice.schema = schema → slice.rows ≠ [] → invariant state →
    Ends (fun fault after => fault = .diverges ∨ invariant after)
      (fun _ after => invariant after) (windowHandler.handle slice state)

/-- A handled slice, of the batch's schema and in a state that meets the invariant, whose
call did not diverge. -/
def Returned (windowHandler : IWindowHandler State) (schema : Schema)
    (invariant : State → Prop) : Call State → Prop
  | .handled slice state => slice.schema = schema ∧ slice.rows ≠ [] ∧ invariant state ∧
      ∀ after, windowHandler.handle slice state ≠ .error .diverges after
  | _ => True

/-- The slice at which a call did not return. -/
structure StuckAt (windowHandler : IWindowHandler State) (schema : Schema)
    (invariant : State → Prop) (slice : RecordBatch) (state : State) : Prop where
  own : slice.schema = schema
  nonempty : slice.rows ≠ []
  holds : invariant state
  diverged : ∃ after, windowHandler.handle slice state = .error .diverges after

/-- How a recorded computation may raise: with all its calls returned, or stuck at one. -/
def Raises (windowHandler : IWindowHandler State) (schema : Schema) (invariant : State → Prop)
    (log : List (Call State)) (fault : Fault) (final : State × List (Call State)) : Prop :=
  ∃ calls, final.2 = log ++ calls ∧
    ((fault ≠ .diverges ∧ invariant final.1 ∧
        ∀ call ∈ calls, Returned windowHandler schema invariant call) ∨
      (fault = .diverges ∧ ∃ slice state, .handled slice state ∈ calls ∧
        StuckAt windowHandler schema invariant slice state))

theorem raises_of_earlier {invariant : State → Prop} {log first : List (Call State)}
    {fault : Fault} {final : State × List (Call State)}
    (returned : ∀ call ∈ first, Returned windowHandler schema invariant call)
    (raises : Raises windowHandler schema invariant (log ++ first) fault final) :
    Raises windowHandler schema invariant log fault final := by
  obtain ⟨calls, logged, outcome⟩ := raises
  refine ⟨first ++ calls, by rw [logged, List.append_assoc], ?_⟩
  rcases outcome with ⟨ended, holds, others⟩ | ⟨stuck, slice, state, member, at_slice⟩
  · refine .inl ⟨ended, holds, fun call member => ?_⟩
    rcases List.mem_append.mp member with inFirst | inCalls
    · exact returned call inFirst
    · exact others call inCalls
  · exact .inr ⟨stuck, slice, state, List.mem_append_right _ member, at_slice⟩

theorem handle_slice_records (lawful : GettersReturnLastSet windowHandler)
    {invariant : State → Prop} {batch : RecordBatch}
    (keeps : Keeps windowHandler batch.schema invariant) {taken : Nat}
    (bound : taken ≤ batch.rows.length) {state : State} (holds : invariant state)
    (log : List (Call State)) :
    Ends (Raises windowHandler batch.schema invariant log)
      (fun _ after => after.2 = log ++ sliceCalls state batch taken ∧ invariant after.1 ∧
        (∀ call ∈ sliceCalls state batch taken,
          Returned windowHandler batch.schema invariant call) ∧
        windowHandler.getPeriodOption after.1 = windowHandler.getPeriodOption state ∧
        windowHandler.getEveryOption after.1 = windowHandler.getEveryOption state)
      (handleSlice (recording windowHandler) batch taken (state, log)) := by
  unfold handleSlice sliceCalls
  by_cases some : taken > 0
  · have nonempty := slice_ne_nil some bound
    have kept := keeps.handled (batch.slice 0 taken) state rfl nonempty holds
    rw [if_pos some, if_pos some]
    simp only [recording]
    cases handled : windowHandler.handle (batch.slice 0 taken) state with
    | ok result after =>
        rw [handled] at kept
        refine ⟨rfl, kept, ?_, lawful.handled _ _ _ _ handled⟩
        intro call member
        rw [List.mem_singleton.mp member]
        exact ⟨rfl, nonempty, holds, fun other raised => by rw [handled] at raised; cases raised⟩
    | error fault after =>
        rw [handled] at kept
        refine ⟨[.handled (batch.slice 0 taken) state], rfl, ?_⟩
        by_cases stuck : fault = .diverges
        · subst stuck
          exact .inr ⟨rfl, _, _, List.mem_singleton_self _, rfl, nonempty, holds, after, handled⟩
        · refine .inl ⟨stuck, kept.resolve_left stuck, fun call member => ?_⟩
          rw [List.mem_singleton.mp member]
          refine ⟨rfl, nonempty, holds, fun other raised => ?_⟩
          rw [handled] at raised
          cases raised
          exact stuck rfl
  · rw [if_neg some, if_neg some]
    exact ⟨(List.append_nil log).symm, holds, by simp, rfl, rfl⟩

theorem change_calls_returned {invariant : State → Prop} {call : Int → Int → Call State}
    (isSet : ∀ value ts, Returned windowHandler schema invariant (call value ts))
    (change : Option Int) (ts : Int) :
    ∀ made ∈ changeCalls call change ts, Returned windowHandler schema invariant made := by
  intro made member
  cases change with
  | none => cases member
  | some newValue =>
      rw [changeCalls, Option.map_some, Option.toList_some, List.mem_singleton] at member
      rw [member]
      exact isSet _ _

structure ChangesRecorded (windowHandler : IWindowHandler State) (invariant : State → Prop)
    (periodChange everyChange : Option Int) (ts : Int) (pair next : State × List (Call State)) :
    Prop where
  logged : next.2 = pair.2 ++
    (changeCalls .setPeriod periodChange ts ++ changeCalls .setEvery everyChange ts)
  period : windowHandler.getPeriodOption next.1 =
    periodChange.getD (windowHandler.getPeriodOption pair.1)
  every : windowHandler.getEveryOption next.1 =
    everyChange.getD (windowHandler.getEveryOption pair.1)
  holds : invariant next.1

theorem option_changes_record (lawful : GettersReturnLastSet windowHandler)
    {invariant : State → Prop} (keeps : Keeps windowHandler schema invariant)
    {batch : RecordBatch} {period every : Option OptionColumn} {periodInForce everyInForce : Int}
    {periodIndex everyIndex : Nat} {periodChange everyChange : Option Int}
    {periodReached everyReached : Bool} (periodPresent : Present batch.schema period)
    (everyPresent : Present batch.schema every)
    (periodTurn : OptionTurn batch.schema period periodInForce batch.rows periodIndex periodChange)
    (everyTurn : OptionTurn batch.schema every everyInForce batch.rows everyIndex everyChange)
    (reachesPeriod : periodChange.isSome ↔ periodReached = true)
    (reachesEvery : everyChange.isSome ↔ everyReached = true) (ts : Int)
    (pair : State × List (Call State)) (holds : invariant pair.1) :
    ∃ middle next,
      applyOption batch (recording windowHandler).setPeriodOption period periodReached ts pair =
        .ok () middle ∧
      applyOption batch (recording windowHandler).setEveryOption every everyReached ts middle =
        .ok () next ∧
      ChangesRecorded windowHandler invariant periodChange everyChange ts pair next := by
  refine ⟨_, _, apply_option_turn ts pair _ periodPresent periodTurn reachesPeriod,
    apply_option_turn ts _ _ everyPresent everyTurn reachesEvery, ?_⟩
  have periodRecords := period_change_records lawful periodChange ts pair
  have middleHolds : invariant ((periodChange.map fun newValue =>
      (recording windowHandler).setPeriodOption newValue ts pair).getD pair).1 := by
    cases periodChange with
    | none => exact holds
    | some newValue => exact keeps.setPeriod _ _ _ holds
  dsimp only at periodRecords
  generalize ((periodChange.map fun newValue =>
    (recording windowHandler).setPeriodOption newValue ts pair).getD pair) = middle
    at periodRecords middleHolds ⊢
  obtain ⟨middleLogged, middlePeriod, middleEvery⟩ := periodRecords
  obtain ⟨logged, sets, setsEvery⟩ := every_change_records lawful everyChange ts middle
  refine ⟨by rw [logged, middleLogged, List.append_assoc], sets.trans middlePeriod,
    setsEvery.trans (by rw [middleEvery]), ?_⟩
  cases everyChange with
  | none => exact middleHolds
  | some newValue => exact keeps.setEvery _ _ _ middleHolds

theorem turn_shortens {period every : Option OptionColumn} {periodInForce everyInForce : Int}
    {rows : List Row} {slack periodIndex everyIndex : Nat} {first : Row}
    (periodLooked : Looked schema period periodInForce rows periodIndex)
    (everyLooked : Looked schema every everyInForce rows everyIndex)
    (settled : slack = 0 → ∀ row, rows.head? = some row →
      Applies schema period periodInForce row ∧ Applies schema every everyInForce row)
    (isFirst : (rows.drop (min everyIndex periodIndex)).head? = some first) :
    (rows.drop (min everyIndex periodIndex)).length < rows.length + slack := by
  have bound := periodLooked.bound
  rw [List.length_drop]
  by_cases none : min everyIndex periodIndex = 0
  · rw [none, List.drop_zero] at isFirst
    have unsettled : slack ≠ 0 := by
      intro noSlack
      obtain ⟨periodApplies, everyApplies⟩ := settled noSlack first isFirst
      rcases Nat.min_eq_zero_iff.mp none with everyZero | periodZero
      · rw [everyZero] at everyLooked
        exact first_row_asks everyLooked isFirst everyApplies
      · rw [periodZero] at periodLooked
        exact first_row_asks periodLooked isFirst periodApplies
    omega
  · have some : rows ≠ [] := by
      rintro rfl
      simp at isFirst
    have positive := List.length_pos_of_ne_nil some
    omega

theorem turn_calls_returned {invariant : State → Prop} {slice : List (Call State)}
    (returned : ∀ call ∈ slice, Returned windowHandler schema invariant call)
    (periodChange everyChange : Option Int) (ts : Int) :
    ∀ call ∈ slice ++ (changeCalls .setPeriod periodChange ts ++
      changeCalls .setEvery everyChange ts), Returned windowHandler schema invariant call := by
  intro call member
  simp only [List.mem_append] at member
  rcases member with inSlice | inPeriod | inEvery
  · exact returned call inSlice
  · exact @change_calls_returned _ _ _ _ .setPeriod (fun _ _ => trivial) _ _ call inPeriod
  · exact @change_calls_returned _ _ _ _ .setEvery (fun _ _ => trivial) _ _ call inEvery

/-- What a loop over some rows has recorded when it ends, after an earlier record. -/
def LoopRecorded (windowHandler : IWindowHandler State) (schema : Schema)
    (invariant : State → Prop) (timeColumnName : String) (period every : Option OptionColumn)
    (periodInForce everyInForce : Int) (rows : List Row) (log : List (Call State))
    (final : State × List (Call State)) : Prop :=
  ∃ calls, final.2 = log ++ calls ∧ invariant final.1 ∧
    (∀ call ∈ calls, Returned windowHandler schema invariant call) ∧
    Replays windowHandler schema timeColumnName period every periodInForce everyInForce rows
      calls

theorem loop_recorded_of_rest {invariant : State → Prop} {timeColumnName : String}
    {period every : Option OptionColumn} {periodInForce everyInForce nextPeriod nextEvery : Int}
    {rows rest : List Row} {log turn : List (Call State)} {final : State × List (Call State)}
    (turnReturned : ∀ call ∈ turn, Returned windowHandler schema invariant call)
    (recorded : LoopRecorded windowHandler schema invariant timeColumnName period every
      nextPeriod nextEvery rest (log ++ turn) final)
    (replays : ∀ calls, Replays windowHandler schema timeColumnName period every nextPeriod
      nextEvery rest calls → Replays windowHandler schema timeColumnName period every
        periodInForce everyInForce rows (turn ++ calls)) :
    LoopRecorded windowHandler schema invariant timeColumnName period every periodInForce
      everyInForce rows log final := by
  obtain ⟨calls, logged, holds, returned, restReplays⟩ := recorded
  refine ⟨turn ++ calls, ?_, holds, ?_, replays calls restReplays⟩
  · rw [logged, List.append_assoc]
  · intro call member
    rcases List.mem_append.mp member with inTurn | inCalls
    · exact turnReturned call inTurn
    · exact returned call inCalls

/-- The loop from any turn on. `slack` is zero when the first row asks for nothing new, so
that the turn takes at least that row. -/
theorem dynamic_loop_records (lawful : GettersReturnLastSet windowHandler)
    {invariant : State → Prop} (keeps : Keeps windowHandler schema invariant)
    {timeColumnName : String} {period every : Option OptionColumn}
    (periodPresent : Present schema period) (everyPresent : Present schema every)
    (timePresent : (schema.fieldIndex timeColumnName).isSome)
    {fuel slack periodIndex everyIndex : Nat} {sortedByTime : RecordBatch}
    {result : List RecordBatch} {state : State} {log : List (Call State)}
    (own : sortedByTime.schema = schema) (holds : invariant state)
    (periodPending : Pending schema period (windowHandler.getPeriodOption state)
      sortedByTime.rows periodIndex)
    (everyPending : Pending schema every (windowHandler.getEveryOption state)
      sortedByTime.rows everyIndex)
    (settled : slack = 0 → ∀ row, sortedByTime.rows.head? = some row →
      Applies schema period (windowHandler.getPeriodOption state) row ∧
        Applies schema every (windowHandler.getEveryOption state) row)
    (enough : sortedByTime.rows.length + slack < fuel) :
    Ends (Raises windowHandler schema invariant log)
      (fun _ final => LoopRecorded windowHandler schema invariant timeColumnName period every
        (windowHandler.getPeriodOption state) (windowHandler.getEveryOption state)
        sortedByTime.rows log final)
      (dynamicLoop (recording windowHandler) timeColumnName period every fuel sortedByTime
        periodIndex everyIndex result (state, log)) := by
  induction fuel generalizing slack periodIndex everyIndex sortedByTime result state log with
  | zero => omega
  | succ fuel induction =>
      subst own
      have quiet : ∀ fault (after : State × List (Call State)),
          after = (state, log) ∧ fault ≠ .diverges →
          Raises windowHandler sortedByTime.schema invariant log fault after := by
        rintro fault _ ⟨rfl, ended⟩
        exact ⟨[], (List.append_nil _).symm, .inl ⟨ended, holds, by simp⟩⟩
      unfold dynamicLoop
      by_cases empty : sortedByTime.numRows = 0
      · rw [if_pos empty]
        exact ⟨[], (List.append_nil _).symm, holds, by simp,
          List.eq_nil_of_length_eq_zero empty⟩
      rw [if_neg empty]
      refine ends_bind (ends_mono (refresh_index_looks periodPresent periodPending) quiet
        fun _ _ looked => looked) ?_
      rintro newPeriodIndex _ ⟨rfl, periodLooked⟩
      refine ends_bind (ends_mono (refresh_index_looks everyPresent everyPending) quiet
        fun _ _ looked => looked) ?_
      rintro newEveryIndex _ ⟨rfl, everyLooked⟩
      obtain ⟨taken, taking⟩ : ∃ taken, min newEveryIndex newPeriodIndex = taken := ⟨_, rfl⟩
      rw [taking]
      have periodLe : taken ≤ newPeriodIndex := by omega
      have everyLe : taken ≤ newEveryIndex := by omega
      have bound := periodLooked.bound
      refine ends_bind (handle_slice_records lawful keeps (by omega) holds log) ?_
      rintro intermediateResult ⟨handledState, handledLog⟩
        ⟨logged, handledHolds, sliceReturned, periodKept, everyKept⟩
      dsimp only at logged handledHolds periodKept everyKept
      subst logged
      by_cases finished : (sortedByTime.sliceFrom taken).numRows = 0
      · rw [if_pos finished]
        refine ⟨_, rfl, handledHolds, sliceReturned, ?_⟩
        rw [← List.append_nil (sliceCalls state sortedByTime taken)]
        exact replays_taken periodLooked everyLooked periodLe everyLe
          (List.eq_nil_of_length_eq_zero finished)
      rw [if_neg finished]
      have remains : sortedByTime.rows.drop taken ≠ [] := by
        intro none
        exact finished (by rw [RecordBatch.numRows, slice_from_rows, none]; rfl)
      obtain ⟨first, isFirst⟩ : ∃ first, (sortedByTime.rows.drop taken).head? = some first :=
        ⟨_, List.head?_eq_some_head remains⟩
      obtain ⟨periodChange, periodTurn, periodReached⟩ := option_turn periodLooked periodLe remains
      obtain ⟨everyChange, everyTurn, everyReached⟩ := option_turn everyLooked everyLe remains
      refine (@ends_bind _ _ _ _ _ _ _ _ (fun ts after =>
        after = (handledState, log ++ sliceCalls state sortedByTime taken) ∧
        rowTimestamp sortedByTime.schema timeColumnName first = .ok ts)) ?_ ?_
      · rw [first_timestamp_eq (sortedByTime.sliceFrom taken) timeColumnName isFirst
          (column_present timePresent)]
        exact ends_of_except (fun fault raised => ⟨sliceCalls state sortedByTime taken, rfl,
          .inl ⟨row_timestamp_ends raised, handledHolds, sliceReturned⟩⟩)
          fun ts found => ⟨rfl, found⟩
      rintro ts _ ⟨rfl, timed⟩
      have timedRest : ∀ row, (sortedByTime.rows.drop taken).head? = some row →
          rowTimestamp sortedByTime.schema timeColumnName row = .ok ts := by
        intro row found
        rw [isFirst, Option.some.injEq] at found
        rw [← found]
        exact timed
      have shorter : (sortedByTime.rows.drop taken).length + 0 < fuel := by
        have shortens := turn_shortens periodLooked everyLooked settled (taking.symm ▸ isFirst)
        rw [taking] at shortens
        omega
      obtain ⟨middle, ⟨nextState, nextLog⟩, setsPeriod, setsEvery, records⟩ :=
        @option_changes_record _ _ _ lawful _ keeps (sortedByTime.sliceFrom taken) _ _ _ _ _ _ _ _
          (decide (taken = newPeriodIndex)) (decide (taken = newEveryIndex)) periodPresent
          everyPresent periodTurn everyTurn (by simpa using periodReached)
          (by simpa using everyReached) ts
          (handledState, log ++ sliceCalls state sortedByTime taken) handledHolds
      rw [bind_of_ok setsPeriod, bind_of_ok setsEvery]
      obtain ⟨logged, nextPeriod, nextEvery, nextHolds⟩ := records
      dsimp only at logged nextPeriod nextEvery nextHolds
      rw [periodKept] at nextPeriod
      rw [everyKept] at nextEvery
      have rest := @induction 0 _ _ (sortedByTime.sliceFrom taken) (result ++ intermediateResult)
        nextState nextLog rfl
        nextHolds (nextPeriod ▸ turn_pending periodTurn) (nextEvery ▸ turn_pending everyTurn)
        (fun _ row found => ⟨nextPeriod ▸ turn_first_applies periodTurn found,
          nextEvery ▸ turn_first_applies everyTurn found⟩) shorter
      have turnReturned := turn_calls_returned sliceReturned periodChange everyChange ts
      rw [logged, List.append_assoc] at rest ⊢
      refine ends_mono rest (fun _ _ raises => raises_of_earlier turnReturned raises) ?_
      intro _ final recorded
      refine loop_recorded_of_rest turnReturned recorded ?_
      intro calls replays
      rw [nextPeriod, nextEvery] at replays
      simp only [List.append_assoc]
      exact replays_taken periodLooked everyLooked periodLe everyLe
        (replays_period_change periodTurn timedRest
          (replays_every_change everyTurn timedRest replays))

theorem option_column_present {batch : RecordBatch} {columnName : Option String}
    {option : Option OptionColumn} (found : optionColumn batch columnName = .ok option) :
    Present batch.schema option := by
  intro column isOption
  subst isOption
  unfold optionColumn at found
  cases columnName with
  | none => cases found
  | some name =>
      dsimp only at found
      cases located : batch.schema.fieldIndex name with
      | none => rw [get_column_by_name_none batch located] at found; cases found
      | some index =>
          have present := @column_present batch name (by rw [located]; rfl)
          obtain ⟨typed, isColumn⟩ := Option.isSome_iff_exists.mp present
          rw [isColumn] at found
          cases unit : getColumnTimeUnit batch name with
          | error fault => simp only [unit, bind, Except.bind] at found; cases found
          | ok timeUnit =>
              simp only [unit, bind, Except.bind, pure, Except.pure, Except.ok.injEq,
                Option.some.injEq] at found
              rw [← found, located]
              rfl

theorem get_column_time_unit_ends {batch : RecordBatch} {columnName : String} {fault : Fault}
    (raised : getColumnTimeUnit batch columnName = .error fault) : fault ≠ .diverges := by
  unfold getColumnTimeUnit getTimeUnitMetadata at raised
  repeat' split at raised
  all_goals
    cases raised
    try simp

theorem option_column_ends {batch : RecordBatch} {columnName : Option String} {fault : Fault}
    (raised : optionColumn batch columnName = .error fault) : fault ≠ .diverges := by
  unfold optionColumn at raised
  split at raised
  · cases raised
  · split at raised
    · cases raised
    · next name _ _ _ =>
      cases unit : getColumnTimeUnit batch name with
      | error other =>
          simp only [unit, bind, Except.bind] at raised
          cases raised
          exact get_column_time_unit_ends unit
      | ok timeUnit =>
          simp only [unit, bind, Except.bind] at raised
          cases raised

theorem time_column_name_ends {batch : RecordBatch} {fault : Fault}
    (raised : getTimeColumnNameMetadata batch = .error fault) : fault ≠ .diverges := by
  unfold getTimeColumnNameMetadata getColumnNameMetadata at raised
  repeat' split at raised
  all_goals
    cases raised
    try simp

theorem sort_by_column_cases {columnName : String} {batch : RecordBatch} :
    (∃ status, sortByColumn columnName batch = .error (.status status)) ∨
      ∃ sorted, sortByColumn columnName batch = .ok sorted ∧ sorted.schema = batch.schema ∧
        (batch.schema.fieldIndex columnName).isSome ∧ sorted.numRows = batch.numRows := by
  unfold sortByColumn
  split
  · exact .inl ⟨_, rfl⟩
  · next index located =>
    refine .inr ⟨_, rfl, rfl, by rw [located]; rfl, ?_⟩
    exact (sort_rows_perm batch index).length_eq

theorem first_index_pending {schema : Schema} {option : Option OptionColumn} {value : Int}
    {rows : List Row} :
    Pending schema option value rows (if option.isSome then 0 else rows.length) := by
  cases option with
  | none => exact .inr ⟨le_refl _, (fun _ _ _ isOption => by cases isOption), rfl⟩
  | some column => exact .inl ⟨rfl, rfl⟩

/-- The rows of a batch in the order of their times, nulls last. -/
structure InTimeOrder (recordBatch : RecordBatch) (timeColumnName : String)
    (sortedByTime : RecordBatch) : Prop where
  perm : sortedByTime.rows.Perm recordBatch.rows
  ordered : ∀ index unit, recordBatch.schema.fieldIndex timeColumnName = some index →
    recordBatch.schema.types[index]? = some (.timestamp unit) →
      sortedByTime.rows.Pairwise fun earlier later =>
        cellTime (earlier.getD index none) ≤ cellTime (later.getD index none)

theorem in_time_order_of_sorted {columnName : String} {batch sorted : RecordBatch}
    (found : sortByColumn columnName batch = .ok sorted) : InTimeOrder batch columnName sorted := by
  unfold sortByColumn at found
  cases located : batch.schema.fieldIndex columnName with
  | none => rw [located] at found; cases found
  | some index =>
      rw [located] at found
      cases found
      refine ⟨sort_rows_perm batch index, ?_⟩
      intro own unit isIndex typed
      rw [located, Option.some.injEq] at isIndex
      subst isIndex
      exact sort_rows_times typed

/-- What the record of a call on a batch is once the call has returned. -/
def Recorded (windowHandler : IWindowHandler State) (options : DynamicWindowOptions)
    (recordBatch : RecordBatch) (state : State) (log : List (Call State)) : Prop :=
  ∃ timeColumnName sortedByTime period every,
    getTimeColumnNameMetadata recordBatch = .ok timeColumnName ∧
    sortByColumn timeColumnName recordBatch = .ok sortedByTime ∧
    InTimeOrder recordBatch timeColumnName sortedByTime ∧
    optionColumn recordBatch options.periodColumnName = .ok period ∧
    optionColumn recordBatch options.everyColumnName = .ok every ∧
    handledRows log = sortedByTime.rows ∧
    Replays windowHandler recordBatch.schema timeColumnName period every
      (windowHandler.getPeriodOption state) (windowHandler.getEveryOption state)
      sortedByTime.rows log

/-- A call over an inner handler that keeps its options: it replays the sorted batch, or
raises, and it never ends only when the inner handler does not on some slice. -/
theorem handle_records (lawful : GettersReturnLastSet windowHandler)
    {invariant : State → Prop} {recordBatch : RecordBatch}
    (keeps : Keeps windowHandler recordBatch.schema invariant) {state : State}
    (holds : invariant state) (options : DynamicWindowOptions) :
    Ends (Raises windowHandler recordBatch.schema invariant [])
      (fun _ final => invariant final.1 ∧
        (∀ call ∈ final.2, Returned windowHandler recordBatch.schema invariant call) ∧
        Recorded windowHandler options recordBatch state final.2)
      (handle (recording windowHandler) options recordBatch (state, [])) := by
  have quiet : ∀ {fault : Fault}, fault ≠ .diverges →
      Raises windowHandler recordBatch.schema invariant [] fault (state, []) :=
    fun ended => ⟨[], rfl, .inl ⟨ended, holds, by simp⟩⟩
  unfold handle
  refine (@ends_bind _ _ _ _ _ _ _ _ (fun period after => after = (state, []) ∧
    optionColumn recordBatch options.periodColumnName = .ok period))
    (ends_of_except (fun _ raised => quiet (option_column_ends raised))
      fun _ found => ⟨rfl, found⟩) ?_
  rintro period _ ⟨rfl, periodFound⟩
  refine (@ends_bind _ _ _ _ _ _ _ _ (fun every after => after = (state, []) ∧
    optionColumn recordBatch options.everyColumnName = .ok every))
    (ends_of_except (fun _ raised => quiet (option_column_ends raised))
      fun _ found => ⟨rfl, found⟩) ?_
  rintro every _ ⟨rfl, everyFound⟩
  refine (@ends_bind _ _ _ _ _ _ _ _ (fun name after => after = (state, []) ∧
    getTimeColumnNameMetadata recordBatch = .ok name))
    (ends_of_except (fun _ raised => quiet (time_column_name_ends raised))
      fun _ found => ⟨rfl, found⟩) ?_
  rintro timeColumnName _ ⟨rfl, named⟩
  rcases (@sort_by_column_cases timeColumnName recordBatch) with
    ⟨status, failed⟩ | ⟨sorted, found, own, located, size⟩
  · rw [failed, bind_of_error (of_except_error _ _)]
    exact quiet (by simp)
  · rw [found, bind_of_ok (of_except_ok _ _)]
    have rows : recordBatch.numRows = sorted.rows.length := size.symm
    have recorded := @dynamic_loop_records _ _ _ lawful _ keeps _ _ _
        (option_column_present periodFound) (option_column_present everyFound) located
        (recordBatch.numRows + 2) 1 _ _ sorted [] state [] own holds
      (@first_index_pending _ period _ _) (@first_index_pending _ every _ _)
      (by omega) (by omega)
    rw [← rows] at recorded
    refine ends_mono recorded (fun _ _ raises => raises) ?_
    rintro _ final ⟨calls, logged, finalHolds, returned, replays⟩
    rw [List.nil_append] at logged
    subst logged
    exact ⟨finalHolds, returned, ⟨timeColumnName, sorted, period, every, named, found,
      in_time_order_of_sorted found, periodFound, everyFound, replays_handled_rows replays, replays⟩⟩

end Runs

/-- Over an inner handler that keeps its options and ends, a call ends, does the same
whether it is recorded or not, and when it returns has replayed the sorted batch. -/
theorem handle_replays_sorted_batch {State : Type} (windowHandler : IWindowHandler State)
    (lawful : GettersReturnLastSet windowHandler)
    (terminates : ∀ slice state fault after,
      windowHandler.handle slice state = .error fault after → fault ≠ .diverges)
    (options : DynamicWindowOptions) (recordBatch : RecordBatch) (state : State) :
    projectResult Prod.fst
        (handle (recording windowHandler) options recordBatch (state, [])) =
      handle windowHandler options recordBatch state ∧
    Ends (fun fault _ => fault ≠ .diverges)
      (fun _ final => Recorded windowHandler options recordBatch state final.2)
      (handle (recording windowHandler) options recordBatch (state, [])) := by
  refine ⟨handle_recording_over windowHandler options recordBatch (state, []), ?_⟩
  have keeps : Keeps windowHandler recordBatch.schema fun _ => True := by
    refine ⟨fun _ _ _ _ => trivial, fun _ _ _ _ => trivial, fun slice state _ _ _ => ?_⟩
    cases windowHandler.handle slice state with
    | ok result after => exact trivial
    | error fault after => exact .inr trivial
  refine ends_mono (handle_records lawful keeps trivial options) ?_
    fun _ final recorded => recorded.2.2
  rintro fault final ⟨calls, _, ⟨ended, _⟩ | ⟨_, slice, stuckState, _, stuck⟩⟩
  · exact ended
  · obtain ⟨after, diverged⟩ := stuck.diverged
    exact absurd rfl (terminates slice stuckState .diverges after diverged)

def passThrough : IWindowHandler (Int × Int) where
  handle := fun slice => pure [slice]
  getPeriodOption := Prod.fst
  getEveryOption := Prod.snd
  setPeriodOption := fun value _ state => (value, state.2)
  setEveryOption := fun value _ state => (state.1, value)

def periodBatch : RecordBatch where
  schema := {
    fields := [{ name := "time", type := .timestamp .second },
      { name := "period", type := .int64, metadata := { timeUnit := some .second } }]
    metadata := { timeColumnName := some "time" } }
  rows := [[some (.integer 100), some (.integer 5)], [some (.integer 101), some (.integer 7)]]
  conforms := by
    intro row member
    simp only [List.mem_cons, List.not_mem_nil, or_false] at member
    rcases member with rfl | rfl <;> exact .cons rfl (.cons rfl .nil)

def sliceOf? : Call (Int × Int) → Option ((Int × Int) × List Row)
  | .handled slice options => some (options, slice.rows)
  | _ => none

def slicesOf : EStateM.Result Fault ((Int × Int) × List (Call (Int × Int))) (List RecordBatch) →
    List ((Int × Int) × List Row)
  | .ok _ final => final.2.filterMap sliceOf?
  | .error _ _ => []

/-- The call returns, and the two rows are handled under periods of five and of seven seconds. -/
theorem handle_replays_period_batch :
    ∃ result final, handle (recording passThrough) { periodColumnName := some "period" }
        periodBatch ((5, 60), []) = .ok result final ∧
      handle passThrough { periodColumnName := some "period" } periodBatch (5, 60) =
        .ok result final.1 ∧
      Recorded passThrough { periodColumnName := some "period" } periodBatch (5, 60) final.2 ∧
      final.2.filterMap sliceOf? =
        [((5, 60), [[some (.integer 100), some (.integer 5)]]),
          ((7, 60), [[some (.integer 101), some (.integer 7)]])] := by
  obtain ⟨same, recorded⟩ := handle_replays_sorted_batch passThrough
    { periodSet := fun _ _ _ => rfl
      everySet := fun _ _ _ => rfl
      periodKept := fun _ _ _ => rfl
      everyKept := fun _ _ _ => rfl
      handled := by
        intro slice state result after handled
        cases handled
        exact ⟨rfl, rfl⟩ }
    (fun _ _ _ _ raised => by cases raised) { periodColumnName := some "period" } periodBatch
    (5, 60)
  have slices : slicesOf (handle (recording passThrough) { periodColumnName := some "period" }
      periodBatch ((5, 60), [])) = [((5, 60), [[some (.integer 100), some (.integer 5)]]),
        ((7, 60), [[some (.integer 101), some (.integer 7)]])] := by
    decide +kernel
  cases outcome : handle (recording passThrough) { periodColumnName := some "period" } periodBatch
      ((5, 60), []) with
  | error fault after =>
      rw [outcome] at slices
      cases slices
  | ok result final =>
      rw [outcome] at same recorded slices
      exact ⟨result, final, rfl, same.symm, recorded, slices⟩

end StreamDataProcessor.Handlers.DynamicWindow
