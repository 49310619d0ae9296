import StreamDataProcessor.Foundation.Attempts
import StreamDataProcessor.Handlers.ReadableTimes
import StreamDataProcessor.Handlers.ThresholdStateMachine

/-!
# What a failed call leaves of the threshold state machine

The rows move the state one after another, and the threshold column is added at the end.
-/

namespace StreamDataProcessor.Handlers

open Foundation.Effect Foundation.Attempts Arrow Metadata Utils

set_option autoImplicit false

namespace Threshold

variable {Number : Type} [LT Number] [LE Number] [DecidableLT Number] [DecidableLE Number]
  [Mul Number] [Min Number] [Max Number] [Arithmetic Number]

variable (options : Options Number) (batch : RecordBatch)

/-- The state object is replaced by a row of this value and time. -/
def Moves : ThresholdState Number → Number → Int → Prop
  | .ok currentThreshold, value, _ =>
      ¬(value ≤ currentThreshold ∧ value ≥ currentThreshold * options.decreaseTriggerFactor) ∧
        (value > currentThreshold ∨ value ≤ currentThreshold * options.decreaseTriggerFactor)
  | .increase currentThreshold alertStart, value, rowTime =>
      value ≤ currentThreshold ∨ value > currentThreshold ∧ rowTime > alertStart ∧
        Arithmetic.keep Number (rowTime - alertStart) > options.increaseAfter
  | .decrease currentThreshold decreaseStart, value, rowTime =>
      value > currentThreshold ∨ value > currentThreshold * options.decreaseTriggerFactor ∨
        value ≤ currentThreshold * options.decreaseTriggerFactor ∧ rowTime > decreaseStart ∧
          Arithmetic.keep Number (rowTime - decreaseStart) > options.decreaseAfter

def Readable (row : Nat) : Prop :=
  ∃ (value : Number) (rowTime : Int),
    getColumnValueAtRow batch options.watchColumnName row = .ok value ∧
      getTimeAtRow Number batch row = .ok rowTime

def MovesAt (state : ThresholdState Number) (row : Nat) : Prop :=
  ∃ value rowTime, getColumnValueAtRow batch options.watchColumnName row = .ok value ∧
    getTimeAtRow Number batch row = .ok rowTime ∧ Moves options state value rowTime

/-- Where a row replaces the state, the name of the threshold column is new to the batch and
the later rows can be read. -/
def FailsFirst (state : ThresholdState Number) (batch : RecordBatch) : Prop :=
  ∀ row < batch.numRows, MovesAt options batch state row →
    options.thresholdColumnName ∉ batch.schema.fieldNames ∧
      ∀ later, row < later → later < batch.numRows → Readable options batch later

variable {options batch}

/-- A row that does not move the state leaves it, whether or not it can be read. -/
theorem row_keeps {state : ThresholdState Number} {readValue : Outcome Number} {readTime : Outcome Int}
    (still : ∀ value rowTime, readValue = .ok value → readTime = .ok rowTime →
      ¬Moves options state value rowTime) :
    Ends (fun _ after => after = state) (fun _ after => after = state)
      (addThresholdForRow options readValue readTime state) := by
  simp only [addThresholdForRow, bind_of_ok (get_apply state)]
  cases readValue with
  | error fault => cases state <;> exact rfl
  | ok value =>
      cases state with
      | ok currentThreshold =>
          simp only [StateOK.addThresholdForRow, bind_of_ok (of_except_ok value _)]
          split
          · exact rfl
          · next outside =>
            cases readTime with
            | error fault => exact rfl
            | ok rowTime =>
                have stays := still value rowTime rfl rfl
                simp only [Moves] at stays
                obtain ⟨low, high⟩ := not_or.mp fun moves => stays ⟨outside, moves⟩
                simp only [bind_of_ok (of_except_ok rowTime _)]
                rw [if_neg low, if_neg high]
                exact rfl
      | increase currentThreshold alertStart =>
          cases readTime with
          | error fault => exact rfl
          | ok rowTime =>
              have stays := still value rowTime rfl rfl
              simp only [Moves, not_or] at stays
              simp only [StateIncrease.addThresholdForRow, bind_of_ok (of_except_ok value _),
                bind_of_ok (of_except_ok rowTime _)]
              rw [if_neg stays.2, if_neg stays.1]
              exact rfl
      | decrease currentThreshold decreaseStart =>
          cases readTime with
          | error fault => exact rfl
          | ok rowTime =>
              have stays := still value rowTime rfl rfl
              simp only [Moves, not_or] at stays
              simp only [StateDecrease.addThresholdForRow, bind_of_ok (of_except_ok value _),
                bind_of_ok (of_except_ok rowTime _)]
              rw [if_neg stays.2.2, if_neg stays.1, if_neg stays.2.1]
              exact rfl

omit [Min Number] [Max Number] [Arithmetic Number] in
theorem state_ok_returns (currentThreshold value : Number) (rowTime : Int) (state : ThresholdState Number) :
    Ends (fun _ _ => False) (fun _ _ => True)
      (StateOK.addThresholdForRow options currentThreshold (.ok value) (.ok rowTime) state) := by
  simp only [StateOK.addThresholdForRow, bind_of_ok (of_except_ok value _)]
  split
  · trivial
  · simp only [bind_of_ok (of_except_ok rowTime _)]
    split
    · trivial
    · split <;> trivial

theorem row_returns (value : Number) (rowTime : Int) (state : ThresholdState Number) :
    Ends (fun _ _ => False) (fun _ _ => True)
      (addThresholdForRow options (.ok value) (.ok rowTime) state) := by
  simp only [addThresholdForRow, bind_of_ok (get_apply state)]
  cases state with
  | ok currentThreshold => exact state_ok_returns _ _ _ _
  | increase currentThreshold alertStart =>
      simp only [StateIncrease.addThresholdForRow, bind_of_ok (of_except_ok value _),
        bind_of_ok (of_except_ok rowTime _)]
      split
      · exact state_ok_returns _ _ _ _
      · split <;> trivial
  | decrease currentThreshold decreaseStart =>
      simp only [StateDecrease.addThresholdForRow, bind_of_ok (of_except_ok value _),
        bind_of_ok (of_except_ok rowTime _)]
      split
      · exact state_ok_returns _ _ _ _
      · split
        · trivial
        · split <;> trivial

theorem rows_return (rows : List Nat) (readable : ∀ row ∈ rows, Readable options batch row)
    (state : ThresholdState Number) :
    Ends (fun _ _ => False) (fun thresholds _ => thresholds.length = rows.length)
      (addThresholdForRows options batch rows state) := by
  induction rows generalizing state with
  | nil => exact rfl
  | cons row rest induction =>
      obtain ⟨value, rowTime, valued, timed⟩ := readable row (by simp)
      rw [addThresholdForRows, valued, timed]
      apply ends_bind (row_returns value rowTime state)
      intro threshold after _
      apply ends_bind (induction (fun other member => readable other (by simp [member])) after)
      intro thresholds last count
      exact congrArg (· + 1) count

/-- Rows of which the first to move the state is followed by readable ones only leave the
state, or are all taken. -/
theorem rows_keep (rows : List Nat) (state : ThresholdState Number)
    (readable : ∀ before row later, rows = before ++ row :: later →
      MovesAt options batch state row → ∀ other ∈ later, Readable options batch other) :
    Ends (fun _ after => after = state)
      (fun thresholds after => after = state ∨ thresholds.length = rows.length ∧
        ∃ row ∈ rows, MovesAt options batch state row)
      (addThresholdForRows options batch rows state) := by
  induction rows with
  | nil => exact .inl rfl
  | cons row rest induction =>
      rw [addThresholdForRows]
      by_cases moves : MovesAt options batch state row
      · have later := readable [] row rest rfl moves
        have moved := moves
        obtain ⟨value, rowTime, valued, timed, _⟩ := moved
        have all := rows_return (row :: rest) (fun other member => by
          rcases List.mem_cons.mp member with rfl | inRest
          · exact ⟨value, rowTime, valued, timed⟩
          · exact later other inRest) state
        rw [addThresholdForRows] at all
        exact ends_mono all (fun _ _ => False.elim) fun _ _ count =>
          .inr ⟨count, row, by simp, moves⟩
      · have kept : Ends (fun _ after => after = state) (fun _ after => after = state)
            (addThresholdForRow options (getColumnValueAtRow batch options.watchColumnName row)
              (getTimeAtRow Number batch row) state) :=
          row_keeps fun value rowTime valued timed moved =>
            moves ⟨value, rowTime, valued, timed, moved⟩
        apply ends_bind kept
        intro threshold after same
        subst same
        have others := induction fun before other later split moved =>
          readable (row :: before) other later (by rw [split]; rfl) moved
        apply ends_bind others
        intro thresholds last ended
        rcases ended with same | ⟨count, other, member, moved⟩
        · exact .inl same
        · exact .inr ⟨congrArg (· + 1) count, other, by simp [member], moved⟩

theorem range_split {count row : Nat} {before later : List Nat}
    (split : List.range count = before ++ row :: later) :
    row < count ∧ ∀ other ∈ later, row < other ∧ other < count := by
  have sorted : (before ++ row :: later).Pairwise (· < ·) := by
    rw [← split]
    exact List.pairwise_lt_range
  have within : ∀ other ∈ before ++ row :: later, other < count := by
    intro other member
    rw [← split] at member
    exact List.mem_range.mp member
  refine ⟨within row (by simp), ?_⟩
  intro other member
  exact ⟨List.rel_of_pairwise_cons (List.pairwise_append.mp sorted).2.1 member,
    within other (by simp [member])⟩

omit [LT Number] [LE Number] [DecidableLT Number] [DecidableLE Number] [Mul Number]
  [Min Number] [Max Number] in
theorem add_threshold_column {thresholds : List Number} (count : thresholds.length = batch.numRows)
    (fresh : options.thresholdColumnName ∉ batch.schema.fieldNames) :
    ∃ result typed, batch.addColumn { name := options.thresholdColumnName, type := .double }
        (thresholdArray thresholds) = .ok result ∧
      setColumnTypeMetadata result options.thresholdColumnName options.thresholdColumnType =
        .ok typed := by
  obtain ⟨result, added, schema, _⟩ := @add_column_eq batch
    { name := options.thresholdColumnName, type := .double } (thresholdArray thresholds) rfl
    (by rw [thresholdArray, List.length_map, count])
  have once : result.schema.fieldNames.count options.thresholdColumnName = 1 := by
    rw [schema, Schema.fieldNames, List.map_append, List.count_append]
    have absent := List.count_eq_zero_of_not_mem fresh
    rw [Schema.fieldNames] at absent
    simp [absent]
  have isTyped : ∃ typed, setColumnTypeMetadata result options.thresholdColumnName
      options.thresholdColumnType = .ok typed := by
    rw [setColumnTypeMetadata, Schema.fieldIndex, if_pos once]
    exact ⟨_, rfl⟩
  obtain ⟨typed, isTyped⟩ := isTyped
  exact ⟨result, typed, added, isTyped⟩

theorem handle_atomic {state : ThresholdState Number} (failsFirst : FailsFirst options state batch) :
    Atomic IsStatus (handle options batch) state := by
  have readable : ∀ before row later, List.range batch.numRows = before ++ row :: later →
      MovesAt options batch state row → ∀ other ∈ later, Readable options batch other := by
    intro before row later split moves other member
    obtain ⟨inBatch, ordered⟩ := range_split split
    obtain ⟨after, within⟩ := ordered other member
    exact (failsFirst row inBatch moves).2 other after within
  have kept : Ends (fun error after => IsStatus error → after = state)
      (fun thresholds after => after = state ∨ thresholds.length = batch.numRows ∧
        options.thresholdColumnName ∉ batch.schema.fieldNames)
      (addThresholdForRows options batch (List.range batch.numRows) state) := by
    apply ends_mono (rows_keep _ state readable)
    · exact fun _ _ same _ => same
    · intro thresholds after taken
      refine taken.imp id ?_
      intro moved
      obtain ⟨count, row, member, moves⟩ := moved
      exact ⟨by rw [count, List.length_range],
        (failsFirst row (List.mem_range.mp member) moves).1⟩
  rw [atomic_iff_ends, handle]
  apply ends_bind kept
  intro thresholds after taken
  rcases taken with same | ⟨count, fresh⟩
  · subst same
    apply atomic_iff_ends.mp
    apply atomic_of_except_bind
    intro result _
    apply atomic_of_except_bind
    intro typed _
    exact atomic_pure _ _
  · obtain ⟨result, typed, added, isTyped⟩ := add_threshold_column count fresh
    rw [added, bind_of_ok (of_except_ok result after), isTyped,
      bind_of_ok (of_except_ok typed after)]
    trivial

end Threshold

end StreamDataProcessor.Handlers
