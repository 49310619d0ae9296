import Mathlib.Tactic.FieldSimp
import Mathlib.Tactic.NormNum
import StreamDataProcessor.Handlers.DerivativeSpec

/-!
# The abscissas of the derivative handler

`getScaledPositionTime` divides integers, so what is left of a time within the unit
is lost, whether or not numbers are rounded: they are exact here. The positions are true to
the instants of rows that leave the same remainder, and so are then the windows.
-/

namespace StreamDataProcessor.Handlers.Derivative

open Foundation.Effect Foundation.Binary64 Arrow Metadata Utils

set_option autoImplicit false

section Exact

local instance exactly : Numbers := exactNumbers

/-- The rows of a time column have positions as far apart as their instants. -/
def FaithfulPositions (options : DerivativeOptions) (timeColumn : Column) : Prop :=
  ∀ row other position otherPosition timestamp otherTimestamp,
    getScaledPositionTime options row timeColumn = .ok position →
    getScaledPositionTime options other timeColumn = .ok otherPosition →
    timestampAt timeColumn .nano row = .ok timestamp →
    timestampAt timeColumn .nano other = .ok otherTimestamp →
    ((position - otherPosition : Int) : ℚ) =
        ((timestamp - otherTimestamp : Int) : ℚ) / (options.unitTimeSegment : ℚ) ∧
      (timestamp ≠ otherTimestamp → position ≠ otherPosition)

/-- All timestamps of a time column leave the same remainder by the unit. -/
def SameRemainders (options : DerivativeOptions) (timeColumn : Column) : Prop :=
  ∀ row other timestamp otherTimestamp,
    timestampAt timeColumn .nano row = .ok timestamp →
    timestampAt timeColumn .nano other = .ok otherTimestamp →
    timestamp.tmod options.unitTimeSegment = otherTimestamp.tmod options.unitTimeSegment

def nanoseconds (schema : Schema) (row : Row) : Int :=
  match castTimestampScalar (timeType schema) (timeCell schema row) .nano with
  | .ok timestamp => integerValue timestamp
  | .error _ => 0

/-- The rows received whose instant is within the neighbourhood of that of a row. -/
def instantNeighbours (options : DerivativeOptions) (schema : Schema) (received : List Row)
    (row : Row) : List Row :=
  received.filter fun other =>
    |nanoseconds schema other - nanoseconds schema row| ≤ options.derivativeNeighbourhood

def callsOver (options : DerivativeOptions) (schema : Schema) (participants : List Row)
    (row : Row) : List CalculatorCall :=
  options.derivativeCases.map fun derivativeCase =>
    let buffered := bufferedOf options schema derivativeCase.2.valuesColumnName participants
    ⟨buffered.times, buffered.values, scaledTime options schema row, derivativeCase.2.order⟩

/-- In every answer, just the rows received within the neighbourhood of a row take part
in its derivatives. -/
def FaithfulWindows (options : DerivativeOptions) (schema : Schema)
    (batches : List RecordBatch)
    (answers : List (List RecordBatch × List (List CalculatorCall))) : Prop :=
  ∀ index, (bound : index < answers.length) →
    let before := streamRows (batches.take index)
    let received := streamRows (batches.take (index + 1))
    answers[index].2 =
      ((released options schema received).drop (released options schema before).length).map
        fun row => callsOver options schema (instantNeighbours options schema received row) row

section Positions

variable {options : DerivativeOptions}

theorem expected_calls_eq (schema : Schema) (received : List Row) (row : Row) :
    expectedCalls options schema received row =
      callsOver options schema (neighbours options schema received row) row := rfl

theorem scaled_time_eq (schema : Schema) (row : Row) :
    scaledTime options schema row = (nanoseconds schema row).tdiv options.unitTimeSegment := by
  unfold scaledTime keptNanoseconds nanoseconds
  cases castTimestampScalar (timeType schema) (timeCell schema row) .nano with
  | ok timestamp => rfl
  | error fault => rfl

theorem scaled_position_time_at (positive : 0 < options.unitTimeSegment) (row : Nat)
    (timeColumn : Column) :
    getScaledPositionTime options row timeColumn =
      (timestampAt timeColumn .nano row >>= fun timestamp =>
        .ok (timestamp.tdiv options.unitTimeSegment)) := by
  have nonzero : options.unitTimeSegment ≠ 0 := by omega
  unfold getScaledPositionTime timestampAt
  cases timeColumn.getScalar row with
  | error fault => rfl
  | ok scalar =>
      simp only [bind, Except.bind]
      cases castTimestampScalar timeColumn.type scalar .nano with
      | error fault => rfl
      | ok timestamp =>
          have unit : ¬(options.unitTimeSegment = -1 ∧
              Numbers.keep (integerValue timestamp) = -2 ^ 63) := fun isUnit => by omega
          simp only [if_neg nonzero, if_neg unit, pure, Except.pure]
          rfl

theorem quotients_apart_iff {unit left right : Int} :
    (left.tdiv unit - right.tdiv unit) * unit = left - right ↔
      left.tmod unit = right.tmod unit := by
  have leftParts := Int.mul_tdiv_add_tmod left unit
  have rightParts := Int.mul_tdiv_add_tmod right unit
  rw [Int.sub_mul, Int.mul_comm, Int.mul_comm (right.tdiv unit)]
  omega

theorem exact_difference_iff {unit left right : Int} (positive : 0 < unit) :
    ((left.tdiv unit - right.tdiv unit : Int) : ℚ) = ((left - right : Int) : ℚ) / (unit : ℚ) ↔
      left.tmod unit = right.tmod unit := by
  have nonzero : (unit : ℚ) ≠ 0 := by exact_mod_cast positive.ne'
  rw [← quotients_apart_iff, eq_div_iff nonzero]
  exact_mod_cast Iff.rfl

theorem faithful_positions_iff (positive : 0 < options.unitTimeSegment) (timeColumn : Column) :
    FaithfulPositions options timeColumn ↔ SameRemainders options timeColumn := by
  constructor
  · intro faithful row other timestamp otherTimestamp atRow atOther
    have position := scaled_position_time_at positive row timeColumn
    have otherPosition := scaled_position_time_at positive other timeColumn
    rw [atRow] at position
    rw [atOther] at otherPosition
    exact (exact_difference_iff positive).mp
      (faithful _ _ _ _ _ _ position otherPosition atRow atOther).1
  · intro same row other position otherPosition timestamp otherTimestamp isPosition
      isOtherPosition atRow atOther
    rw [scaled_position_time_at positive, atRow] at isPosition
    rw [scaled_position_time_at positive, atOther] at isOtherPosition
    obtain rfl : timestamp.tdiv options.unitTimeSegment = position := Except.ok.inj isPosition
    obtain rfl : otherTimestamp.tdiv options.unitTimeSegment = otherPosition :=
      Except.ok.inj isOtherPosition
    have remainders := same _ _ _ _ atRow atOther
    refine ⟨(exact_difference_iff positive).mpr remainders, ?_⟩
    intro differ equal
    have apart := quotients_apart_iff.mpr remainders
    rw [equal, Int.sub_self, Int.zero_mul] at apart
    omega

end Positions

section Windows

variable {options : DerivativeOptions} {schema : Schema}

theorem neighbours_of_remainders (positive : 0 < options.unitTimeSegment) {received : List Row}
    {row : Row} (same : ∀ other ∈ received,
      (nanoseconds schema other).tmod options.unitTimeSegment =
        (nanoseconds schema row).tmod options.unitTimeSegment) :
    neighbours options schema received row = instantNeighbours options schema received row := by
  unfold neighbours instantNeighbours
  apply List.filter_congr
  intro other member
  have apart := quotients_apart_iff.mpr (same other member)
  have distance : |scaledTime options schema other - scaledTime options schema row| *
      options.unitTimeSegment = |nanoseconds schema other - nanoseconds schema row| := by
    rw [← apart, abs_mul, abs_of_pos positive, scaled_time_eq, scaled_time_eq]
  rw [distance]

theorem timestamp_at_row {rows : List Row} {timeColumn : Column}
    (type : timeColumn.type = timeType schema)
    (cells : timeColumn.cells = rows.map (timeCell schema)) {index : Nat} {row : Row}
    (found : rows[index]? = some row) :
    timestampAt timeColumn .nano index =
      (castTimestampScalar (timeType schema) (timeCell schema row) .nano >>= fun timestamp =>
        .ok (integerValue timestamp)) := by
  simp only [timestampAt, Column.getScalar, cells, type, List.getElem?_map, found,
    Option.map_some]
  rfl

theorem remainders_of_rows {rows : List Row} {timeColumn : Column}
    (type : timeColumn.type = timeType schema)
    (cells : timeColumn.cells = rows.map (timeCell schema))
    (timed : ∀ row ∈ rows, ∃ value, timeCell schema row = some (.integer value))
    (same : SameRemainders options timeColumn) {row other : Row} (member : row ∈ rows)
    (otherMember : other ∈ rows) :
    (nanoseconds schema row).tmod options.unitTimeSegment =
      (nanoseconds schema other).tmod options.unitTimeSegment := by
  obtain ⟨index, found⟩ := List.mem_iff_getElem?.mp member
  obtain ⟨otherIndex, otherFound⟩ := List.mem_iff_getElem?.mp otherMember
  obtain ⟨value, cell⟩ := timed row member
  obtain ⟨otherValue, otherCell⟩ := timed other otherMember
  have atRow := timestamp_at_row type cells found
  have atOther := timestamp_at_row type cells otherFound
  have remainders := same index otherIndex
  unfold nanoseconds
  rw [cell] at atRow ⊢
  rw [otherCell] at atOther ⊢
  cases cast : castTimestampScalar (timeType schema) (some (.integer value)) .nano with
  | error fault =>
      cases otherCast : castTimestampScalar (timeType schema) (some (.integer otherValue)) .nano with
      | error other => rfl
      | ok timestamp =>
          obtain ⟨_, again⟩ := cast_timestamp_exists otherCast value
          rw [cast] at again
          cases again
  | ok timestamp =>
      obtain ⟨otherTimestamp, otherCast⟩ := cast_timestamp_exists cast otherValue
      rw [cast] at atRow
      rw [otherCast] at atOther ⊢
      exact remainders _ _ atRow atOther

theorem stream_rows_take (batches : List RecordBatch) (count : Nat) {row : Row}
    (member : row ∈ streamRows (batches.take count)) : row ∈ streamRows batches := by
  obtain ⟨batch, taken, inBatch⟩ := List.mem_flatMap.mp member
  exact List.mem_flatMap.mpr ⟨batch, List.mem_of_mem_take taken, inBatch⟩

/-- On every run over a stream, the abscissas and the windows are true to the instants just
when all timestamps leave the same remainder by the unit. -/
theorem faithful_to_instants_iff {calculator : DerivativeCalculator}
    {batches : List RecordBatch} {final : DerivativeHandler}
    {answers : List (List RecordBatch × List (List CalculatorCall))} {timeColumn : Column}
    (positive : 0 < options.unitTimeSegment) (reaches : 0 ≤ options.derivativeNeighbourhood)
    (stream : TimedStream schema batches)
    (returned : handleAllWithCalls calculator options batches {} = .ok answers final)
    (type : timeColumn.type = timeType schema)
    (cells : timeColumn.cells = (streamRows batches).map (timeCell schema)) :
    (FaithfulPositions options timeColumn ∧ FaithfulWindows options schema batches answers) ↔
      SameRemainders options timeColumn := by
  rw [faithful_positions_iff positive]
  apply and_iff_left_of_imp
  intro same index bound
  have kept : KeepsTimes schema ([] ++ streamRows batches) := fun _ _ _ _ => rfl
  have exact := run_exact (fun _ _ => Iff.rfl) positive reaches batches
    (waits_initially options schema) stream.schemas stream.nonempty kept stream.timed
    stream.sorted returned
  have answer := (exact_answer_at exact).2 index bound
  simp only [List.nil_append] at answer
  rw [answer.calls]
  apply List.map_congr_left
  intro row member
  rw [expected_calls_eq, neighbours_of_remainders positive]
  intro other otherMember
  have isReceived : row ∈ streamRows (batches.take (index + 1)) :=
    List.mem_of_mem_filter (List.mem_of_mem_drop member)
  exact remainders_of_rows type cells stream.timed same (stream_rows_take _ _ otherMember)
    (stream_rows_take _ _ isReceived)

end Windows

def nanoColumn (times : List Int) : Column where
  type := .timestamp .nano
  cells := times.map fun time => some (.integer time)
  conforms := by
    intro cell member
    obtain ⟨time, _, rfl⟩ := List.mem_map.mp member
    rfl

theorem whole_seconds_faithful :
    ∃ answers final, handleAllWithCalls (fun _ => none) secondOptions
        [nanoBatch [(0, 1), (1000000000, 2), (3000000000, 3)]] {} = .ok answers final ∧
      FaithfulPositions secondOptions (nanoColumn [0, 1000000000, 3000000000]) ∧
      FaithfulWindows secondOptions nanoSchema
        [nanoBatch [(0, 1), (1000000000, 2), (3000000000, 3)]] answers := by
  have returned : ∃ answers final, handleAllWithCalls (fun _ => none) secondOptions
      [nanoBatch [(0, 1), (1000000000, 2), (3000000000, 3)]] {} = .ok answers final :=
    ⟨_, _, rfl⟩
  obtain ⟨answers, final, returned⟩ := returned
  have stream : TimedStream nanoSchema [nanoBatch [(0, 1), (1000000000, 2), (3000000000, 3)]] :=
    nano_stream (by simp) (by decide)
  have whole : ∀ index timestamp,
      timestampAt (nanoColumn [0, 1000000000, 3000000000]) .nano index = .ok timestamp →
      timestamp.tmod secondOptions.unitTimeSegment = 0 := by
    intro index timestamp isAt
    rcases index with _ | _ | _ | index
    · obtain rfl := Except.ok.inj isAt
      rfl
    · obtain rfl := Except.ok.inj isAt
      rfl
    · obtain rfl := Except.ok.inj isAt
      rfl
    · cases isAt
  have faithful := (@faithful_to_instants_iff secondOptions nanoSchema _ _ _ _
    (nanoColumn [0, 1000000000, 3000000000]) (by decide) (by decide) stream returned rfl rfl).mpr
    (by
      intro row other timestamp otherTimestamp atRow atOther
      rw [whole row timestamp atRow, whole other otherTimestamp atOther])
  exact ⟨answers, final, returned, faithful⟩

/-- Half a second apart two rows have one position, and a row a second and a half ahead takes
part in the derivative of a neighbourhood of one second. -/
theorem half_second_unfaithful :
    ∃ answers final, handleAllWithCalls (fun _ => none) secondOptions
        [nanoBatch [(0, 1), (500000000, 2), (1500000000, 3), (3000000000, 4)]] {} =
          .ok answers final ∧
      ¬FaithfulPositions secondOptions
        (nanoColumn [0, 500000000, 1500000000, 3000000000]) ∧
      ¬FaithfulWindows secondOptions nanoSchema
        [nanoBatch [(0, 1), (500000000, 2), (1500000000, 3), (3000000000, 4)]] answers := by
  have returned : ∃ answers final, handleAllWithCalls (fun _ => none) secondOptions
      [nanoBatch [(0, 1), (500000000, 2), (1500000000, 3), (3000000000, 4)]] {} =
        .ok answers final ∧ answers.length = 1 ∧
      (answers.head?.map fun answer => answer.2.map fun calls =>
        calls.map CalculatorCall.times) = some [[[0, 0, 1]], [[0, 0, 1]], [[0, 0, 1]]] :=
    ⟨_, _, rfl, rfl, rfl⟩
  obtain ⟨answers, final, returned, lengths, times⟩ := returned
  refine ⟨answers, final, returned, ?_, ?_⟩
  · intro faithful
    have apart := (faithful 0 1 0 0 0 500000000 rfl rfl rfl rfl).2
    exact apart (by decide) rfl
  · intro faithful
    have first := faithful 0 (by omega)
    rw [List.head?_eq_getElem?, List.getElem?_eq_getElem (by omega), Option.map_some,
      Option.some.injEq, first] at times
    revert times
    decide

end Exact

end StreamDataProcessor.Handlers.Derivative
