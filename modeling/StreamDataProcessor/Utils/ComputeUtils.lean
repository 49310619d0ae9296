import StreamDataProcessor.Arrow.Compute
import StreamDataProcessor.Foundation.BinarySearch
import StreamDataProcessor.Foundation.TwosComplement
import StreamDataProcessor.Metadata.Access
import Mathlib.Data.Int.ConditionallyCompleteOrder

/-!
# Sorting by a column and searching a time column

`compute_utils::sortByColumn` and `tsLowerBound`, with what they come to on a
schema whose metadata names a timestamp column: a stable sort of the rows, and a
cut of the rows by their seconds.
-/

namespace StreamDataProcessor.Utils

open Foundation Foundation.TwosComplement Arrow Metadata

set_option autoImplicit false

def sortByColumn (columnName : String) (source : RecordBatch) : Outcome RecordBatch :=
  match source.schema.fieldIndex columnName with
  | none => fail .keyError s!"No such column with name {columnName}"
  | some index => .ok (source.sortRows index)

/-- The loop of `argMinMax`, which goes on until it has both indices. -/
def argLoop (least greatest : Scalar) : Nat → Int → Int → List Scalar → Int × Int
  | _, argMin, argMax, [] => (argMin, argMax)
  | index, argMin, argMax, cell :: rest =>
      if argMin = -1 ∨ argMax = -1 then
        argLoop least greatest (index + 1) (if scalarEquals cell least then index else argMin)
          (if scalarEquals cell greatest then index else argMax) rest
      else (argMin, argMax)

/-- `View(int64())` of a timestamp array changes its type only. -/
def viewInt64 (array : Column) : DataType :=
  match array.type with
  | .timestamp _ => .int64
  | type => type

def argMinMax (array : Column) : Outcome (Int × Int) := do
  let (least, greatest) ← minMax (viewInt64 array) array.cells
  return argLoop least greatest 0 (-1) (-1) array.cells

def timestampAt (array : Column) (timeUnit : Arrow.TimeUnit) (index : Nat) : Outcome Int := do
  let scalar ← array.getScalar index
  let timestamp ← castTimestampScalar array.type scalar timeUnit
  return integerValue timestamp

/-- What 64 bits keep of a timestamp that was cast: a finer unit takes a product. -/
def keepTimestamp (type : DataType) (timeUnit : Arrow.TimeUnit) (timestamp : Int) : Int :=
  match type with
  | .timestamp own => if own.perSecond < timeUnit.perSecond then wrap64 timestamp else timestamp
  | _ => timestamp

def tsLowerBound (sortedTsArray : Column) (pred : Int → Bool) (timeUnit : Arrow.TimeUnit) :
    Outcome Nat :=
  BinarySearch.lowerBound (fun index => do
      let timestamp ← timestampAt sortedTsArray timeUnit index
      return pred (keepTimestamp sortedTsArray.type timeUnit timestamp))
    .diverges sortedTsArray.cells.length

/-- No unit is coarser than seconds. -/
@[simp] theorem keep_seconds (type : DataType) (timestamp : Int) :
    keepTimestamp type .second timestamp = timestamp := by
  cases type with
  | timestamp own => cases own <;> rfl
  | _ => rfl

theorem keep_of_fits {type : DataType} {timeUnit : Arrow.TimeUnit} {timestamp : Int}
    (fits : FitsInt64 timestamp) : keepTimestamp type timeUnit timestamp = timestamp := by
  unfold keepTimestamp
  cases type with
  | timestamp own => simp only [wrap_of_fits fits, ite_self]
  | _ => rfl

theorem ts_lower_bound_seconds (sortedTsArray : Column) (pred : Int → Bool) :
    tsLowerBound sortedTsArray pred .second =
      BinarySearch.lowerBound (fun index => do
          return pred (← timestampAt sortedTsArray .second index))
        .diverges sortedTsArray.cells.length := by
  simp only [tsLowerBound, keep_seconds]

/-- An index that `argMinMax` has for a value among the cells it has seen. -/
def Located (cells : List Scalar) (value : Scalar) (arg : Int) : Prop :=
  (arg = -1 ∧ ∀ cell ∈ cells, scalarEquals cell value = false) ∨
    ∃ index : Nat, arg = index ∧ ∃ cell, cells[index]? = some cell ∧ scalarEquals cell value = true

theorem located_append {earlier later : List Scalar} {value : Scalar} {arg : Int}
    (found : arg ≠ -1) (located : Located earlier value arg) :
    Located (earlier ++ later) value arg := by
  rcases located with ⟨missing, _⟩ | ⟨index, own, cell, read, same⟩
  · exact absurd missing found
  · have bound := (List.getElem?_eq_some_iff.mp read).1
    exact .inr ⟨index, own, cell, by rw [List.getElem?_append_left bound, read], same⟩

theorem located_next {earlier : List Scalar} {value : Scalar} {arg : Int} (cell : Scalar)
    (located : Located earlier value arg) :
    Located (earlier ++ [cell]) value
      (if scalarEquals cell value then (earlier.length : Int) else arg) := by
  split
  · next same =>
    exact .inr ⟨earlier.length, rfl, cell, by simp, same⟩
  · next other =>
    by_cases missing : arg = -1
    · rcases located with ⟨_, absent⟩ | ⟨index, own, _⟩
      · refine .inl ⟨missing, ?_⟩
        intro seen member
        rcases List.mem_append.mp member with before | last
        · exact absent seen before
        · rw [List.mem_singleton.mp last]
          simpa using other
      · omega
    · exact located_append missing located

theorem arg_loop_located (least greatest : Scalar) (earlier cells : List Scalar)
    (argMin argMax : Int) (first : Located earlier least argMin)
    (last : Located earlier greatest argMax) :
    Located (earlier ++ cells) least
        (argLoop least greatest earlier.length argMin argMax cells).1 ∧
      Located (earlier ++ cells) greatest
        (argLoop least greatest earlier.length argMin argMax cells).2 := by
  induction cells generalizing earlier argMin argMax with
  | nil =>
      rw [List.append_nil]
      exact ⟨first, last⟩
  | cons cell rest induction =>
      rw [argLoop]
      split
      · have later := induction (earlier ++ [cell]) _ _ (located_next cell first)
          (located_next cell last)
        rw [List.length_append, List.length_singleton, List.append_assoc] at later
        exact later
      · next found =>
        rw [not_or] at found
        exact ⟨located_append found.1 first, located_append found.2 last⟩

structure TimeColumn where
  name : String
  index : Nat
  unit : Arrow.TimeUnit

def timeColumn (schema : Schema) : Option TimeColumn := do
  let name ← schema.metadata.timeColumnName
  let index ← schema.fieldIndex name
  match schema.types[index]? with
  | some (.timestamp unit) => some ⟨name, index, unit⟩
  | _ => none

def rawTime (schema : Schema) (row : Row) : Int :=
  ((timeColumn schema).map fun time => integerValue (row.getD time.index none)).getD 0

def seconds (schema : Schema) (row : Row) : Int :=
  ((timeColumn schema).map fun time =>
    convertTimestamp time.unit .second (integerValue (row.getD time.index none))).getD 0

def Timed (schema : Schema) : Prop := (timeColumn schema).isSome

instance (schema : Schema) : Decidable (Timed schema) :=
  inferInstanceAs (Decidable (_ = true))

def batchSeconds (batch : RecordBatch) (row : Row) : Int := seconds batch.schema row

/-- Rows in the order of their seconds. -/
def Chronological (batch : RecordBatch) : Prop :=
  batch.rows.Pairwise fun earlier later => batchSeconds batch earlier ≤ batchSeconds batch later

theorem time_column_cases {schema : Schema} {time : TimeColumn}
    (found : timeColumn schema = some time) :
    schema.metadata.timeColumnName = some time.name ∧
      schema.fieldIndex time.name = some time.index ∧
      schema.types[time.index]? = some (.timestamp time.unit) := by
  unfold timeColumn at found
  simp only [Option.bind_eq_bind, Option.bind_eq_some_iff] at found
  obtain ⟨name, named, index, located, typed⟩ := found
  split at typed
  · next unit types =>
    rw [Option.some.injEq] at typed
    subst typed
    exact ⟨named, located, types⟩
  · cases typed

theorem timed_cases {schema : Schema} (timed : Timed schema) :
    ∃ time, timeColumn schema = some time :=
  Option.isSome_iff_exists.mp timed

theorem seconds_eq {schema : Schema} {time : TimeColumn} (found : timeColumn schema = some time)
    (row : Row) :
    seconds schema row = convertTimestamp time.unit .second (rawTime schema row) := by
  simp [seconds, rawTime, found]

theorem seconds_mono {schema : Schema} {earlier later : Row}
    (le : rawTime schema earlier ≤ rawTime schema later) :
    seconds schema earlier ≤ seconds schema later := by
  cases found : timeColumn schema with
  | none => simp [seconds, found]
  | some time =>
      rw [seconds_eq found, seconds_eq found]
      exact convert_timestamp_mono _ _ le

theorem seconds_nonneg {schema : Schema} {row : Row} (nonneg : 0 ≤ rawTime schema row) :
    0 ≤ seconds schema row := by
  cases found : timeColumn schema with
  | none => simp [seconds, found]
  | some time =>
      rw [seconds_eq found]
      exact convert_timestamp_nonneg _ _ nonneg

theorem time_column_name_of_timed {batch : RecordBatch} {time : TimeColumn}
    (found : timeColumn batch.schema = some time) :
    getTimeColumnNameMetadata batch = .ok time.name := by
  have named := (time_column_cases found).1
  have present : batch.schema.metadata ≠ {} := by
    intro empty
    rw [empty] at named
    cases named
  simp only [getTimeColumnNameMetadata, getColumnNameMetadata, if_neg present, named]

def convertedAt (sortedTsArray : Column) (unit timeUnit : Arrow.TimeUnit) (index : Nat) : Int :=
  convertTimestamp unit timeUnit (integerValue (sortedTsArray.cells.getD index none))

theorem timestamp_at_eq {sortedTsArray : Column} {unit : Arrow.TimeUnit}
    (typed : sortedTsArray.type = .timestamp unit) (timeUnit : Arrow.TimeUnit) {index : Nat}
    (bound : index < sortedTsArray.cells.length) :
    timestampAt sortedTsArray timeUnit index =
      .ok (convertedAt sortedTsArray unit timeUnit index) := by
  have admitted := sortedTsArray.conforms _ (List.getElem_mem bound)
  rw [typed] at admitted
  simp only [timestampAt, Column.getScalar, convertedAt, List.getElem?_eq_getElem bound,
    List.getD_eq_getElem?_getD, Option.getD_some, typed]
  generalize sortedTsArray.cells[index] = cell at admitted
  cases cell with
  | none =>
      have zero : convertTimestamp unit timeUnit 0 = 0 := by
        cases unit <;> cases timeUnit <;> rfl
      exact congrArg Except.ok zero.symm
  | some value =>
      cases value with
      | integer value => rfl
      | double value => cases admitted
      | string value => cases admitted
      | boolean value => cases admitted

/-- The column of a batch as the handlers read its times. -/
structure ReadsTimes (batch : RecordBatch) (column : Column) : Prop where
  length : column.cells.length = batch.rows.length
  read : ∀ index, (bound : index < batch.rows.length) →
    timestampAt column .second index = .ok (batchSeconds batch batch.rows[index])

theorem reads_times_of_timed {batch : RecordBatch} {time : TimeColumn}
    (found : timeColumn batch.schema = some time) :
    ∃ column, batch.getColumnByName time.name = some column ∧ ReadsTimes batch column := by
  obtain ⟨_, located, typed⟩ := time_column_cases found
  refine ⟨_, get_column_by_name_eq batch located typed, by simp, ?_⟩
  intro index bound
  rw [timestamp_at_eq rfl .second (by rwa [List.length_map]), convertedAt,
    List.getD_eq_getElem _ _ (by rwa [List.length_map]), List.getElem_map, batchSeconds, seconds,
    found]
  rfl

theorem ts_lower_bound_boundary {batch : RecordBatch} {column : Column}
    (reads : ReadsTimes batch column) (pred : Int → Bool) (nonempty : batch.rows ≠ []) :
    ∃ position, tsLowerBound column pred .second = .ok position ∧
      BinarySearch.Boundary
        (fun index => (batch.rows[index]?).any fun row => pred (batchSeconds batch row))
        batch.rows.length position := by
  rw [ts_lower_bound_seconds, reads.length]
  apply BinarySearch.lower_bound_boundary
  · intro index bound
    rw [reads.read index bound, List.getElem?_eq_getElem bound]
    rfl
  · exact List.length_pos_of_ne_nil nonempty

/-- Where the converted timestamps fit 64 bits, the search returns the first index whose
timestamp passes, or the length. A read outside of the array would have failed. -/
theorem ts_lower_bound_least {sortedTsArray : Column} {unit : Arrow.TimeUnit}
    (typed : sortedTsArray.type = .timestamp unit) (nonempty : sortedTsArray.cells ≠ [])
    (sorted : sortedTsArray.cells.Pairwise fun earlier later =>
      integerValue earlier ≤ integerValue later) {pred : Int → Bool}
    (monotone : ∀ earlier later, earlier ≤ later → pred earlier = true → pred later = true)
    (timeUnit : Arrow.TimeUnit) (fits : ∀ index, index < sortedTsArray.cells.length →
      FitsInt64 (convertedAt sortedTsArray unit timeUnit index)) :
    ∃ position, tsLowerBound sortedTsArray pred timeUnit = .ok position ∧
      position ≤ sortedTsArray.cells.length ∧
      ∀ index, index < sortedTsArray.cells.length →
        (pred (convertedAt sortedTsArray unit timeUnit index) = true ↔ position ≤ index) := by
  have answers : ∀ index, index < sortedTsArray.cells.length →
      (do
        let timestamp ← timestampAt sortedTsArray timeUnit index
        return pred (keepTimestamp sortedTsArray.type timeUnit timestamp) : Outcome Bool) =
        .ok (pred (convertedAt sortedTsArray unit timeUnit index)) := by
    intro index bound
    rw [timestamp_at_eq typed timeUnit bound]
    exact congrArg (fun timestamp => Except.ok (pred timestamp)) (keep_of_fits (fits index bound))
  obtain ⟨position, found, boundary⟩ := BinarySearch.lower_bound_boundary .diverges answers
    (List.length_pos_of_ne_nil nonempty)
  refine ⟨position, found, boundary.bound, ?_⟩
  intro index within
  refine BinarySearch.boundary_iff boundary ?_ within
  intro earlier later le bound
  apply monotone
  apply convert_timestamp_mono
  rcases Nat.lt_or_eq_of_le le with before | rfl
  · rw [List.getD_eq_getElem _ _ (by omega), List.getD_eq_getElem _ _ bound]
    exact List.pairwise_iff_getElem.mp sorted earlier later (by omega) bound before
  · exact Int.le_refl _

theorem first_late_second_found :
    ∃ position, tsLowerBound (Column.build (.timestamp .milli)
        [some (.integer 999), some (.integer 1000), some (.integer 2500)])
        (fun ts => decide (1 ≤ ts)) .second = .ok position ∧
      position ≤ 3 ∧ ∀ index, index < 3 →
        (decide (1 ≤ convertedAt (Column.build (.timestamp .milli)
          [some (.integer 999), some (.integer 1000), some (.integer 2500)]) .milli .second
          index) = true ↔ position ≤ index) :=
  ts_lower_bound_least rfl (by decide) (by decide)
    (fun earlier later le passed => decide_eq_true ((of_decide_eq_true passed).trans le)) .second
    (by decide)

def distantColumn : Column :=
  Column.build (.timestamp .second) [some (.integer 1), some (.integer 10000000000)]

/-- Both times pass, and the search returns the length. -/
theorem distant_second_wraps_around :
    tsLowerBound distantColumn (fun ts => decide (0 ≤ ts)) .nano = .ok 2 ∧
      (distantColumn.cells.Pairwise fun earlier later =>
        integerValue earlier ≤ integerValue later) ∧
      ∀ index, index < 2 →
        decide (0 ≤ convertedAt distantColumn .second .nano index) = true := by
  refine ⟨?_, ?_, ?_⟩
  · decide +kernel
  · decide
  · decide

/-- On rows in order, the search for the first time at or after a bound cuts the rows
into those before it and the others. -/
theorem ts_lower_bound_cuts {batch : RecordBatch} {column : Column}
    (reads : ReadsTimes batch column) (chronological : Chronological batch) (bound : Int)
    (nonempty : batch.rows ≠ []) :
    ∃ position, tsLowerBound column (fun ts => decide (ts ≥ bound)) .second = .ok position ∧
      position ≤ batch.rows.length ∧
      batch.rows.take position =
        batch.rows.filter (fun row => decide (batchSeconds batch row < bound)) ∧
      batch.rows.drop position =
        batch.rows.filter (fun row => decide (bound ≤ batchSeconds batch row)) := by
  obtain ⟨position, found, boundary⟩ :=
    ts_lower_bound_boundary reads (fun ts => decide (ts ≥ bound)) nonempty
  have sorted : batch.rows.Pairwise fun earlier later =>
      decide (batchSeconds batch earlier ≥ bound) = true →
        decide (batchSeconds batch later ≥ bound) = true := by
    apply chronological.imp
    intro earlier later le
    simp only [ge_iff_le, decide_eq_true_eq]
    intro passed
    exact Int.le_trans passed le
  obtain ⟨taken, dropped⟩ := BinarySearch.cut_at_boundary sorted boundary
  refine ⟨position, found, boundary.bound, ?_, dropped⟩
  rw [taken]
  apply List.filter_congr
  intro row _
  simp only [ge_iff_le]
  rw [← decide_not, decide_eq_decide]
  exact Int.not_le

theorem sort_by_time_column {batch : RecordBatch} {time : TimeColumn}
    (found : timeColumn batch.schema = some time) :
    sortByColumn time.name batch = .ok (batch.sortRows time.index) := by
  simp only [sortByColumn, (time_column_cases found).2.1]

def FullyTimed (schema : Schema) (rows : List Row) : Prop :=
  ∀ time, timeColumn schema = some time → ∀ row ∈ rows,
    ∃ value, row.getD time.index none = some (.integer value)

theorem sorts_before_iff_raw {schema : Schema} {time : TimeColumn} {rows : List Row}
    (found : timeColumn schema = some time) (full : FullyTimed schema rows) {left right : Row}
    (inLeft : left ∈ rows) (inRight : right ∈ rows) :
    sortsBefore (left.getD time.index none) (right.getD time.index none) = true ↔
      rawTime schema left ≤ rawTime schema right := by
  obtain ⟨first, leftCell⟩ := full time found left inLeft
  obtain ⟨second, rightCell⟩ := full time found right inRight
  simp only [rawTime, found, Option.map_some, Option.getD_some, leftCell, rightCell, sortsBefore,
    integerValue, decide_eq_true_eq]

theorem sort_rows_chronological {batch : RecordBatch} {time : TimeColumn}
    (found : timeColumn batch.schema = some time)
    (full : FullyTimed batch.schema batch.rows) :
    Chronological (batch.sortRows time.index) := by
  have keys := List.map_insertionSort
    (r := fun left right : Row =>
      sortsBefore (left.getD time.index none) (right.getD time.index none) = true)
    (s := fun left right : Int => left ≤ right) (rawTime batch.schema) batch.rows
    fun left inLeft right inRight => sorts_before_iff_raw found full inLeft inRight
  have sorted := List.pairwise_insertionSort (r := fun left right : Int => left ≤ right)
    (batch.rows.map (rawTime batch.schema))
  rw [← keys, List.pairwise_map] at sorted
  exact sorted.imp fun le => seconds_mono le

def cellTime : Scalar → WithTop Int
  | some (.integer value) => value
  | _ => ⊤

theorem sorts_before_iff_time {unit : Arrow.TimeUnit} {earlier later : Scalar}
    (first : (DataType.timestamp unit).admits earlier = true)
    (second : (DataType.timestamp unit).admits later = true) :
    sortsBefore earlier later = true ↔ cellTime earlier ≤ cellTime later := by
  cases earlier with
  | none =>
      cases later with
      | none => simp [sortsBefore, cellTime]
      | some value => cases value <;> simp_all [sortsBefore, cellTime, DataType.admits]
  | some own =>
      cases own <;> cases later with
      | none => simp_all [sortsBefore, cellTime, DataType.admits]
      | some value => cases value <;> simp_all [sortsBefore, cellTime, DataType.admits]

/-- The stable sort by a column of timestamps puts the rows in the order of their times. -/
theorem sort_rows_times {batch : RecordBatch} {index : Nat} {unit : Arrow.TimeUnit}
    (typed : batch.schema.types[index]? = some (.timestamp unit)) :
    (batch.sortRows index).rows.Pairwise fun earlier later =>
      cellTime (earlier.getD index none) ≤ cellTime (later.getD index none) := by
  have keys := List.map_insertionSort
    (r := fun left right : Row =>
      sortsBefore (left.getD index none) (right.getD index none) = true)
    (s := fun left right : WithTop Int => left ≤ right)
    (fun row => cellTime (row.getD index none)) batch.rows
    fun left inLeft right inRight => sorts_before_iff_time
      (row_conforms_cell (batch.conforms left inLeft) typed)
      (row_conforms_cell (batch.conforms right inRight) typed)
  have sorted := List.pairwise_insertionSort (r := fun left right : WithTop Int => left ≤ right)
    (batch.rows.map fun row => cellTime (row.getD index none))
  rw [← keys, List.pairwise_map] at sorted
  exact sorted

theorem sort_rows_of_sorted_integers {batch : RecordBatch} {index : Nat}
    (full : ∀ row ∈ batch.rows, ∃ value, row.getD index none = some (.integer value))
    (sorted : batch.rows.Pairwise fun earlier later =>
      integerValue (earlier.getD index none) ≤ integerValue (later.getD index none)) :
    batch.sortRows index = batch := by
  refine RecordBatch.ext_rows (show (batch.sortRows _).schema = batch.schema from rfl) ?_
  apply List.Pairwise.insertionSort_eq
  apply List.Pairwise.imp_of_mem _ sorted
  intro earlier later inEarlier inLater le
  obtain ⟨first, earlierCell⟩ := full earlier inEarlier
  obtain ⟨second, laterCell⟩ := full later inLater
  rw [earlierCell, laterCell] at le ⊢
  simpa only [sortsBefore, decide_eq_true_eq, integerValue] using le

theorem sort_rows_of_sorted {batch : RecordBatch} {time : TimeColumn}
    (found : timeColumn batch.schema = some time)
    (full : FullyTimed batch.schema batch.rows)
    (sorted : batch.rows.Pairwise fun earlier later =>
      rawTime batch.schema earlier ≤ rawTime batch.schema later) :
    batch.sortRows time.index = batch := by
  refine sort_rows_of_sorted_integers (full time found) (sorted.imp ?_)
  intro earlier later le
  simpa only [rawTime, found, Option.map_some, Option.getD_some] using le

theorem sort_rows_perm (batch : RecordBatch) (index : Nat) :
    List.Perm (batch.sortRows index).rows batch.rows := List.perm_insertionSort _ _

theorem sort_rows_ne_nil {batch : RecordBatch} (index : Nat) (nonempty : batch.rows ≠ []) :
    (batch.sortRows index).rows ≠ [] := by
  intro empty
  apply nonempty
  have perm := sort_rows_perm batch index
  rw [empty] at perm
  exact List.nil_perm.mp perm

end StreamDataProcessor.Utils
