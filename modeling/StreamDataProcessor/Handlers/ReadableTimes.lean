import StreamDataProcessor.Foundation.Attempts
import StreamDataProcessor.Utils.ComputeUtils

/-!
# Times that can be read

A time column can be read where its type casts to a timestamp, or where its cells are
all null. Searching such a column does not fail.
-/

namespace StreamDataProcessor.Handlers

open Foundation.Effect Arrow Metadata Utils

set_option autoImplicit false

def IsStatus (fault : Fault) : Prop := ∃ status, fault = .status status

/-- The types whose values castTimestampScalar takes. -/
def castsToTimestamp : DataType → Bool
  | .timestamp _ => true
  | .uint8 | .int8 | .uint16 | .int16 | .uint32 | .int32 | .uint64 | .int64 => true
  | _ => false

/-- The types whose values the library parses or truncates to a timestamp. -/
def parsesTimes : DataType → Bool
  | .utf8 | .halfFloat | .float | .double => true
  | _ => false

/-- The time column of the batch holds neither text nor floating-point numbers. -/
def TimesUnparsed (batch : RecordBatch) : Prop :=
  ∀ name column, getTimeColumnNameMetadata batch = .ok name →
    batch.getColumnByName name = some column → parsesTimes column.type = false

/-- The cells of the column can be read as times, since its type allows it or since they
are all null. -/
def CastableColumn (column : Column) : Prop :=
  castsToTimestamp column.type = true ∨ ∀ cell ∈ column.cells, cell = none

structure Searchable (batch : RecordBatch) : Prop where
  nonempty : batch.rows ≠ []
  times : ∃ name column, getTimeColumnNameMetadata batch = .ok name ∧
    batch.getColumnByName name = some column ∧ CastableColumn column

section Times

theorem cast_timestamp_ok_iff {type : DataType} {cell : Scalar} (admits : type.admits cell = true)
    (unit : Arrow.TimeUnit) :
    (∃ timestamp, castTimestampScalar type cell unit = .ok timestamp) ↔
      castsToTimestamp type = true ∨ cell = none := by
  cases cell with
  | none => simp [castTimestampScalar]
  | some value =>
      cases type <;> cases value <;>
        simp_all [castTimestampScalar, castsToTimestamp, DataType.admits, fail]

theorem timestamp_of_castable {column : Column} (castable : CastableColumn column)
    (unit : Arrow.TimeUnit) {index : Nat} (bound : index < column.cells.length) :
    ∃ timestamp, timestampAt column unit index = .ok timestamp := by
  obtain ⟨cell, isCell⟩ : ∃ cell, column.cells[index]? = some cell :=
    ⟨_, List.getElem?_eq_getElem bound⟩
  have member := List.mem_of_getElem? isCell
  have casts := (cast_timestamp_ok_iff (column.conforms cell member) unit).mpr
    (castable.imp id fun null => null cell member)
  obtain ⟨timestamp, casts⟩ := casts
  simp only [timestampAt, Column.getScalar, isCell, casts, bind, Except.bind]
  exact ⟨_, rfl⟩

/-- The search among castable times returns, and stops before the end where the last time
passes the test. -/
theorem search_of_castable {column : Column} (castable : CastableColumn column)
    (pred : Int → Bool) (nonempty : column.cells ≠ []) :
    ∃ position, tsLowerBound column pred .second = .ok position ∧
      position ≤ column.cells.length ∧
      ∀ last, timestampAt column .second (column.cells.length - 1) = .ok last → pred last = true →
        position < column.cells.length := by
  rw [ts_lower_bound_seconds]
  have answers : ∀ index < column.cells.length,
      (do return pred (← timestampAt column .second index) : Outcome Bool) =
        .ok ((timestampAt column .second index).toOption.any pred) := by
    intro index bound
    obtain ⟨timestamp, read⟩ := timestamp_of_castable castable .second bound
    rw [read]
    rfl
  have some_cell := List.length_pos_of_ne_nil nonempty
  obtain ⟨position, found, boundary⟩ :=
    Foundation.BinarySearch.lower_bound_boundary .diverges answers some_cell
  refine ⟨position, found, boundary.bound, ?_⟩
  intro last read passes
  by_contra beyond
  have atEnd : position = column.cells.length := Nat.le_antisymm boundary.bound (by omega)
  have fails := boundary.fails (by omega)
  rw [atEnd, read] at fails
  simp [Except.toOption, passes] at fails

/-- The column of a batch of some of the rows. -/
theorem column_within {left right : RecordBatch} (schema : left.schema = right.schema)
    (rows : left.rows ⊆ right.rows) {name : String} {column : Column}
    (found : right.getColumnByName name = some column) :
    ∃ own, left.getColumnByName name = some own ∧ own.type = column.type ∧
      own.cells ⊆ column.cells ∧ own.cells.length = left.rows.length := by
  obtain ⟨cells, typed⟩ := get_column_by_name_cells found
  rw [← schema] at cells typed
  cases located : left.schema.fieldIndex name with
  | none =>
      rw [located] at typed
      cases typed
  | some index =>
      rw [located, Option.bind_some] at typed
      have cell : left.schema.cell name = fun row => row.getD index none := by
        funext row
        rw [Schema.cell, located, Option.map_some, Option.getD_some]
      refine ⟨_, get_column_by_name_eq left located typed, rfl, ?_, List.length_map _⟩
      rw [cells, cell]
      exact List.map_subset _ rows

theorem castable_within {own column : Column} (type : own.type = column.type)
    (cells : own.cells ⊆ column.cells) (castable : CastableColumn column) :
    CastableColumn own := by
  rw [CastableColumn, type]
  exact castable.imp id fun null cell member => null cell (cells member)

theorem searchable_within {left right : RecordBatch} (schema : left.schema = right.schema)
    (rows : left.rows ⊆ right.rows) (nonempty : left.rows ≠ []) (searchable : Searchable right) :
    Searchable left := by
  obtain ⟨name, column, named, found, castable⟩ := searchable.times
  obtain ⟨own, ownFound, type, cells, _⟩ := column_within schema rows found
  refine ⟨nonempty, name, own, ?_, ownFound, castable_within type cells castable⟩
  rw [getTimeColumnNameMetadata, schema]
  exact named

theorem slice_from_subset (batch : RecordBatch) (offset : Nat) :
    (batch.sliceFrom offset).rows ⊆ batch.rows := List.drop_subset _ _

theorem slice_subset (batch : RecordBatch) (offset length : Nat) :
    (batch.slice offset length).rows ⊆ batch.rows :=
  fun _ member => List.mem_of_mem_drop (List.mem_of_mem_take member)

theorem sorted_null_first (batch : RecordBatch) (index : Nat)
    (first : ∀ row, (batch.sortRows index).rows.head? = some row → row.getD index none = none) :
    ∀ row ∈ (batch.sortRows index).rows, row.getD index none = none := by
  revert first
  simp only [RecordBatch.sortRows]
  induction batch.rows with
  | nil => simp
  | cons row rest induction =>
      intro first
      rw [List.insertionSort_cons] at first ⊢
      cases sorted : rest.insertionSort (fun left right =>
          sortsBefore (left.getD index none) (right.getD index none) = true) with
      | nil =>
          rw [sorted] at first
          simpa using first
      | cons head tail =>
          rw [sorted, List.orderedInsert_cons] at first
          rw [sorted] at induction
          rw [List.orderedInsert_cons]
          split
          · next before =>
            rw [if_pos before] at first
            have rowNull := first row rfl
            rw [rowNull] at before
            have headNull : head.getD index none = none := by
              cases cell : head.getD index none with
              | none => rfl
              | some value =>
                  rw [cell] at before
                  cases before
            intro other member
            rcases List.mem_cons.mp member with rfl | inRest
            · exact rowNull
            · apply induction _ other inRest
              intro first isFirst
              cases isFirst
              exact headNull
          · next after =>
            rw [if_neg after] at first
            have headNull := first head rfl
            rw [headNull] at after
            exact absurd (by cases row.getD index none <;> rfl) after

theorem sort_by_column_of_ok {batch sorted : RecordBatch} {name : String}
    (sorts : sortByColumn name batch = .ok sorted) :
    ∃ index, batch.schema.fieldIndex name = some index ∧ sorted = batch.sortRows index := by
  unfold sortByColumn at sorts
  split at sorts
  · cases sorts
  · next index located => exact ⟨index, located, (Except.ok.inj sorts).symm⟩

end Times

end StreamDataProcessor.Handlers
