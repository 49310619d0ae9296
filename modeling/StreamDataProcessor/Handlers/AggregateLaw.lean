import StreamDataProcessor.Handlers.AggregateCells

/-!
# When aggregation computes its aggregates

A call has to read the times, the measurement and the grouping columns of every group, to find
its names in the result, and to settle every aggregated column. The result is right just when
all of that goes well.
-/

namespace StreamDataProcessor.Handlers.Aggregate

open Foundation Foundation.Effect Foundation.Binary64 Arrow Metadata Utils

set_option autoImplicit false

def Valueless (aggregateFunction : AggregateFunctionEnumType) (batch : RecordBatch)
    (column : Column) : Prop :=
  match aggregateFunction with
  | .first => (∃ row, AtExtreme (· ≤ ·) batch row ∧ column.cells[row]? = some none) ∨
      ∀ row, ¬AtExtreme (· ≤ ·) batch row
  | .last => (∃ row, AtExtreme (· ≥ ·) batch row ∧ column.cells[row]? = some none) ∨
      ∀ row, ¬AtExtreme (· ≥ ·) batch row
  | _ => ∀ value, some value ∉ column.cells

/-- The first batch of the group has the column, and then every one has it, and each adds the
value of the function; or it lacks the column, and then no batch has a value. -/
def ColumnSettles (aggregateFunction : AggregateFunctionEnumType) (columnName : String)
    (groupFront : RecordBatch) (group : List RecordBatch) : Prop :=
  match groupFront.schema.fieldByName columnName with
  | none => ∀ batch ∈ group, ∀ column, batch.getColumnByName columnName = some column →
      Valueless aggregateFunction batch column
  | some field => buildable field.type = true ∧ ∀ batch ∈ group, ∃ column,
      batch.getColumnByName columnName = some column ∧
      Settles aggregateFunction field.type batch column

/-- An array has the values of a function over the batches of a group, in order. -/
def ArrayComputes (aggregateFunction : AggregateFunctionEnumType) (columnName : String)
    (group : List RecordBatch) (array : Column) : Prop :=
  List.Forall₂ (fun batch cell => Computes aggregateFunction batch columnName array.type cell)
    group array.cells

section Columns

variable {aggregateFunction : AggregateFunctionEnumType} {columnName : String}
  {groupFront : RecordBatch} {group : List RecordBatch}

theorem reads_null_iff {beyond : Int → Int → Prop} {batch : RecordBatch} {column : Column}
    {type : DataType} : ReadsAt beyond batch column type none ↔
      (∃ row, AtExtreme beyond batch row ∧ column.cells[row]? = some none) ∨
        ∀ row, ¬AtExtreme beyond batch row := by
  unfold ReadsAt
  apply or_congr
  · apply exists_congr
    intro row
    simp only [ne_eq, not_true_eq_false, false_implies, and_true]
  · exact and_iff_left rfl

theorem computes_null_iff {batch : RecordBatch} {type : DataType} :
    Computes aggregateFunction batch columnName type none ↔
      ∀ column, batch.getColumnByName columnName = some column →
        Valueless aggregateFunction batch column := by
  unfold Computes
  cases found : batch.getColumnByName columnName with
  | none => simp only [reduceCtorEq, false_implies, implies_true]
  | some column =>
      simp only [Option.some.injEq, forall_eq']
      cases aggregateFunction with
      | first => exact reads_null_iff
      | last => exact reads_null_iff
      | max => simp [ReadsExtreme, Valueless]
      | min => simp [ReadsExtreme, Valueless]
      | mean => simp [ReadsMean, Valueless]

theorem min_max_admitted {column : Column} {extremes : Scalar × Scalar}
    (returned : minMax column.type column.cells = .ok extremes) :
    column.type.admits extremes.1 = true ∧ column.type.admits extremes.2 = true := by
  have kernel := min_max_kernel returned
  cases type : column.type with
  | boolean =>
      rw [type] at returned
      cases returned
      cases booleans column.cells with
      | nil => exact ⟨rfl, rfl⟩
      | cons value rest => exact ⟨rfl, rfl⟩
  | float | double =>
      rw [type] at returned
      cases returned
      cases doubles column.cells with
      | nil => exact ⟨rfl, rfl⟩
      | cons value rest => exact ⟨rfl, rfl⟩
  | int8 | int16 | int32 | int64 | uint8 | uint16 | uint32 | uint64 =>
      rw [type] at returned
      cases returned
      unfold integerMinMax
      constructor
      · cases (integers column.cells).min? <;> rfl
      · cases (integers column.cells).max? <;> rfl
  | na | halfFloat | decimal | utf8 | timestamp unit | duration unit =>
      rw [type] at kernel
      cases kernel

theorem mean_admitted {column : Column} {value : Scalar}
    (returned : mean column.type column.cells = .ok value) :
    DataType.double.admits value = true := by
  rw [mean_eq (mean_kernel returned), Except.ok.injEq] at returned
  subst returned
  cases meanOf column.cells <;> rfl

theorem aggregate_admitted {batch : RecordBatch} {column : Column} {value : Scalar}
    (found : batch.getColumnByName columnName = some column)
    (returned : aggregateFunction.aggregate batch columnName = .ok value) :
    (aggregateFunction.resultType column.type).admits value = true := by
  have isColumn : aggregatedColumn batch columnName = .ok column := by
    rw [aggregatedColumn, found]
  have ofCell : ∀ choose : Int × Int → Int, aggregateAt choose batch columnName = .ok value →
      column.type.admits value = true := by
    intro choose chosen
    obtain ⟨_, _, own, _, _, isOwn, _, read⟩ := aggregate_at_returns_iff.mp chosen
    obtain rfl := Option.some.inj (found.symm.trans isOwn)
    exact column.conforms _ (List.mem_of_getElem? read)
  cases aggregateFunction with
  | first => exact ofCell _ returned
  | last => exact ofCell _ returned
  | max =>
      obtain ⟨own, isOwn, returned⟩ := except_bind_ok_cases returned
      obtain rfl := Except.ok.inj (isColumn.symm.trans isOwn)
      obtain ⟨extremes, ranged, returned⟩ := except_bind_ok_cases returned
      cases returned
      exact (min_max_admitted ranged).2
  | min =>
      obtain ⟨own, isOwn, returned⟩ := except_bind_ok_cases returned
      obtain rfl := Except.ok.inj (isColumn.symm.trans isOwn)
      obtain ⟨extremes, ranged, returned⟩ := except_bind_ok_cases returned
      cases returned
      exact (min_max_admitted ranged).1
  | mean =>
      obtain ⟨own, isOwn, returned⟩ := except_bind_ok_cases returned
      exact mean_admitted returned

theorem aggregate_cell_ok {type : DataType} {batch : RecordBatch} {cell : Scalar}
    (returned : aggregateCell aggregateFunction columnName type batch = .ok cell) :
    (∃ column, batch.getColumnByName columnName = some column) ∧ type.admits cell = true := by
  obtain ⟨value, aggregated, returned⟩ := except_bind_ok_cases returned
  obtain ⟨column, isColumn, appended⟩ := except_bind_ok_cases returned
  have found := aggregated_column_ok isColumn
  exact ⟨⟨column, found⟩, append_admitted (aggregate_admitted found aggregated) appended⟩

/-- An aggregated column has the values of its function just when it settles. -/
theorem column_settles_iff :
    (∃ array, aggregate groupFront group columnName aggregateFunction = .ok array ∧
        ArrayComputes aggregateFunction columnName group array) ↔
      ColumnSettles aggregateFunction columnName groupFront group := by
  unfold aggregate ColumnSettles ArrayComputes
  cases groupFront.schema.fieldByName columnName with
  | none =>
      simp only [Except.ok.injEq, exists_eq_left']
      rw [build_cells (by
        intro cell member
        obtain ⟨_, _, rfl⟩ := List.mem_map.mp member
        rfl), List.forall₂_map_right_iff, List.forall₂_same]
      apply forall_congr'
      intro batch
      apply imp_congr_right
      intro _
      exact computes_null_iff
  | some field =>
      dsimp only
      by_cases built : buildable field.type = true
      · rw [if_pos built]
        simp only [built, true_and]
        have cells : (∀ batch ∈ group, ∃ column,
            batch.getColumnByName columnName = some column ∧
              Settles aggregateFunction field.type batch column) ↔
            ∀ batch ∈ group, ∃ cell,
              aggregateCell aggregateFunction columnName field.type batch = .ok cell ∧
                Computes aggregateFunction batch columnName field.type cell := by
          apply forall_congr'
          intro batch
          apply imp_congr_right
          intro _
          constructor
          · rintro ⟨column, found, settles⟩
            exact (cell_settles_iff found built).mpr settles
          · rintro ⟨cell, returned, computes⟩
            obtain ⟨⟨column, found⟩, _⟩ := aggregate_cell_ok returned
            exact ⟨column, found, (cell_settles_iff found built).mp ⟨cell, returned, computes⟩⟩
        rw [cells, ← map_m_related_iff]
        have same : ∀ cells, group.mapM (aggregateCell aggregateFunction columnName field.type) =
            .ok cells → (Column.build field.type cells).cells = cells := by
          intro cells converted
          apply build_cells
          intro cell member
          obtain ⟨batch, _, returned⟩ := mem_of_map_m converted member
          exact (aggregate_cell_ok returned).2
        constructor
        · rintro ⟨array, returned, computes⟩
          obtain ⟨cells, converted, returned⟩ := except_bind_ok_cases returned
          cases returned
          rw [same cells converted] at computes
          exact ⟨cells, converted, computes⟩
        · rintro ⟨cells, converted, computes⟩
          refine ⟨Column.build field.type cells, by rw [converted]; rfl, ?_⟩
          rw [same cells converted]
          exact computes
      · rw [if_neg built]
        constructor
        · rintro ⟨array, returned, _⟩
          cases returned
        · rintro ⟨isBuilt, _⟩
          exact absurd isBuilt built

end Columns

end StreamDataProcessor.Handlers.Aggregate
