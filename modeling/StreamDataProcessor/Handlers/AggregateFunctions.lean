import StreamDataProcessor.Utils.ComputeUtils

/-!
# Aggregate functions

`aggregate_functions.cpp`. A column is dereferenced without a check, and so is the
index that `argMinMax` has for it.
-/

namespace StreamDataProcessor.Handlers

open Arrow Metadata Utils

set_option autoImplicit false

/-- `GetScalar` with an index that may be -1. -/
def getScalarAt (column : Column) (index : Int) : Outcome Scalar :=
  if index < 0 then .error (.undefined "an element before the first one is read")
  else column.getScalar index.toNat

def aggregatedColumn (data : RecordBatch) (columnName : String) : Outcome Column :=
  match data.getColumnByName columnName with
  | none => .error (.undefined "a null column is dereferenced")
  | some column => .ok column

/-- `FirstAggregateFunction` and `LastAggregateFunction`, which differ in the index. -/
def aggregateAt (choose : Int × Int → Int) (data : RecordBatch) (columnName : String) :
    Outcome Scalar := do
  let timeColumnName ← getTimeColumnNameMetadata data
  match data.getColumnByName timeColumnName with
  | none => fail .invalid s!"RecordBatch has not time column with name {timeColumnName}"
  | some tsColumn => do
      let indices ← argMinMax tsColumn
      let column ← aggregatedColumn data columnName
      getScalarAt column (choose indices)

def firstAggregateFunction (data : RecordBatch) (columnName : String) : Outcome Scalar :=
  aggregateAt Prod.fst data columnName

def lastAggregateFunction (data : RecordBatch) (columnName : String) : Outcome Scalar :=
  aggregateAt Prod.snd data columnName

def maxAggregateFunction (data : RecordBatch) (columnName : String) : Outcome Scalar := do
  let column ← aggregatedColumn data columnName
  let extremes ← minMax column.type column.cells
  return extremes.2

def meanAggregateFunction (data : RecordBatch) (columnName : String) : Outcome Scalar := do
  let column ← aggregatedColumn data columnName
  mean column.type column.cells

def minAggregateFunction (data : RecordBatch) (columnName : String) : Outcome Scalar := do
  let column ← aggregatedColumn data columnName
  let extremes ← minMax column.type column.cells
  return extremes.1

theorem integers_of_values {cells : List Scalar} {values : List Int}
    (full : cells = values.map fun value => some (.integer value)) : integers cells = values := by
  subst full
  induction values with
  | nil => rfl
  | cons value rest induction => simp [integers]

/-- On a column of times without nulls, the last row is one of the greatest time. -/
theorem last_of_full_times {data : RecordBatch} {timeColumnName : String} {tsColumn : Column}
    {unit : Arrow.TimeUnit} {values : List Int} {greatest : Int}
    (named : getTimeColumnNameMetadata data = .ok timeColumnName)
    (found : data.getColumnByName timeColumnName = some tsColumn)
    (typed : tsColumn.type = .timestamp unit)
    (full : tsColumn.cells = values.map fun value => some (.integer value))
    (maximal : values.max? = some greatest) :
    lastAggregateFunction data timeColumnName = .ok (some (.integer greatest)) := by
  have occurs : some (.integer greatest) ∈ tsColumn.cells := by
    rw [full]
    exact List.mem_map_of_mem (List.max?_mem maximal)
  have extremes : minMax (viewInt64 tsColumn) tsColumn.cells =
      .ok (values.min?.map .integer, some (.integer greatest)) := by
    simp only [viewInt64, typed, minMax, integerMinMax, integers_of_values full, maximal,
      Option.map_some]
  have located := (arg_loop_located (values.min?.map .integer) (some (.integer greatest)) []
    tsColumn.cells (-1) (-1) (.inl ⟨rfl, by simp⟩) (.inl ⟨rfl, by simp⟩)).2
  rw [List.nil_append, List.length_nil] at located
  rcases located with ⟨_, absent⟩ | ⟨index, own, cell, read, same⟩
  · have missing := absent _ occurs
    simp at missing
  · have isGreatest : cell = some (.integer greatest) := by
      have member := List.mem_of_getElem? read
      rw [full] at member
      obtain ⟨value, _, rfl⟩ := List.mem_map.mp member
      simpa using same
    have indices : argMinMax tsColumn =
        .ok (argLoop (values.min?.map .integer) (some (.integer greatest)) 0 (-1) (-1)
          tsColumn.cells) := by
      rw [argMinMax, extremes]
      rfl
    simp only [lastAggregateFunction, aggregateAt, named, found, indices, aggregatedColumn, bind,
      Except.bind, getScalarAt, own]
    rw [if_neg (by omega), Int.toNat_natCast, Column.getScalar, read, isGreatest]

end StreamDataProcessor.Handlers
