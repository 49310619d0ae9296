import StreamDataProcessor.Handlers.AggregateHandler
import Mathlib.Data.List.Dedup
import Mathlib.Data.List.ReduceOption

/-!
# The shape of an aggregated batch

The fields of a result are taken from the batches of the whole call, its arrays from those
of one group. Whether they fit is a matter of the schemas that come in.
-/

namespace StreamDataProcessor.Handlers.Aggregate

open Foundation.Effect Arrow Metadata Utils

set_option autoImplicit false

/-- One array for each field, of its type, and a cell for each batch of the group. -/
structure RawBatch.WellFormed (raw : RawBatch) (groupSize : Nat) : Prop where
  types : raw.schema.types = raw.arrays.map Column.type
  lengths : ∀ array ∈ raw.arrays, array.cells.length = groupSize

def timeTypeOf (batch : RecordBatch) : Option DataType :=
  (batch.schema.metadata.timeColumnName.bind batch.getColumnByName).map Column.type

def fieldType (batch : RecordBatch) (name : String) : Option DataType :=
  (batch.schema.fieldByName name).map Field.type

def firstType (recordBatches : List RecordBatch) (name : String) : DataType :=
  ((recordBatches.findSome? fun recordBatch => recordBatch.getColumnByName name).map
    Column.type).getD .na

/-- The first batch of a group agrees with the batches of the call on the types of the columns
that results are made of. -/
structure Agrees (options : AggregateOptions) (front : RecordBatch)
    (recordBatches : List RecordBatch) (groupFront : RecordBatch) : Prop where
  time : timeTypeOf groupFront = timeTypeOf front
  grouping : ∀ timeColumnName, front.schema.metadata.timeColumnName = some timeColumnName →
    ∀ name ∈ groupingColumnsOf groupFront timeColumnName,
      fieldType front name = fieldType groupFront name
  aggregated : ∀ entry ∈ options.aggregateColumns, entry.2 ≠ [] →
    (fieldType groupFront entry.1).getD .na = firstType recordBatches entry.1

section Arrays

theorem build_length (type : DataType) (cells : List Scalar) :
    (Column.build type cells).cells.length = cells.length := List.length_map _

structure Fills (type : DataType) (group : List RecordBatch) (array : Column) : Prop where
  type : array.type = type
  length : array.cells.length = group.length

theorem fills_of_map_m {type : DataType} {group : List RecordBatch} {array : Column}
    {cell : RecordBatch → Outcome Scalar}
    (returned : (do let cells ← group.mapM cell; return Column.build type cells) = .ok array) :
    Fills type group array := by
  obtain ⟨cells, converted, returned⟩ := except_bind_ok_cases returned
  cases returned
  exact ⟨rfl, (build_length _ _).trans (map_m_ok_iff.mp converted).length_eq.symm⟩

theorem aggregated_column_ok {batch : RecordBatch} {name : String} {column : Column}
    (returned : aggregatedColumn batch name = .ok column) :
    batch.getColumnByName name = some column := by
  unfold aggregatedColumn at returned
  split at returned
  · cases returned
  · next found =>
    rw [found, Except.ok.inj returned]

theorem time_column_name_ok {batch : RecordBatch} {name : String}
    (returned : getTimeColumnNameMetadata batch = .ok name) :
    batch.schema.metadata.timeColumnName = some name := column_name_of_ok returned

theorem aggregate_fills {groupFront : RecordBatch} {group : List RecordBatch}
    {columnName : String} {aggregateFunction : AggregateFunctionEnumType} {array : Column}
    (returned : aggregate groupFront group columnName aggregateFunction = .ok array) :
    Fills ((fieldType groupFront columnName).getD .na) group array := by
  unfold aggregate at returned
  unfold fieldType
  split at returned
  · next missing =>
    cases returned
    rw [missing]
    exact ⟨rfl, by rw [build_length, List.length_map]⟩
  · next field found =>
    rw [found]
    split at returned
    · exact fills_of_map_m returned
    · cases returned

theorem time_column_fills {rule : AggregateCase} {groupFront : RecordBatch}
    {group : List RecordBatch} {array : Column}
    (returned : aggregateTimeColumn rule groupFront group = .ok array) :
    ∃ type, timeTypeOf groupFront = some type ∧ Fills type group array := by
  unfold aggregateTimeColumn at returned
  obtain ⟨name, named, returned⟩ := except_bind_ok_cases returned
  obtain ⟨column, found, returned⟩ := except_bind_ok_cases returned
  refine ⟨column.type, ?_, fills_of_map_m returned⟩
  rw [timeTypeOf, time_column_name_ok named, Option.bind_some, aggregated_column_ok found,
    Option.map_some]

theorem column_type (batch : RecordBatch) (name : String) :
    (batch.getColumnByName name).map Column.type = fieldType batch name := by
  unfold fieldType Schema.fieldByName
  cases located : batch.schema.fieldIndex name with
  | none => rw [get_column_by_name_none batch located, Option.map_none, Option.bind_none,
      Option.map_none]
  | some index =>
      obtain ⟨type, typed⟩ := field_index_bound located
      rw [get_column_by_name_eq batch located typed, Option.map_some, Option.bind_some]
      rw [Schema.types, List.getElem?_map] at typed
      exact typed.symm

theorem column_length {batch : RecordBatch} {name : String} {column : Column}
    (found : batch.getColumnByName name = some column) :
    column.cells.length = batch.rows.length := by
  rw [(get_column_by_name_cells found).1, List.length_map]

theorem get_scalar_bound {column : Column} {row : Nat} {value : Scalar}
    (returned : column.getScalar row = .ok value) : row < column.cells.length := by
  unfold Column.getScalar at returned
  split at returned
  · next cell found => exact (List.getElem?_eq_some_iff.mp found).1
  · cases returned

theorem aggregate_at_rows {choose : Int × Int → Int} {batch : RecordBatch} {name : String}
    {value : Scalar} (returned : aggregateAt choose batch name = .ok value) :
    0 < batch.rows.length := by
  unfold aggregateAt at returned
  obtain ⟨timeColumnName, _, returned⟩ := except_bind_ok_cases returned
  split at returned
  · cases returned
  · obtain ⟨indices, _, returned⟩ := except_bind_ok_cases returned
    obtain ⟨column, found, returned⟩ := except_bind_ok_cases returned
    have length := column_length (aggregated_column_ok found)
    unfold getScalarAt at returned
    split at returned
    · cases returned
    · have bound := get_scalar_bound returned
      omega

/-- The index that a function reads a time at; times have no least, greatest or mean one. -/
def rowChoice : AggregateFunctionEnumType → Option (Int × Int → Int)
  | .first => some Prod.fst
  | .last => some Prod.snd
  | _ => none

theorem aggregate_row_choice {aggregateFunction : AggregateFunctionEnumType}
    {choose : Int × Int → Int} (chosen : rowChoice aggregateFunction = some choose)
    (batch : RecordBatch) (columnName : String) :
    aggregateFunction.aggregate batch columnName = aggregateAt choose batch columnName := by
  cases aggregateFunction <;> cases chosen <;> rfl

theorem time_cell_choice {aggregateFunction : AggregateFunctionEnumType} {name : String}
    {batch : RecordBatch} {column : Column} {cell : Scalar}
    (found : batch.getColumnByName name = some column)
    (returned : aggregateTimeCell aggregateFunction name column.type batch = .ok cell) :
    isTimestampType column.type = true ∧ ∃ choose, rowChoice aggregateFunction = some choose := by
  unfold aggregateTimeCell at returned
  obtain ⟨ts, aggregated, returned⟩ := except_bind_ok_cases returned
  obtain ⟨own, _, returned⟩ := except_bind_ok_cases returned
  cases type : column.type with
  | timestamp unit =>
      refine ⟨rfl, ?_⟩
      have read : aggregatedColumn batch name = .ok column := by
        rw [aggregatedColumn, found]
      cases aggregateFunction with
      | first => exact ⟨_, rfl⟩
      | last => exact ⟨_, rfl⟩
      | max =>
          simp only [AggregateFunctionEnumType.aggregate, maxAggregateFunction, read, type,
            minMax, fail, bind, Except.bind, reduceCtorEq] at aggregated
      | min =>
          simp only [AggregateFunctionEnumType.aggregate, minAggregateFunction, read, type,
            minMax, fail, bind, Except.bind, reduceCtorEq] at aggregated
      | mean =>
          simp only [AggregateFunctionEnumType.aggregate, meanAggregateFunction, read, type,
            mean, fail, bind, Except.bind, reduceCtorEq] at aggregated
  | _ =>
      rw [type] at returned
      cases returned

theorem time_cell_rows {aggregateFunction : AggregateFunctionEnumType} {name : String}
    {batch : RecordBatch} {column : Column} {cell : Scalar}
    (found : batch.getColumnByName name = some column)
    (returned : aggregateTimeCell aggregateFunction name column.type batch = .ok cell) :
    0 < batch.rows.length := by
  obtain ⟨_, choose, chosen⟩ := time_cell_choice found returned
  obtain ⟨ts, aggregated, _⟩ := except_bind_ok_cases returned
  rw [aggregate_row_choice chosen] at aggregated
  exact aggregate_at_rows aggregated

theorem group_front_rows {rule : AggregateCase} {groupFront : RecordBatch}
    {rest : List RecordBatch} {array : Column}
    (returned : aggregateTimeColumn rule groupFront (groupFront :: rest) = .ok array) :
    0 < groupFront.rows.length := by
  unfold aggregateTimeColumn at returned
  obtain ⟨name, _, returned⟩ := except_bind_ok_cases returned
  obtain ⟨column, found, returned⟩ := except_bind_ok_cases returned
  obtain ⟨cells, converted, _⟩ := except_bind_ok_cases returned
  cases map_m_ok_iff.mp converted with
  | cons first _ => exact time_cell_rows (aggregated_column_ok found) first

theorem grouping_column_fills {groupFront : RecordBatch} {group : List RecordBatch}
    {name : String} {array : Column} (filled : 0 < groupFront.rows.length)
    (made : fillGroupingColumn groupFront group name = some array) :
    ∃ type, fieldType groupFront name = some type ∧ Fills type group array := by
  obtain ⟨column, found, made⟩ := Option.map_eq_some_iff.mp made
  subst made
  refine ⟨column.type, by rw [← column_type, found, Option.map_some], rfl, ?_⟩
  have length := column_length found
  rw [build_length, List.length_flatMap]
  simp only [List.length_take]
  rw [List.map_const', List.sum_replicate_nat]
  rw [show min 1 column.cells.length = 1 by omega, Nat.mul_one]

theorem measurement_column_fills {renderScalar : DataType → Value → String}
    {group : List RecordBatch} {name : String} {array : Column}
    (returned : fillMeasurementColumn renderScalar group name = .ok array) :
    Fills .utf8 group array := fills_of_map_m returned

end Arrays

section Segments

variable {Item Result : Type}

/-- What is read of every item is as long as what is read of those that have it, and equal to
it, only if every item has it. -/
theorem segments_eq_iff {found : Item → Option Result} {read : Item → Result}
    {items : List Item} {tail otherTail : List Result}
    (count : tail.length = otherTail.length) :
    items.filterMap found ++ tail = items.map read ++ otherTail ↔
      (∀ item ∈ items, found item = some (read item)) ∧ tail = otherTail := by
  induction items with
  | nil => simp
  | cons item rest induction =>
      cases present : found item with
      | some result =>
          rw [List.filterMap_cons_some present, List.map_cons, List.cons_append, List.cons_append,
            List.cons.injEq, induction, List.forall_mem_cons, present, Option.some.injEq, and_assoc]
      | none =>
          rw [List.filterMap_cons_none present, List.forall_mem_cons, present]
          constructor
          · intro same
            have lengths := congrArg List.length same
            have bound := List.length_filterMap_le found rest
            simp only [List.length_append, List.length_map, List.length_cons] at lengths
            omega
          · intro both
            cases both.1.1

end Segments

theorem set_metadata_ok {raw after : RawBatch} {set : RecordBatch → Outcome RecordBatch}
    (returned : raw.setMetadata set = .ok after) :
    after.schema.types = raw.schema.types ∧ after.arrays = raw.arrays := by
  obtain ⟨written, _, returned⟩ := except_bind_ok_cases returned
  cases returned
  refine ⟨?_, rfl⟩
  unfold Schema.types
  rw [List.map_map]
  exact (List.map_map (l := raw.schema.fields.zipIdx) (f := Prod.fst) (g := Field.type)).symm.trans
    (by rw [List.zipIdx_map_fst])

def casesOf (options : AggregateOptions) : List (String × AggregateCase) :=
  options.aggregateColumns.flatMap fun (columnName, aggregateCases) =>
    aggregateCases.map fun aggregateCase => (columnName, aggregateCase)

theorem mem_cases_of {options : AggregateOptions} {columnName : String}
    {aggregateCase : AggregateCase} : (columnName, aggregateCase) ∈ casesOf options ↔
      ∃ aggregateCases, (columnName, aggregateCases) ∈ options.aggregateColumns ∧
        aggregateCase ∈ aggregateCases := by
  unfold casesOf
  rw [List.mem_flatMap]
  constructor
  · rintro ⟨⟨name, aggregateCases⟩, listed, member⟩
    obtain ⟨own, inCases, same⟩ := List.mem_map.mp member
    cases same
    exact ⟨aggregateCases, listed, inCases⟩
  · rintro ⟨aggregateCases, listed, inCases⟩
    exact ⟨(columnName, aggregateCases), listed, List.mem_map_of_mem inCases⟩

theorem create_result_schema_types {options : AggregateOptions} {front : RecordBatch}
    {recordBatches : List RecordBatch} {groupingColumns : List String}
    {explicitMeasurement : Option String} {timeColumnName : String} {fields : List Field}
    (returned : createResultSchema options front recordBatches groupingColumns
      explicitMeasurement timeColumnName = .ok fields) :
    ∃ timeType, fieldType front timeColumnName = some timeType ∧
      fields.map Field.type = timeType :: (explicitMeasurement.toList.map (fun _ => .utf8) ++
        groupingColumns.filterMap (fieldType front) ++
        (casesOf options).map fun entry => firstType recordBatches entry.1) := by
  unfold createResultSchema at returned
  obtain ⟨timeColumn, found, returned⟩ := except_bind_ok_cases returned
  cases returned
  refine ⟨timeColumn.type, ?_, ?_⟩
  · rw [← column_type, aggregated_column_ok found, Option.map_some]
  · rw [List.map_cons, List.map_append, List.map_append, List.map_map, List.map_filterMap]
    congr 2
    rw [List.map_flatMap, casesOf, List.map_flatMap]
    congr 1
    funext entry
    rw [List.map_map, List.map_map]
    rfl

theorem fills_types {group : List RecordBatch} {types : List DataType} {arrays : List Column}
    (fills : List.Forall₂ (Fills · group ·) types arrays) : arrays.map Column.type = types := by
  induction fills with
  | nil => rfl
  | cons head _ induction => rw [List.map_cons, head.type, induction]

theorem fills_lengths {group : List RecordBatch} {types : List DataType} {arrays : List Column}
    (fills : List.Forall₂ (Fills · group ·) types arrays) :
    ∀ array ∈ arrays, array.cells.length = group.length := by
  induction fills with
  | nil => exact fun _ member => by cases member
  | cons head _ induction => exact List.forall_mem_cons.mpr ⟨head.length, induction⟩

theorem grouping_columns_fill {groupFront : RecordBatch} {group : List RecordBatch}
    {names : List String} (filled : 0 < groupFront.rows.length)
    (present : ∀ name ∈ names, (fillGroupingColumn groupFront group name).isSome) :
    List.Forall₂ (Fills · group ·) (names.map fun name => (fieldType groupFront name).getD .na)
      (names.map (fillGroupingColumn groupFront group)).reduceOption := by
  induction names with
  | nil => exact .nil
  | cons name rest induction =>
      rw [List.forall_mem_cons] at present
      obtain ⟨array, made⟩ := Option.isSome_iff_exists.mp present.1
      obtain ⟨type, typed, fills⟩ := grouping_column_fills filled made
      rw [List.map_cons, List.map_cons, made, List.reduceOption_cons_of_some, typed, Option.getD_some]
      exact .cons fills (induction present.2)

structure Built (options : AggregateOptions) (front : RecordBatch)
    (recordBatches group : List RecordBatch) (groupFront : RecordBatch) (raw : RawBatch)
    (timeColumnName : String) (measurements : List String) (frontTime groupTime : DataType) :
    Prop where
  named : front.schema.metadata.timeColumnName = some timeColumnName
  frontTyped : timeTypeOf front = some frontTime
  groupTyped : timeTypeOf groupFront = some groupTime
  present : ∀ name ∈ groupingColumnsOf groupFront timeColumnName,
    ∃ type, fieldType groupFront name = some type
  types : raw.schema.types = frontTime :: (measurements.map (fun _ => .utf8) ++
    (groupingColumnsOf groupFront timeColumnName).filterMap (fieldType front) ++
    (casesOf options).map fun entry => firstType recordBatches entry.1)
  arrays : List.Forall₂ (Fills · group ·)
    (groupTime :: (measurements.map (fun _ => .utf8) ++
      ((groupingColumnsOf groupFront timeColumnName).map fun name =>
        (fieldType groupFront name).getD .na) ++
      (casesOf options).map fun entry => (fieldType groupFront entry.1).getD .na)) raw.arrays

section Group

variable {renderScalar : DataType → Value → String} {options : AggregateOptions}
  {front groupFront : RecordBatch} {recordBatches rest : List RecordBatch} {raw : RawBatch}

theorem raw_make_ok {schema : Schema} {numRows : Nat} {arrays : List (Option Column)}
    (returned : RawBatch.make schema numRows arrays = .ok raw) :
    (∀ array ∈ arrays, array.isSome) ∧ raw = ⟨schema, numRows, arrays.reduceOption⟩ := by
  unfold RawBatch.make at returned
  split at returned
  · next all => exact ⟨List.all_eq_true.mp all, (Except.ok.inj returned).symm⟩
  · cases returned

theorem reduce_option_map_some {Item : Type} (items : List Item) :
    (items.map some).reduceOption = items := by
  rw [List.reduceOption, List.filterMap_map, Function.id_comp, List.filterMap_some]

theorem group_arrays_fill {group : List RecordBatch} {measurements groupingColumns : List String}
    {groupTime : DataType} {timeArray : Column} {measurementArrays aggregateArrays : List Column}
    (filled : 0 < groupFront.rows.length) (timeFills : Fills groupTime group timeArray)
    (measurementsMade : measurements.mapM (fillMeasurementColumn renderScalar group) =
      .ok measurementArrays)
    (groupingMade : ∀ name ∈ groupingColumns, (fillGroupingColumn groupFront group name).isSome)
    (aggregatesMade : (casesOf options).mapM (fun (columnName, aggregateCase) =>
      aggregate groupFront group columnName aggregateCase.aggregateFunction) =
        .ok aggregateArrays) :
    List.Forall₂ (Fills · group ·)
      (groupTime :: (measurements.map (fun _ => .utf8) ++
        (groupingColumns.map fun name => (fieldType groupFront name).getD .na) ++
        (casesOf options).map fun entry => (fieldType groupFront entry.1).getD .na))
      (some timeArray :: (measurementArrays.map some ++
        groupingColumns.map (fillGroupingColumn groupFront group) ++
        aggregateArrays.map some)).reduceOption := by
  have measurementFills := (map_m_ok_iff.mp measurementsMade).imp
    fun _ _ measured => measurement_column_fills measured
  have aggregateFills := (map_m_ok_iff.mp aggregatesMade).imp
    fun _ _ aggregated => aggregate_fills aggregated
  rw [List.reduceOption_cons_of_some, List.reduceOption_append, List.reduceOption_append]
  refine .cons timeFills (List.rel_append (List.rel_append ?_ ?_) ?_)
  · rw [reduce_option_map_some, List.forall₂_map_left_iff]
    exact measurementFills
  · exact grouping_columns_fill filled groupingMade
  · rw [reduce_option_map_some, List.forall₂_map_left_iff]
    exact aggregateFills

theorem aggregate_group_built
    (returned : aggregateGroup renderScalar options front recordBatches (groupFront :: rest) =
      .ok raw) :
    ∃ timeColumnName measurements frontTime groupTime,
      Built options front recordBatches (groupFront :: rest) groupFront raw timeColumnName
        measurements frontTime groupTime := by
  unfold aggregateGroup at returned
  obtain ⟨timeColumnName, named, returned⟩ := except_bind_ok_cases returned
  obtain ⟨fields, schemaMade, returned⟩ := except_bind_ok_cases returned
  obtain ⟨timeArray, timeMade, returned⟩ := except_bind_ok_cases returned
  obtain ⟨measurementArrays, measurementsMade, returned⟩ := except_bind_ok_cases returned
  obtain ⟨aggregateArrays, aggregatesMade, returned⟩ := except_bind_ok_cases returned
  obtain ⟨result, made, returned⟩ := except_bind_ok_cases returned
  obtain ⟨grouped, groupWritten, returned⟩ := except_bind_ok_cases returned
  obtain ⟨timed, timeWritten, returned⟩ := except_bind_ok_cases returned
  have written : raw.schema.types = result.schema.types ∧ raw.arrays = result.arrays := by
    have first := set_metadata_ok groupWritten
    have second := set_metadata_ok timeWritten
    split at returned
    · cases returned
      exact ⟨second.1.trans first.1, second.2.trans first.2⟩
    · have third := set_metadata_ok returned
      exact ⟨third.1.trans (second.1.trans first.1), third.2.trans (second.2.trans first.2)⟩
  obtain ⟨frontTime, frontTyped, types⟩ := create_result_schema_types schemaMade
  obtain ⟨groupTime, groupTyped, timeFills⟩ := time_column_fills timeMade
  obtain ⟨allMade, isMade⟩ := raw_make_ok made
  have filled := group_front_rows timeMade
  have groupingMade : ∀ name ∈ groupingColumnsOf groupFront timeColumnName,
      (fillGroupingColumn groupFront (groupFront :: rest) name).isSome := by
    intro name member
    apply allMade
    apply List.mem_cons_of_mem
    apply List.mem_append_left
    apply List.mem_append_right
    exact List.mem_map_of_mem member
  refine ⟨timeColumnName, ((getMeasurementColumnNameMetadata front).toOption.filter
    fun name => name ∉ groupingColumnsOf groupFront timeColumnName).toList, frontTime, groupTime,
    time_column_name_ok named, ?_, groupTyped, ?_, ?_, ?_⟩
  · rw [timeTypeOf, time_column_name_ok named, Option.bind_some, column_type, frontTyped]
  · intro name member
    obtain ⟨array, own⟩ := Option.isSome_iff_exists.mp (groupingMade name member)
    obtain ⟨type, typed, _⟩ := grouping_column_fills filled own
    exact ⟨type, typed⟩
  · rw [written.1, isMade]
    exact types
  · rw [written.2, isMade]
    exact group_arrays_fill filled timeFills measurementsMade groupingMade aggregatesMade

/-- A result fits its schema just when the first batch of its group agrees with the call. -/
theorem aggregate_group_well_formed_iff
    (returned : aggregateGroup renderScalar options front recordBatches (groupFront :: rest) =
      .ok raw) :
    raw.WellFormed (groupFront :: rest).length ↔
      Agrees options front recordBatches groupFront := by
  obtain ⟨timeColumnName, measurements, frontTime, groupTime, built⟩ :=
    aggregate_group_built returned
  have types : raw.schema.types = raw.arrays.map Column.type ↔ frontTime = groupTime ∧
      (∀ name ∈ groupingColumnsOf groupFront timeColumnName,
        fieldType front name = some ((fieldType groupFront name).getD .na)) ∧
      (casesOf options).map (fun entry => firstType recordBatches entry.1) =
        (casesOf options).map fun entry => (fieldType groupFront entry.1).getD .na := by
    rw [fills_types built.arrays, built.types, List.cons.injEq, List.append_assoc,
      List.append_assoc, List.append_cancel_left_eq, segments_eq_iff (by
        rw [List.length_map, List.length_map])]
  have aggregated : (casesOf options).map (fun entry => firstType recordBatches entry.1) =
      (casesOf options).map (fun entry => (fieldType groupFront entry.1).getD .na) ↔
      ∀ entry ∈ options.aggregateColumns, entry.2 ≠ [] →
        (fieldType groupFront entry.1).getD .na = firstType recordBatches entry.1 := by
    rw [List.map_inj_left]
    constructor
    · rintro same ⟨columnName, aggregateCases⟩ listed nonempty
      obtain ⟨aggregateCase, inCases⟩ := List.exists_mem_of_ne_nil _ nonempty
      exact (same _ (mem_cases_of.mpr ⟨aggregateCases, listed, inCases⟩)).symm
    · rintro same ⟨columnName, aggregateCase⟩ member
      obtain ⟨aggregateCases, listed, inCases⟩ := mem_cases_of.mp member
      exact (same _ listed (List.ne_nil_of_mem inCases)).symm
  constructor
  · intro formed
    obtain ⟨time, grouping, cases⟩ := types.mp formed.types
    refine ⟨?_, ?_, aggregated.mp cases⟩
    · rw [built.frontTyped, built.groupTyped, time]
    · intro otherName named name member
      rw [built.named, Option.some.injEq] at named
      subst named
      obtain ⟨type, typed⟩ := built.present name member
      rw [grouping name member, typed, Option.getD_some]
  · intro agrees
    refine ⟨types.mpr ⟨?_, ?_, aggregated.mpr agrees.aggregated⟩, fills_lengths built.arrays⟩
    · have time := agrees.time
      rw [built.frontTyped, built.groupTyped, Option.some.injEq] at time
      exact time.symm
    · intro name member
      obtain ⟨type, typed⟩ := built.present name member
      rw [agrees.grouping timeColumnName built.named name member, typed, Option.getD_some]

end Group

/-- The first batch of every group agrees with the first batch of the call, and with the first
ones that have the aggregated columns. -/
def GroupsAgree (options : AggregateOptions) (recordBatches : List RecordBatch) : Prop :=
  ∀ front ∈ recordBatches.head?, ∀ group ∈ groupsOf recordBatches,
    ∀ groupFront ∈ (batchesOf group recordBatches).head?,
      Agrees options front recordBatches groupFront

/-- Every result is a well-formed batch with a row for each batch of its group. -/
def ResultsWellFormed (groups : List RecordBatchGroup) (recordBatches : List RecordBatch)
    (results : List RawBatch) : Prop :=
  List.Forall₂ (fun group result => result.WellFormed (batchesOf group recordBatches).length)
    groups results

theorem batches_of_group_nonempty {group : RecordBatchGroup} {recordBatches : List RecordBatch}
    (member : group ∈ groupsOf recordBatches) :
    ∃ groupFront rest, batchesOf group recordBatches = groupFront :: rest := by
  obtain ⟨recordBatch, listed, same⟩ := List.mem_map.mp (List.mem_dedup.mp member)
  have own : recordBatch ∈ batchesOf group recordBatches :=
    List.mem_filter.mpr ⟨listed, decide_eq_true same⟩
  cases batches : batchesOf group recordBatches with
  | nil =>
      rw [batches] at own
      cases own
  | cons groupFront rest => exact ⟨groupFront, rest, rfl⟩

theorem results_types {groups : List RecordBatchGroup} {recordBatches : List RecordBatch}
    {results : List RawBatch} (formed : ResultsWellFormed groups recordBatches results) :
    ∀ raw ∈ results, raw.schema.types = raw.arrays.map Column.type := by
  unfold ResultsWellFormed at formed
  induction formed with
  | nil => exact fun _ member => by cases member
  | cons first _ induction => exact List.forall_mem_cons.mpr ⟨first.types, induction⟩

section Call

variable {renderScalar : DataType → Value → String} {options : AggregateOptions}
  {front : RecordBatch} {recordBatches : List RecordBatch}

theorem visited_well_formed_iff {groups : List RecordBatchGroup} {results : List RawBatch}
    (visited : ∀ group ∈ groups, group ∈ groupsOf recordBatches)
    (returned : List.Forall₂ (fun group result => aggregateGroup renderScalar options front
      recordBatches (batchesOf group recordBatches) = .ok result) groups results) :
    ResultsWellFormed groups recordBatches results ↔
      ∀ group ∈ groups, ∀ groupFront ∈ (batchesOf group recordBatches).head?,
        Agrees options front recordBatches groupFront := by
  unfold ResultsWellFormed
  induction returned with
  | nil => simp
  | @cons group result groups results made _ induction =>
      rw [List.forall_mem_cons] at visited
      obtain ⟨groupFront, rest, batches⟩ := batches_of_group_nonempty visited.1
      have first : result.WellFormed (batchesOf group recordBatches).length ↔
          ∀ groupFront ∈ (batchesOf group recordBatches).head?,
            Agrees options front recordBatches groupFront := by
        rw [batches] at made ⊢
        rw [aggregate_group_well_formed_iff made, List.head?_cons]
        simp only [Option.mem_def, Option.some.injEq, forall_eq']
      rw [List.forall₂_cons, List.forall_mem_cons, first, induction visited.2]

/-- The results of a call fit their schemas just when the batches of its groups agree. -/
theorem results_well_formed_iff {visit : List RecordBatchGroup → List RecordBatchGroup}
    {results : List RawBatch}
    (visits : (visit (groupsOf recordBatches)).Perm (groupsOf recordBatches))
    (returned : handleRaw renderScalar visit options recordBatches = .ok results) :
    ResultsWellFormed (visit (groupsOf recordBatches)) recordBatches results ↔
      GroupsAgree options recordBatches := by
  cases recordBatches with
  | nil =>
      cases returned
      have nothing : visit (groupsOf []) = [] := List.perm_nil.mp visits
      rw [nothing]
      constructor
      · intro _ front member
        cases member
      · intro _
        exact .nil
  | cons front others =>
      obtain ⟨_, _, returned⟩ := except_bind_ok_cases returned
      rw [visited_well_formed_iff (fun _ => visits.mem_iff.mp) (map_m_ok_iff.mp returned)]
      unfold GroupsAgree
      rw [List.head?_cons]
      simp only [Option.mem_def, Option.some.injEq, forall_eq', visits.mem_iff]

end Call

def hostBatch (host : String) (value : Option Int) : RecordBatch where
  schema := {
    fields := ⟨"time", .timestamp .second, true, {}⟩ :: ⟨"host", .utf8, true, {}⟩ ::
      value.toList.map fun _ => ⟨"value", .int64, true, {}⟩
    metadata := { timeColumnName := some "time", group := some ⟨["host"], [host]⟩ } }
  rows := [some (.integer 1) :: some (.string host) ::
    value.toList.map fun value => some (.integer value)]
  conforms := by
    intro row member
    rw [List.mem_singleton] at member
    subst member
    cases value with
    | none => exact .cons rfl (.cons rfl .nil)
    | some value => exact .cons rfl (.cons rfl (.cons rfl .nil))

def lastValue : AggregateOptions where
  aggregateColumns := [("value", [⟨.last, "last_value", .field⟩])]

def hostValues : List RecordBatch := [hostBatch "a" (some 5), hostBatch "b" (some 7)]

def missingValues : List RecordBatch := [hostBatch "a" (some 5), hostBatch "b" none]

def typesOf : Outcome (List RawBatch) → Option (List (List DataType × List DataType))
  | .ok results => some (results.map fun raw => (raw.schema.types, raw.arrays.map Column.type))
  | .error _ => none

theorem host_values_agree : GroupsAgree lastValue hostValues := by
  have agrees : ∀ host value,
      Agrees lastValue (hostBatch "a" (some 5)) hostValues (hostBatch host (some value)) := by
    intro host value
    refine ⟨rfl, ?_, ?_⟩
    · rintro timeColumnName ⟨⟩ name member
      have isHost : name = "host" := by
        simpa [groupingColumnsOf, hostBatch, extractGroup] using member
      subst isHost
      rfl
    · intro entry member _
      rw [lastValue, List.mem_singleton] at member
      subst member
      rfl
  rintro front ⟨⟩ group _ groupFront isFront
  have listed := (List.mem_filter.mp (List.mem_of_mem_head? isFront)).1
  rw [hostValues, List.mem_cons, List.mem_singleton] at listed
  rcases listed with rfl | rfl
  · exact agrees "a" 5
  · exact agrees "b" 7

theorem host_values_well_formed :
    ∃ results, handleRaw (fun _ _ => "") id lastValue hostValues = .ok results ∧
      ResultsWellFormed (groupsOf hostValues) hostValues results := by
  have returned : (typesOf (handleRaw (fun _ _ => "") id lastValue hostValues)).isSome := by
    decide +kernel
  cases outcome : handleRaw (fun _ _ => "") id lastValue hostValues with
  | ok results =>
      exact ⟨results, rfl, (results_well_formed_iff (.refl _) outcome).mpr host_values_agree⟩
  | error error =>
      rw [outcome] at returned
      cases returned

theorem null_array_under_integer_field :
    ∃ results, handleRaw (fun _ _ => "") id lastValue missingValues = .ok results ∧
      ¬ResultsWellFormed (groupsOf missingValues) missingValues results := by
  have types : typesOf (handleRaw (fun _ _ => "") id lastValue missingValues) =
      some [([.timestamp .second, .utf8, .int64], [.timestamp .second, .utf8, .int64]),
        ([.timestamp .second, .utf8, .int64], [.timestamp .second, .utf8, .na])] := by
    decide +kernel
  cases outcome : handleRaw (fun _ _ => "") id lastValue missingValues with
  | error error =>
      rw [outcome] at types
      cases types
  | ok results =>
      refine ⟨results, rfl, ?_⟩
      intro formed
      have same : ∀ pair ∈ results.map fun raw => (raw.schema.types, raw.arrays.map Column.type),
          pair.1 = pair.2 := List.forall_mem_map.mpr (results_types formed)
      rw [outcome, typesOf, Option.some.injEq] at types
      rw [types] at same
      have integers_null := same _ (List.mem_cons_of_mem _ List.mem_cons_self)
      cases integers_null

end StreamDataProcessor.Handlers.Aggregate
