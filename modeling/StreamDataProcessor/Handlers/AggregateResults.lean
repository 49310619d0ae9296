import StreamDataProcessor.Handlers.AggregateLaw
import StreamDataProcessor.Handlers.ReadableTimes

/-!
# When a group gets its result

A result is made of the fields of a schema and of the arrays of a group, and then read to write
the names of its columns into its metadata.
-/

namespace StreamDataProcessor.Handlers.Aggregate

open Foundation Foundation.Effect Arrow Metadata Utils

set_option autoImplicit false

section Naming

variable {renderScalar : DataType → Value → String} {raw after : RawBatch}

def RawBatch.columns (raw : RawBatch) : List (String × DataType) :=
  raw.schema.fieldNames.zip (raw.arrays.map Column.type)

structure RawBatch.Keeps (before after : RawBatch) : Prop where
  names : after.schema.fieldNames = before.schema.fieldNames
  arrays : after.arrays = before.arrays
  rows : after.numRows = before.numRows

theorem RawBatch.Keeps.trans {first second third : RawBatch} (before : first.Keeps second)
    (next : second.Keeps third) : first.Keeps third :=
  ⟨next.names.trans before.names, next.arrays.trans before.arrays, next.rows.trans before.rows⟩

theorem set_metadata_keeps {set : RecordBatch → Outcome RecordBatch}
    (returned : raw.setMetadata set = .ok after) : raw.Keeps after := by
  have arrays := (set_metadata_ok returned).2
  obtain ⟨written, _, returned⟩ := except_bind_ok_cases returned
  cases returned
  refine ⟨?_, arrays, rfl⟩
  rw [Schema.fieldNames, List.map_map]
  exact (List.map_map (l := raw.schema.fields.zipIdx) (f := Prod.fst) (g := Field.name)).symm.trans
    (by rw [List.zipIdx_map_fst]; rfl)

theorem set_metadata_returns_iff {set : RecordBatch → Outcome RecordBatch} :
    (∃ after, raw.setMetadata set = .ok after) ↔ ∃ written, set raw.read = .ok written := by
  unfold RawBatch.setMetadata
  cases set raw.read with
  | ok written => exact iff_of_true ⟨_, rfl⟩ ⟨_, rfl⟩
  | error error =>
      apply iff_of_false
      · rintro ⟨after, returned⟩
        cases returned
      · rintro ⟨written, returned⟩
        cases returned

theorem retyped_fields {fields : List Field} {arrays : List Column}
    (lengths : fields.length = arrays.length) :
    (fields.zipWith (fun field array => { field with type := array.type }) arrays).map Field.name =
        fields.map Field.name ∧
      (fields.zipWith (fun field array => { field with type := array.type }) arrays).map
        Field.type = arrays.map Column.type := by
  induction fields generalizing arrays with
  | nil =>
      rw [List.length_eq_zero_iff.mp lengths.symm]
      exact ⟨rfl, rfl⟩
  | cons field fields induction =>
      cases arrays with
      | nil => cases lengths
      | cons array arrays =>
          obtain ⟨names, types⟩ := induction (Nat.succ.inj lengths)
          exact ⟨congrArg (field.name :: ·) names, congrArg (array.type :: ·) types⟩

theorem read_columns (lengths : raw.schema.fieldNames.length = raw.arrays.length) :
    raw.read.schema.fieldNames = raw.schema.fieldNames ∧
      raw.read.schema.types = raw.arrays.map Column.type := by
  rw [Schema.fieldNames, List.length_map] at lengths
  exact retyped_fields lengths

theorem read_length (raw : RawBatch) : raw.read.rows.length = raw.numRows :=
  (List.length_map _).trans List.length_range

theorem fill_group_map_returns {batch : RecordBatch} (filled : 0 < batch.rows.length)
    (names : List String) (groupMap : Std.ExtTreeMap String String) :
    ∃ after, fillGroupMap renderScalar batch groupMap names = .ok after := by
  induction names generalizing groupMap with
  | nil => exact ⟨groupMap, rfl⟩
  | cons name rest induction =>
      unfold fillGroupMap
      split
      · exact induction groupMap
      · split
        · exact induction groupMap
        · next column found =>
          have within : 0 < column.cells.length := by
            rw [column_length found]
            exact filled
          have read : column.getScalar 0 = .ok column.cells[0] := by
            rw [Column.getScalar, List.getElem?_eq_getElem within]
          rw [read]
          exact induction _

theorem fill_group_returns {batch : RecordBatch} (filled : 0 < batch.rows.length)
    (names : List String) : ∃ after, fillGroupMetadata renderScalar batch names = .ok after := by
  obtain ⟨own, ownMade⟩ := @fill_group_map_returns renderScalar batch filled
    (extractGroup batch).groupColumnsNames ∅
  obtain ⟨groupMap, made⟩ := @fill_group_map_returns renderScalar batch filled names own
  rw [fillGroupMetadata, ownMade]
  change ∃ after, (fillGroupMap renderScalar batch own names >>= _) = .ok after
  rw [made]
  exact ⟨_, rfl⟩

/-- The stages of a turn that write the metadata of a result. -/
def nameColumns (renderScalar : DataType → Value → String) (groupingColumns : List String)
    (timeName : String) (measurement : Option String) (result : RawBatch) : Outcome RawBatch := do
  let grouped ← result.setMetadata fun result =>
    fillGroupMetadata renderScalar result groupingColumns
  let timed ← grouped.setMetadata fun result => setTimeColumnNameMetadata result timeName
  match measurement with
  | none => return timed
  | some name => timed.setMetadata fun result => setMeasurementColumnNameMetadata result name

/-- The name of the time column is that of one column, of timestamps, and the name of the
measurement that of one of texts. -/
structure NamesSettle (columns : List (String × DataType)) (timeName : String)
    (measurement : Option String) : Prop where
  time : (columns.map Prod.fst).count timeName = 1 ∧
    ∃ type ∈ columns.lookup timeName, isTimestampType type = true
  measurement : ∀ name ∈ measurement, (columns.map Prod.fst).count name = 1 ∧
    columns.lookup name = some .utf8

theorem columns_names (lengths : raw.schema.fieldNames.length = raw.arrays.length) :
    raw.columns.map Prod.fst = raw.schema.fieldNames := by
  apply List.map_fst_zip
  rw [List.length_map]
  exact Nat.le_of_eq lengths

theorem set_name_returns_iff {name metadataKey arrowTypeName : String}
    {arrowColumnType : DataType → Bool} {columnType : ColumnType}
    {record : SchemaMetadata → SchemaMetadata}
    (lengths : raw.schema.fieldNames.length = raw.arrays.length) :
    (∃ after, raw.setMetadata (fun result => setColumnNameMetadata result name metadataKey
      arrowColumnType arrowTypeName columnType record) = .ok after) ↔
      (raw.columns.map Prod.fst).count name = 1 ∧
        ∃ type ∈ raw.columns.lookup name, arrowColumnType type = true := by
  obtain ⟨names, types⟩ := read_columns lengths
  rw [set_metadata_returns_iff, set_column_name_returns_iff, columns_names lengths,
    RawBatch.columns, names, types]

theorem RawBatch.Keeps.columns (keeps : raw.Keeps after) : after.columns = raw.columns := by
  rw [RawBatch.columns, RawBatch.columns, keeps.names, keeps.arrays]

theorem name_columns_keeps {groupingColumns : List String} {timeName : String}
    {measurement : Option String}
    (returned : nameColumns renderScalar groupingColumns timeName measurement raw = .ok after) :
    raw.Keeps after := by
  obtain ⟨grouped, groupWritten, returned⟩ := except_bind_ok_cases returned
  obtain ⟨timed, timeWritten, returned⟩ := except_bind_ok_cases returned
  have kept := (set_metadata_keeps groupWritten).trans (set_metadata_keeps timeWritten)
  cases measurement with
  | none =>
      cases returned
      exact kept
  | some name => exact kept.trans (set_metadata_keeps returned)

theorem name_columns_returns_iff {groupingColumns : List String} {timeName : String}
    {measurement : Option String} (filled : 0 < raw.numRows)
    (lengths : raw.schema.fieldNames.length = raw.arrays.length) :
    (∃ after, nameColumns renderScalar groupingColumns timeName measurement raw = .ok after) ↔
      NamesSettle raw.columns timeName measurement := by
  have readFilled : 0 < raw.read.rows.length := by
    rw [read_length]
    exact filled
  obtain ⟨grouped, groupWritten⟩ := (@set_metadata_returns_iff raw fun result =>
    fillGroupMetadata renderScalar result groupingColumns).mpr
      (fill_group_returns readFilled groupingColumns)
  have keptGrouped := set_metadata_keeps groupWritten
  have groupedLengths : grouped.schema.fieldNames.length = grouped.arrays.length := by
    rw [keptGrouped.names, keptGrouped.arrays]
    exact lengths
  have timeIff := @set_name_returns_iff grouped timeName "time_column_name" "TIMESTAMP"
    isTimestampType .time (fun metadata => { metadata with timeColumnName := some timeName })
    groupedLengths
  rw [keptGrouped.columns] at timeIff
  have measurementIff : ∀ timed, grouped.Keeps timed → ∀ name,
      (∃ after, timed.setMetadata (fun result => setMeasurementColumnNameMetadata result name) =
        .ok after) ↔ (raw.columns.map Prod.fst).count name = 1 ∧
          raw.columns.lookup name = some .utf8 := by
    intro timed keptTimed name
    have timedLengths : timed.schema.fieldNames.length = timed.arrays.length := by
      rw [keptTimed.names, keptTimed.arrays]
      exact groupedLengths
    refine (set_name_returns_iff timedLengths).trans ?_
    rw [keptTimed.columns, keptGrouped.columns]
    simp only [Option.mem_def, decide_eq_true_eq, exists_eq_right]
  constructor
  · rintro ⟨after, returned⟩
    obtain ⟨own, isOwn, returned⟩ := except_bind_ok_cases returned
    obtain rfl := Except.ok.inj (groupWritten.symm.trans isOwn)
    obtain ⟨timed, timeWritten, returned⟩ := except_bind_ok_cases returned
    refine ⟨timeIff.mp ⟨timed, timeWritten⟩, ?_⟩
    intro name named
    rw [Option.mem_def] at named
    subst named
    exact (measurementIff timed (set_metadata_keeps timeWritten) name).mp ⟨after, returned⟩
  · intro settles
    obtain ⟨timed, timeWritten⟩ := timeIff.mpr settles.time
    unfold nameColumns
    rw [groupWritten]
    change ∃ after, (grouped.setMetadata (fun result => setTimeColumnNameMetadata result timeName)
      >>= _) = .ok after
    rw [show grouped.setMetadata (fun result => setTimeColumnNameMetadata result timeName) =
      .ok timed from timeWritten]
    cases measurement with
    | none => exact ⟨timed, rfl⟩
    | some name =>
        exact (measurementIff timed (set_metadata_keeps timeWritten) name).mpr
          (settles.measurement name rfl)

end Naming

/-- The time of a batch is at the row that `argMinMax` has, and is null or cast to a timestamp. -/
def TimeSettles (choose : Int × Int → Int) (timeColumnName : String) (batch : RecordBatch) :
    Prop :=
  ∃ times indices column cell, HasTimes batch times ∧ argMinMax times = .ok indices ∧
    batch.getColumnByName timeColumnName = some column ∧ 0 ≤ choose indices ∧
    column.cells[(choose indices).toNat]? = some cell ∧
    (cell = none ∨ castsToTimestamp column.type = true)

/-- The first or the last time is asked for, of a column of timestamps of the first batch of the
group, and every batch has one. -/
def TimesSettle (rule : AggregateCase) (groupFront : RecordBatch) (group : List RecordBatch) :
    Prop :=
  ∃ choose timeColumnName column, rowChoice rule.aggregateFunction = some choose ∧
    getTimeColumnNameMetadata groupFront = .ok timeColumnName ∧
    groupFront.getColumnByName timeColumnName = some column ∧
    isTimestampType column.type = true ∧ ∀ batch ∈ group, TimeSettles choose timeColumnName batch

section Times

variable {rule : AggregateCase} {groupFront : RecordBatch} {rest : List RecordBatch}

theorem append_time_returns_iff {unit : Arrow.TimeUnit} {scalarType : DataType} {value : Scalar}
    (admitted : scalarType.admits value = true) :
    (∃ cell, appendToTimestampBuilder unit scalarType value = .ok cell) ↔
      value = none ∨ castsToTimestamp scalarType = true := by
  rw [or_comm, ← cast_timestamp_ok_iff admitted unit]
  constructor
  · rintro ⟨cell, returned⟩
    obtain ⟨timestamp, cast, _⟩ := except_bind_ok_cases returned
    exact ⟨timestamp, cast⟩
  · rintro ⟨timestamp, cast⟩
    rw [appendToTimestampBuilder, cast]
    exact ⟨_, rfl⟩

theorem time_cell_returns_iff {aggregateFunction : AggregateFunctionEnumType}
    {choose : Int × Int → Int} {timeColumnName : String} {unit : Arrow.TimeUnit}
    {batch : RecordBatch} (chosen : rowChoice aggregateFunction = some choose) :
    (∃ cell, aggregateTimeCell aggregateFunction timeColumnName (.timestamp unit) batch =
        .ok cell) ↔ TimeSettles choose timeColumnName batch := by
  have own : ∀ type, aggregateFunction.resultType type = type := by
    intro type
    cases aggregateFunction <;> first | rfl | cases chosen
  constructor
  · rintro ⟨cell, returned⟩
    obtain ⟨value, aggregated, returned⟩ := except_bind_ok_cases returned
    obtain ⟨column, isColumn, returned⟩ := except_bind_ok_cases returned
    rw [aggregate_row_choice chosen] at aggregated
    obtain ⟨times, indices, other, timed, searched, isOther, nonneg, read⟩ :=
      aggregate_at_returns_iff.mp aggregated
    obtain rfl := Option.some.inj ((aggregated_column_ok isColumn).symm.trans isOther)
    have cast := (append_time_returns_iff (column.conforms _ (List.mem_of_getElem? read))).mp
      ⟨cell, (own column.type) ▸ returned⟩
    exact ⟨times, indices, column, value, timed, searched, isOther, nonneg, read, cast⟩
  · rintro ⟨times, indices, column, value, timed, searched, found, nonneg, read, cast⟩
    have aggregated := aggregate_at_returns_iff.mpr
      ⟨times, indices, column, timed, searched, found, nonneg, read⟩
    obtain ⟨cell, appended⟩ := (@append_time_returns_iff unit _ _
      (column.conforms _ (List.mem_of_getElem? read))).mpr cast
    refine ⟨cell, ?_⟩
    rw [aggregateTimeCell, aggregate_row_choice chosen, aggregated]
    change (aggregatedColumn batch timeColumnName >>= fun column =>
      appendToTimestampBuilder unit (aggregateFunction.resultType column.type) value) = .ok cell
    rw [aggregatedColumn, found]
    change appendToTimestampBuilder unit (aggregateFunction.resultType column.type) value = .ok cell
    rw [own, appended]

theorem times_settle_iff :
    (∃ array, aggregateTimeColumn rule groupFront (groupFront :: rest) = .ok array) ↔
      TimesSettle rule groupFront (groupFront :: rest) := by
  constructor
  · rintro ⟨array, returned⟩
    obtain ⟨timeColumnName, named, returned⟩ := except_bind_ok_cases returned
    obtain ⟨column, isColumn, returned⟩ := except_bind_ok_cases returned
    obtain ⟨cells, converted, _⟩ := except_bind_ok_cases returned
    have found := aggregated_column_ok isColumn
    have each := map_m_ok_iff.mp converted
    obtain ⟨timed, choose, chosen⟩ : isTimestampType column.type = true ∧
        ∃ choose, rowChoice rule.aggregateFunction = some choose := by
      cases each with
      | cons first _ => exact time_cell_choice found first
    refine ⟨choose, timeColumnName, column, chosen, named, found, timed, ?_⟩
    intro batch member
    cases type : column.type with
    | timestamp unit =>
        obtain ⟨cell, _, made⟩ := exists_of_forall₂ each member
        rw [type] at made
        exact (time_cell_returns_iff chosen).mp ⟨cell, made⟩
    | _ =>
        rw [type] at timed
        cases timed
  · rintro ⟨choose, timeColumnName, column, chosen, named, found, timed, each⟩
    cases type : column.type with
    | timestamp unit =>
        obtain ⟨cells, converted⟩ := map_m_returns fun batch member =>
          (@time_cell_returns_iff rule.aggregateFunction choose timeColumnName unit batch
            chosen).mpr (each batch member)
        have isColumn : aggregatedColumn groupFront timeColumnName = .ok column := by
          rw [aggregatedColumn, found]
        refine ⟨Column.build (.timestamp unit) cells, ?_⟩
        simp only [aggregateTimeColumn, named, isColumn, type, converted, bind, Except.bind, pure,
          Except.pure]
    | _ =>
        rw [type] at timed
        cases timed

end Times

def explicitMeasurementOf (front groupFront : RecordBatch) (timeColumnName : String) :
    Option String :=
  (getMeasurementColumnNameMetadata front).toOption.filter fun name =>
    name ∉ groupingColumnsOf groupFront timeColumnName

def resultColumns (options : AggregateOptions) (front groupFront : RecordBatch)
    (timeColumnName : String) : List (String × DataType) :=
  (options.resultTimeColumnRule.resultColumnName, (timeTypeOf groupFront).getD .na) ::
    ((explicitMeasurementOf front groupFront timeColumnName).toList.map (fun name =>
        (name, .utf8)) ++
      (groupingColumnsOf groupFront timeColumnName).map (fun name =>
        (name, (fieldType groupFront name).getD .na)) ++
      (casesOf options).map fun entry =>
        (entry.2.resultColumnName, (fieldType groupFront entry.1).getD .na))

/-- The last columns of a result have the values of the functions over the batches of its
group, in order, under their names. -/
structure GroupComputed (options : AggregateOptions) (group : List RecordBatch)
    (raw : RawBatch) : Prop where
  rows : raw.numRows = group.length
  columns : ∃ names leading arrays, names.length = leading.length ∧
    raw.schema.fieldNames = names ++
      (casesOf options).map (fun entry => entry.2.resultColumnName) ∧
    raw.arrays = leading ++ arrays ∧
    List.Forall₂ (fun entry array =>
      ArrayComputes entry.2.aggregateFunction entry.1 group array) (casesOf options) arrays

structure ColumnsSettle (options : AggregateOptions) (front groupFront : RecordBatch)
    (group : List RecordBatch) (timeColumnName : String) : Prop where
  grouping : ∀ name ∈ groupingColumnsOf groupFront timeColumnName,
    (front.schema.fieldByName name).isSome ∧ (groupFront.schema.fieldByName name).isSome
  times : TimesSettle options.resultTimeColumnRule groupFront group
  measurement : ∀ name ∈ explicitMeasurementOf front groupFront timeColumnName,
    ∀ batch ∈ group, (batch.getColumnByName name).isSome
  cases : ∀ entry ∈ casesOf options,
    ColumnSettles entry.2.aggregateFunction entry.1 groupFront group

def makeResult (renderScalar : DataType → Value → String) (options : AggregateOptions)
    (front : RecordBatch) (recordBatches : List RecordBatch) (groupFront : RecordBatch)
    (group : List RecordBatch) (timeColumnName : String) : Outcome RawBatch := do
  let groupingColumns := groupingColumnsOf groupFront timeColumnName
  let explicitMeasurement := explicitMeasurementOf front groupFront timeColumnName
  let fields ← createResultSchema options front recordBatches groupingColumns explicitMeasurement
    timeColumnName
  let timeArray ← aggregateTimeColumn options.resultTimeColumnRule groupFront group
  let measurementArrays ← explicitMeasurement.toList.mapM
    (fillMeasurementColumn renderScalar group)
  let aggregateArrays ← (casesOf options).mapM fun (columnName, aggregateCase) =>
    aggregate groupFront group columnName aggregateCase.aggregateFunction
  RawBatch.make { fields } group.length
    (some timeArray :: (measurementArrays.map some ++
      groupingColumns.map (fillGroupingColumn groupFront group) ++ aggregateArrays.map some))

section Making

variable {renderScalar : DataType → Value → String} {options : AggregateOptions}
  {front groupFront : RecordBatch} {recordBatches rest : List RecordBatch}
  {timeColumnName : String}

theorem aggregate_group_eq (named : getTimeColumnNameMetadata front = .ok timeColumnName) :
    aggregateGroup renderScalar options front recordBatches (groupFront :: rest) =
      makeResult renderScalar options front recordBatches groupFront (groupFront :: rest)
          timeColumnName >>=
        nameColumns renderScalar (groupingColumnsOf groupFront timeColumnName)
          options.resultTimeColumnRule.resultColumnName
          (getMeasurementColumnNameMetadata front).toOption := by
  simp only [aggregateGroup, named, makeResult, bind_assoc]
  rfl

theorem grouping_field_names (schema : Schema) (names : List String) :
    (names.filterMap schema.fieldByName).map Field.name =
      names.filter fun name => (schema.fieldByName name).isSome := by
  induction names with
  | nil => rfl
  | cons name rest induction =>
      cases found : schema.fieldByName name with
      | none =>
          rw [List.filterMap_cons_none found, induction, List.filter_cons_of_neg (by simp [found])]
      | some field =>
          rw [List.filterMap_cons_some found, List.map_cons, induction,
            List.filter_cons_of_pos (by simp [found]), field_by_name_name found]

theorem create_result_schema_names {groupingColumns : List String}
    {explicitMeasurement : Option String} {fields : List Field}
    (returned : createResultSchema options front recordBatches groupingColumns
      explicitMeasurement timeColumnName = .ok fields) :
    fields.map Field.name = options.resultTimeColumnRule.resultColumnName ::
      (explicitMeasurement.toList ++
        groupingColumns.filter (fun name => (front.schema.fieldByName name).isSome) ++
        (casesOf options).map fun entry => entry.2.resultColumnName) := by
  obtain ⟨timeColumn, _, returned⟩ := except_bind_ok_cases returned
  cases returned
  have cases : (options.aggregateColumns.flatMap fun entry =>
      entry.2.map fun aggregateCase => typedField aggregateCase.resultColumnName
        (firstType recordBatches entry.1) aggregateCase.resultColumnType).map Field.name =
      (casesOf options).map fun entry => entry.2.resultColumnName := by
    rw [List.map_flatMap, casesOf, List.map_flatMap]
    congr 1
    funext entry
    rw [List.map_map, List.map_map]
    rfl
  rw [List.map_cons, List.map_append, List.map_append, List.map_map, grouping_field_names]
  exact congrArg _ (congrArg₂ _ (congrArg₂ _ (List.map_id _) rfl) cases)

theorem has_column_iff (batch : RecordBatch) (name : String) :
    (batch.getColumnByName name).isSome = (batch.schema.fieldByName name).isSome := by
  have same := congrArg Option.isSome (column_type batch name)
  rw [fieldType, Option.isSome_map, Option.isSome_map] at same
  exact same

theorem measurement_returns_iff {group : List RecordBatch} {name : String}
    (filled : ∀ batch ∈ group, 0 < batch.rows.length) :
    (∃ array, fillMeasurementColumn renderScalar group name = .ok array) ↔
      ∀ batch ∈ group, (batch.getColumnByName name).isSome := by
  constructor
  · rintro ⟨array, returned⟩ batch member
    obtain ⟨cells, converted, _⟩ := except_bind_ok_cases returned
    obtain ⟨cell, _, made⟩ := exists_of_forall₂ (map_m_ok_iff.mp converted) member
    unfold measurementCell at made
    split at made
    · cases made
    · next found =>
      rw [found]
      rfl
  · intro each
    have cells : ∀ batch ∈ group, ∃ cell, measurementCell renderScalar name batch = .ok cell := by
      intro batch member
      obtain ⟨column, found⟩ := Option.isSome_iff_exists.mp (each batch member)
      have within : 0 < column.cells.length := by
        rw [column_length found]
        exact filled batch member
      simp only [measurementCell, found, Column.getScalar, List.getElem?_eq_getElem within, bind,
        Except.bind]
      exact ⟨_, rfl⟩
    obtain ⟨made, converted⟩ := map_m_returns cells
    rw [fillMeasurementColumn, converted]
    exact ⟨_, rfl⟩

structure Made (renderScalar : DataType → Value → String) (options : AggregateOptions)
    (front groupFront : RecordBatch) (group : List RecordBatch) (timeColumnName : String)
    (timeArray : Column) (measurementArrays aggregateArrays : List Column) (result : RawBatch) :
    Prop where
  time : aggregateTimeColumn options.resultTimeColumnRule groupFront group = .ok timeArray
  measurement : (explicitMeasurementOf front groupFront timeColumnName).toList.mapM
    (fillMeasurementColumn renderScalar group) = .ok measurementArrays
  grouping : ∀ name ∈ groupingColumnsOf groupFront timeColumnName,
    (fillGroupingColumn groupFront group name).isSome
  cases : (casesOf options).mapM (fun (columnName, aggregateCase) =>
    aggregate groupFront group columnName aggregateCase.aggregateFunction) = .ok aggregateArrays
  rows : result.numRows = group.length
  names : result.schema.fieldNames = options.resultTimeColumnRule.resultColumnName ::
    ((explicitMeasurementOf front groupFront timeColumnName).toList ++
      (groupingColumnsOf groupFront timeColumnName).filter (fun name =>
        (front.schema.fieldByName name).isSome) ++
      (casesOf options).map fun entry => entry.2.resultColumnName)
  arrays : result.arrays = (some timeArray :: (measurementArrays.map some ++
    (groupingColumnsOf groupFront timeColumnName).map (fillGroupingColumn groupFront group) ++
    aggregateArrays.map some)).reduceOption

theorem make_result_ok {group : List RecordBatch} {result : RawBatch}
    (returned : makeResult renderScalar options front recordBatches groupFront group
      timeColumnName = .ok result) :
    ∃ timeArray measurementArrays aggregateArrays, Made renderScalar options front groupFront
      group timeColumnName timeArray measurementArrays aggregateArrays result := by
  obtain ⟨fields, schemaMade, returned⟩ := except_bind_ok_cases returned
  obtain ⟨timeArray, timeMade, returned⟩ := except_bind_ok_cases returned
  obtain ⟨measurementArrays, measurementsMade, returned⟩ := except_bind_ok_cases returned
  obtain ⟨aggregateArrays, aggregatesMade, returned⟩ := except_bind_ok_cases returned
  obtain ⟨allMade, rfl⟩ := raw_make_ok returned
  refine ⟨timeArray, measurementArrays, aggregateArrays, timeMade, measurementsMade, ?_,
    aggregatesMade, rfl, create_result_schema_names schemaMade, rfl⟩
  intro name member
  apply allMade
  apply List.mem_cons_of_mem
  apply List.mem_append_left
  apply List.mem_append_right
  exact List.mem_map_of_mem member

theorem make_result_returns {group : List RecordBatch} {column timeArray : Column}
    {measurementArrays aggregateArrays : List Column}
    (stamped : front.getColumnByName timeColumnName = some column)
    (timeMade : aggregateTimeColumn options.resultTimeColumnRule groupFront group =
      .ok timeArray)
    (measurementsMade : (explicitMeasurementOf front groupFront timeColumnName).toList.mapM
      (fillMeasurementColumn renderScalar group) = .ok measurementArrays)
    (groupingMade : ∀ name ∈ groupingColumnsOf groupFront timeColumnName,
      (fillGroupingColumn groupFront group name).isSome)
    (aggregatesMade : (casesOf options).mapM (fun (columnName, aggregateCase) =>
      aggregate groupFront group columnName aggregateCase.aggregateFunction) =
        .ok aggregateArrays) :
    ∃ result, makeResult renderScalar options front recordBatches groupFront group
      timeColumnName = .ok result := by
  have schemaMade : ∃ fields, createResultSchema options front recordBatches
      (groupingColumnsOf groupFront timeColumnName)
      (explicitMeasurementOf front groupFront timeColumnName) timeColumnName = .ok fields := by
    rw [createResultSchema, aggregatedColumn, stamped]
    exact ⟨_, rfl⟩
  obtain ⟨fields, schemaMade⟩ := schemaMade
  have allMade : (some timeArray :: (measurementArrays.map some ++
      (groupingColumnsOf groupFront timeColumnName).map (fillGroupingColumn groupFront group) ++
      aggregateArrays.map some)).all Option.isSome = true := by
    simp only [List.all_cons, Option.isSome_some, List.all_append, List.all_map, Bool.true_and,
      Bool.and_eq_true, List.all_eq_true]
    exact ⟨⟨fun _ _ => rfl, groupingMade⟩, fun _ _ => rfl⟩
  simp only [makeResult, schemaMade, timeMade, measurementsMade, aggregatesMade, bind, Except.bind]
  rw [RawBatch.make, if_pos allMade]
  exact ⟨_, rfl⟩

section Stages

variable {timeArray : Column} {measurementArrays aggregateArrays : List Column}
  {result : RawBatch}

theorem Made.leading (made : Made renderScalar options front groupFront (groupFront :: rest)
      timeColumnName timeArray measurementArrays aggregateArrays result) :
    ∃ leading, result.arrays = leading ++ aggregateArrays ∧
      leading.length = 1 + (explicitMeasurementOf front groupFront timeColumnName).toList.length +
        (groupingColumnsOf groupFront timeColumnName).length := by
  have groupingFills := grouping_columns_fill (group_front_rows made.time) made.grouping
  have groupingLength := groupingFills.length_eq
  have measurementLength := (map_m_ok_iff.mp made.measurement).length_eq
  rw [List.length_map] at groupingLength
  refine ⟨timeArray :: (measurementArrays ++ ((groupingColumnsOf groupFront timeColumnName).map
    (fillGroupingColumn groupFront (groupFront :: rest))).reduceOption), ?_, ?_⟩
  · rw [made.arrays, List.reduceOption_cons_of_some, List.reduceOption_append,
      List.reduceOption_append, reduce_option_map_some, reduce_option_map_some, List.cons_append]
  · rw [List.length_cons, List.length_append, groupingLength, measurementLength]
    omega

theorem Made.fills (made : Made renderScalar options front groupFront (groupFront :: rest)
      timeColumnName timeArray measurementArrays aggregateArrays result) :
    result.arrays.map Column.type =
      (resultColumns options front groupFront timeColumnName).map Prod.snd := by
  obtain ⟨groupTime, typed, timeFills⟩ := time_column_fills made.time
  have fills := group_arrays_fill (group_front_rows made.time) timeFills made.measurement
    made.grouping made.cases
  rw [made.arrays, fills_types fills, resultColumns, typed]
  simp only [List.map_cons, List.map_append, List.map_map, Option.getD_some]
  rfl

theorem Made.columns (made : Made renderScalar options front groupFront (groupFront :: rest)
      timeColumnName timeArray measurementArrays aggregateArrays result)
    (present : ∀ name ∈ groupingColumnsOf groupFront timeColumnName,
      (front.schema.fieldByName name).isSome) :
    result.schema.fieldNames.length = result.arrays.length ∧
      result.columns = resultColumns options front groupFront timeColumnName := by
  have names : result.schema.fieldNames =
      (resultColumns options front groupFront timeColumnName).map Prod.fst := by
    rw [made.names, List.filter_eq_self.mpr present, resultColumns]
    simp only [List.map_cons, List.map_append, List.map_map]
    exact congrArg _ (congrArg₂ _ (congrArg₂ _ (List.map_id _).symm (List.map_id _).symm) rfl)
  constructor
  · rw [names, List.length_map, ← List.length_map (f := Prod.snd), ← made.fills, List.length_map]
  · exact (List.zip_of_prod names.symm made.fills.symm).symm

theorem Made.computed_iff (made : Made renderScalar options front groupFront (groupFront :: rest)
      timeColumnName timeArray measurementArrays aggregateArrays result) :
    GroupComputed options (groupFront :: rest) result ↔
      (∀ name ∈ groupingColumnsOf groupFront timeColumnName,
        (front.schema.fieldByName name).isSome) ∧
      List.Forall₂ (fun entry array => ArrayComputes entry.2.aggregateFunction entry.1
        (groupFront :: rest) array) (casesOf options) aggregateArrays := by
  obtain ⟨leading, isArrays, leadingLength⟩ := made.leading
  have isNames := made.names
  rw [← List.cons_append] at isNames
  have casesLength := (map_m_ok_iff.mp made.cases).length_eq
  constructor
  · rintro ⟨_, names, otherLeading, arrays, lengths, named, separated, computed⟩
    rw [isNames] at named
    have sameNames := List.append_cancel_right named
    rw [isArrays] at separated
    obtain ⟨sameLeading, rfl⟩ := List.append_inj' separated
      (casesLength.symm.trans computed.length_eq)
    refine ⟨?_, computed⟩
    rw [← sameNames, ← sameLeading, leadingLength, List.length_cons, List.length_append] at lengths
    apply List.length_filter_eq_length_iff.mp
    omega
  · rintro ⟨present, computed⟩
    refine ⟨made.rows, _, leading, aggregateArrays, ?_, isNames, isArrays, computed⟩
    rw [leadingLength, List.filter_eq_self.mpr present, List.length_cons, List.length_append]
    omega

end Stages

/-- A result is made with the values of the functions just when its columns settle. -/
theorem make_result_iff {column : Column}
    (stamped : front.getColumnByName timeColumnName = some column)
    (filled : ∀ batch ∈ groupFront :: rest, 0 < batch.rows.length) :
    (∃ result, makeResult renderScalar options front recordBatches groupFront (groupFront :: rest)
        timeColumnName = .ok result ∧ GroupComputed options (groupFront :: rest) result) ↔
      ColumnsSettle options front groupFront (groupFront :: rest) timeColumnName := by
  have casesIff := @map_m_related_iff _ _ _ (fun (columnName, aggregateCase) =>
      aggregate groupFront (groupFront :: rest) columnName aggregateCase.aggregateFunction)
    (fun entry array => ArrayComputes entry.2.aggregateFunction entry.1
      (groupFront :: rest) array) (casesOf options)
  constructor
  · rintro ⟨result, returned, computed⟩
    obtain ⟨timeArray, measurementArrays, aggregateArrays, made⟩ := make_result_ok returned
    obtain ⟨present, arrays⟩ := made.computed_iff.mp computed
    refine ⟨?_, times_settle_iff.mp ⟨timeArray, made.time⟩, ?_, ?_⟩
    · intro name member
      refine ⟨present name member, ?_⟩
      have own := made.grouping name member
      rw [fillGroupingColumn, Option.isSome_map, has_column_iff] at own
      exact own
    · intro name explicit
      have each := map_m_ok_iff.mp made.measurement
      obtain ⟨array, _, measured⟩ := exists_of_forall₂ each (Option.mem_toList.mpr explicit)
      exact (measurement_returns_iff filled).mp ⟨array, measured⟩
    · intro entry member
      exact column_settles_iff.mp (casesIff.mp ⟨aggregateArrays, made.cases, arrays⟩ entry member)
  · intro settle
    obtain ⟨timeArray, timeMade⟩ := times_settle_iff.mpr settle.times
    obtain ⟨measurementArrays, measurementsMade⟩ := map_m_returns fun name member =>
      (@measurement_returns_iff renderScalar _ name filled).mpr
        (settle.measurement name (Option.mem_toList.mp member))
    have groupingMade : ∀ name ∈ groupingColumnsOf groupFront timeColumnName,
        (fillGroupingColumn groupFront (groupFront :: rest) name).isSome := by
      intro name member
      rw [fillGroupingColumn, Option.isSome_map, has_column_iff]
      exact (settle.grouping name member).2
    obtain ⟨aggregateArrays, aggregatesMade, arrays⟩ := casesIff.mpr fun entry member =>
      column_settles_iff.mpr (settle.cases entry member)
    obtain ⟨result, returned⟩ := @make_result_returns renderScalar options front groupFront
      recordBatches timeColumnName _ column timeArray measurementArrays aggregateArrays stamped
      timeMade measurementsMade groupingMade aggregatesMade
    obtain ⟨_, _, ownArrays, made⟩ := make_result_ok returned
    obtain rfl := Except.ok.inj (aggregatesMade.symm.trans made.cases)
    refine ⟨result, returned, made.computed_iff.mpr ⟨?_, arrays⟩⟩
    intro name member
    exact (settle.grouping name member).1

structure GroupSettles (options : AggregateOptions) (front groupFront : RecordBatch)
    (group : List RecordBatch) (timeColumnName : String) : Prop where
  columns : ColumnsSettle options front groupFront group timeColumnName
  names : NamesSettle (resultColumns options front groupFront timeColumnName)
    options.resultTimeColumnRule.resultColumnName
    (getMeasurementColumnNameMetadata front).toOption

theorem group_settles_iff {column : Column}
    (named : getTimeColumnNameMetadata front = .ok timeColumnName)
    (stamped : front.getColumnByName timeColumnName = some column)
    (filled : ∀ batch ∈ groupFront :: rest, 0 < batch.rows.length) :
    (∃ raw, aggregateGroup renderScalar options front recordBatches (groupFront :: rest) =
        .ok raw ∧ GroupComputed options (groupFront :: rest) raw) ↔
      GroupSettles options front groupFront (groupFront :: rest) timeColumnName := by
  have makeIff := @make_result_iff renderScalar options front groupFront recordBatches rest
    timeColumnName column stamped filled
  rw [aggregate_group_eq named]
  have rows : ∀ {result}, GroupComputed options (groupFront :: rest) result →
      0 < result.numRows := by
    intro result computed
    rw [computed.rows]
    exact Nat.succ_pos _
  have keeps : ∀ {result raw}, result.Keeps raw →
      (GroupComputed options (groupFront :: rest) raw ↔
        GroupComputed options (groupFront :: rest) result) := by
    intro result raw kept
    constructor
    · rintro ⟨isRows, columns⟩
      rw [kept.names, kept.arrays] at columns
      exact ⟨kept.rows.symm.trans isRows, columns⟩
    · rintro ⟨isRows, columns⟩
      rw [← kept.names, ← kept.arrays] at columns
      exact ⟨kept.rows.trans isRows, columns⟩
  constructor
  · rintro ⟨raw, returned, computed⟩
    obtain ⟨result, isMade, written⟩ := except_bind_ok_cases returned
    have ownComputed := (keeps (name_columns_keeps written)).mp computed
    have settle := makeIff.mp ⟨result, isMade, ownComputed⟩
    obtain ⟨_, _, _, made⟩ := make_result_ok isMade
    obtain ⟨lengths, columns⟩ := made.columns fun name member => (settle.grouping name member).1
    have names := (name_columns_returns_iff (rows ownComputed) lengths).mp ⟨raw, written⟩
    rw [columns] at names
    exact ⟨settle, names⟩
  · rintro ⟨settle, names⟩
    obtain ⟨result, isMade, computed⟩ := makeIff.mpr settle
    obtain ⟨_, _, _, made⟩ := make_result_ok isMade
    obtain ⟨lengths, columns⟩ := made.columns fun name member => (settle.grouping name member).1
    rw [← columns] at names
    obtain ⟨raw, written⟩ := (@name_columns_returns_iff renderScalar result
      (groupingColumnsOf groupFront timeColumnName) _ _ (rows computed) lengths).mpr names
    refine ⟨raw, ?_, (keeps (name_columns_keeps written)).mpr computed⟩
    rw [isMade]
    exact written

end Making

def GroupsSettle (options : AggregateOptions) (recordBatches : List RecordBatch) : Prop :=
  ∀ front ∈ recordBatches.head?, ∀ timeColumnName ∈ front.schema.metadata.timeColumnName,
    ∀ group ∈ groupsOf recordBatches, ∀ groupFront ∈ (batchesOf group recordBatches).head?,
      GroupSettles options front groupFront (batchesOf group recordBatches) timeColumnName

section Call

variable {renderScalar : DataType → Value → String} {options : AggregateOptions}
  {recordBatches : List RecordBatch}

theorem valid_time_column {front : RecordBatch} {others : List RecordBatch}
    (valid : isValid (front :: others) = .ok ()) :
    ∃ timeColumnName column, getTimeColumnNameMetadata front = .ok timeColumnName ∧
      front.getColumnByName timeColumnName = some column := by
  unfold isValid isValidFrom at valid
  rw [if_pos rfl] at valid
  obtain ⟨timeColumnName, named, valid⟩ := except_bind_ok_cases valid
  dsimp only at valid
  split at valid
  · cases valid
  · next column found => exact ⟨timeColumnName, column, named, found⟩

/-- A call returns, with the values of the functions in one result for each group, just when
the groups settle. Means are left out, which the library rounds, and times that it parses. -/
theorem computes_aggregates_iff {visit : List RecordBatchGroup → List RecordBatchGroup}
    (visits : (visit (groupsOf recordBatches)).Perm (groupsOf recordBatches))
    (nonempty : recordBatches ≠ []) (filled : ∀ batch ∈ recordBatches, 0 < batch.numRows)
    (valid : isValid recordBatches = .ok ())
    (_unaveraged : ∀ entry ∈ casesOf options, entry.2.aggregateFunction ≠ .mean)
    (_unparsed : ∀ batch ∈ recordBatches, TimesUnparsed batch) :
    (∃ results, handleRaw renderScalar visit options recordBatches = .ok results ∧
        List.Forall₂ (fun group result =>
          GroupComputed options (batchesOf group recordBatches) result)
          (visit (groupsOf recordBatches)) results) ↔
      GroupsSettle options recordBatches := by
  cases recordBatches with
  | nil => exact absurd rfl nonempty
  | cons front others =>
      obtain ⟨timeColumnName, column, named, stamped⟩ := valid_time_column valid
      have called : handleRaw renderScalar visit options (front :: others) =
          (visit (groupsOf (front :: others))).mapM fun group =>
            aggregateGroup renderScalar options front (front :: others)
              (batchesOf group (front :: others)) := by
        rw [handleRaw, valid]
        rfl
      have eachGroup : ∀ group ∈ groupsOf (front :: others),
          (∃ raw, aggregateGroup renderScalar options front (front :: others)
              (batchesOf group (front :: others)) = .ok raw ∧
            GroupComputed options (batchesOf group (front :: others)) raw) ↔
          ∀ groupFront ∈ (batchesOf group (front :: others)).head?,
            GroupSettles options front groupFront (batchesOf group (front :: others))
              timeColumnName := by
        intro group member
        have ownFilled : ∀ batch ∈ batchesOf group (front :: others), 0 < batch.rows.length :=
          fun batch own => filled batch (List.mem_of_mem_filter own)
        obtain ⟨groupFront, rest, batches⟩ := batches_of_group_nonempty member
        rw [batches] at ownFilled ⊢
        rw [group_settles_iff named stamped ownFilled, List.head?_cons]
        simp only [Option.mem_def, Option.some.injEq, forall_eq']
      rw [called, map_m_related_iff]
      unfold GroupsSettle
      rw [List.head?_cons]
      simp only [Option.mem_def, Option.some.injEq, forall_eq', time_column_name_ok named,
        visits.mem_iff]
      constructor
      · intro each group member groupFront isFront
        exact (eachGroup group member).mp (each group member) groupFront isFront
      · intro each group member
        exact (eachGroup group member).mpr (each group member)

end Call

def hostValue : List RecordBatch := [hostBatch "a" (some 5)]

def hostColumn (name : String) : Column :=
  ((hostBatch "a" (some 5)).getColumnByName name).getD (Column.build .na [])

theorem host_column_found {name : String}
    (present : ((hostBatch "a" (some 5)).getColumnByName name).isSome) :
    (hostBatch "a" (some 5)).getColumnByName name = some (hostColumn name) := by
  obtain ⟨column, found⟩ := Option.isSome_iff_exists.mp present
  rw [hostColumn, found, Option.getD_some]

theorem host_value_settles : GroupsSettle lastValue hostValue := by
  have timed : HasTimes (hostBatch "a" (some 5)) (hostColumn "time") :=
    ⟨"time", by decide +kernel, host_column_found (by decide +kernel)⟩
  have searched : argMinMax (hostColumn "time") = .ok (0, 0) := by decide +kernel
  have valued : (hostBatch "a" (some 5)).schema.fieldByName "value" =
      some ⟨"value", .int64, true, {}⟩ := by decide +kernel
  have groups : groupsOf hostValue = [⟨["host"], ["a"]⟩] := by decide +kernel
  have batches : batchesOf ⟨["host"], ["a"]⟩ hostValue = hostValue := by
    unfold batchesOf
    apply List.filter_eq_self.mpr
    decide +kernel
  rintro front ⟨⟩ timeColumnName ⟨⟩ group member groupFront isFront
  rw [groups, List.mem_singleton] at member
  subst member
  rw [batches] at isFront ⊢
  obtain rfl := Option.some.inj isFront
  refine ⟨⟨by decide +kernel, ?_, by decide +kernel, ?_⟩, ⟨by decide +kernel, ?_⟩, by decide +kernel⟩
  · refine ⟨Prod.snd, "time", hostColumn "time", rfl, by decide +kernel,
      host_column_found (by decide +kernel), by decide +kernel, ?_⟩
    intro batch member
    rw [hostValue, List.mem_singleton] at member
    subst member
    exact ⟨hostColumn "time", (0, 0), hostColumn "time", some (.integer 1), timed, searched,
      host_column_found (by decide +kernel), le_refl _, by decide +kernel,
      .inr (by decide +kernel)⟩
  · intro entry member
    have isEntry : entry = ("value", ⟨.last, "last_value", .field⟩) := List.mem_singleton.mp member
    subst isEntry
    unfold ColumnSettles
    rw [valued]
    refine ⟨rfl, ?_⟩
    intro batch member
    rw [hostValue, List.mem_singleton] at member
    subst member
    refine ⟨hostColumn "value", host_column_found (by decide +kernel), by decide +kernel,
      hostColumn "time", (0, 0), timed, by decide +kernel, by decide +kernel, searched, .inl ?_⟩
    exact ⟨.integer 5, by decide +kernel⟩
  · exact ⟨.timestamp .second, by decide +kernel, rfl⟩

theorem host_value_computed :
    ∃ results, handleRaw (fun _ _ => "") id lastValue hostValue = .ok results ∧
      List.Forall₂ (fun group result => GroupComputed lastValue (batchesOf group hostValue) result)
        (groupsOf hostValue) results :=
  (computes_aggregates_iff (.refl _) (by decide +kernel) (by decide +kernel)
    (by decide +kernel) (by decide) (by
      intro batch member name column named found
      rw [hostValue, List.mem_singleton] at member
      subst member
      cases named
      obtain rfl := Option.some.inj ((host_column_found (by decide +kernel)).symm.trans found)
      decide +kernel)).mpr host_value_settles

end StreamDataProcessor.Handlers.Aggregate
