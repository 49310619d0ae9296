import StreamDataProcessor.Handlers.AggregateFunctions
import StreamDataProcessor.Utils.ArrowUtils

/-!
# The aggregate handler

`aggregate_handler.cpp`. The order in which the unordered map of groups is visited is a
parameter; the unordered map of aggregate columns is a list in the order of its visits.
`RecordBatch::Make` checks nothing, so a result is a schema with arrays that need not fit it.
-/

namespace StreamDataProcessor.Handlers.Aggregate

open Arrow Metadata Utils

set_option autoImplicit false

inductive AggregateFunctionEnumType where
  | first
  | last
  | max
  | min
  | mean
  deriving DecidableEq, Repr

def AggregateFunctionEnumType.aggregate :
    AggregateFunctionEnumType → RecordBatch → String → Outcome Scalar
  | .first => firstAggregateFunction
  | .last => lastAggregateFunction
  | .max => maxAggregateFunction
  | .min => minAggregateFunction
  | .mean => meanAggregateFunction

def AggregateFunctionEnumType.resultType : AggregateFunctionEnumType → DataType → DataType
  | .mean, _ => .double
  | _, type => type

structure AggregateCase where
  aggregateFunction : AggregateFunctionEnumType
  resultColumnName : String
  resultColumnType : ColumnType := .field
  deriving DecidableEq, Repr

structure AggregateOptions where
  aggregateColumns : List (String × List AggregateCase) := []
  resultTimeColumnRule : AggregateCase := ⟨.last, "time", .time⟩
  deriving DecidableEq, Repr

/-- A field made without metadata, and then `setColumnTypeMetadata`. -/
def typedField (name : String) (type : DataType) (columnType : ColumnType) : Field :=
  { name, type, metadata := { columnType := some columnType } }

/-- The loop of `isValid`, in which an empty time column name is read again. -/
def isValidFrom : String → List RecordBatch → Outcome Unit
  | _, [] => .ok ()
  | timeColumnName, recordBatch :: rest => do
      let name ← if timeColumnName = "" then getTimeColumnNameMetadata recordBatch
        else pure timeColumnName
      match recordBatch.getColumnByName name with
      | none => fail .invalid s!"Time column with name {name} should be presented"
      | some timeColumn =>
          if isTimestampType timeColumn.type then isValidFrom name rest
          else
            fail .notImplemented
              "Aggregation currently supports arrow::Type::TIMESTAMP type for timestamp field only"

def isValid (recordBatches : List RecordBatch) : Outcome Unit := isValidFrom "" recordBatches

def batchesOf (group : RecordBatchGroup) (recordBatches : List RecordBatch) : List RecordBatch :=
  recordBatches.filter fun recordBatch => extractGroup recordBatch = group

/-- The keys of `splitByGroups`. -/
def groupsOf (recordBatches : List RecordBatch) : List RecordBatchGroup :=
  (recordBatches.map extractGroup).dedup

def aggregateCell (aggregateFunction : AggregateFunctionEnumType) (columnName : String)
    (type : DataType) (recordBatch : RecordBatch) : Outcome Scalar := do
  let aggregatedValue ← aggregateFunction.aggregate recordBatch columnName
  let column ← aggregatedColumn recordBatch columnName
  let scalarType := aggregateFunction.resultType column.type
  match type with
  | .timestamp unit => appendToTimestampBuilder unit scalarType aggregatedValue
  | _ => appendToBuilder type scalarType aggregatedValue

/-- `aggregate`: nulls of the null type where the first batch of the group lacks the column. -/
def aggregate (groupFront : RecordBatch) (group : List RecordBatch) (columnName : String)
    (aggregateFunction : AggregateFunctionEnumType) : Outcome Column :=
  match groupFront.schema.fieldByName columnName with
  | none => .ok (Column.build .na (group.map fun _ => none))
  | some field =>
      if buildable field.type then do
        let cells ← group.mapM (aggregateCell aggregateFunction columnName field.type)
        return Column.build field.type cells
      else
        fail .notImplemented ("Step-by-step array building currently supports one of " ++
          "\x7barrow::int64, arrow::float64, arrow::utf8, arrow::boolean, types fields only")

def aggregateTimeCell (aggregateFunction : AggregateFunctionEnumType) (timeColumnName : String)
    (tsColumnType : DataType) (recordBatch : RecordBatch) : Outcome Scalar := do
  let ts ← aggregateFunction.aggregate recordBatch timeColumnName
  let column ← aggregatedColumn recordBatch timeColumnName
  match tsColumnType with
  | .timestamp unit =>
      appendToTimestampBuilder unit (aggregateFunction.resultType column.type) ts
  | _ => .error (.undefined "a scalar is read as a timestamp")

def aggregateTimeColumn (rule : AggregateCase) (groupFront : RecordBatch)
    (group : List RecordBatch) : Outcome Column := do
  let timeColumnName ← getTimeColumnNameMetadata groupFront
  let tsColumn ← aggregatedColumn groupFront timeColumnName
  let cells ← group.mapM
    (aggregateTimeCell rule.aggregateFunction timeColumnName tsColumn.type)
  return Column.build tsColumn.type cells

section Render

variable (renderScalar : DataType → Value → String)

def measurementCell (measurementColumnName : String) (recordBatch : RecordBatch) :
    Outcome Scalar :=
  match recordBatch.getColumnByName measurementColumnName with
  | none => fail .invalid s!"Measurement column {measurementColumnName} is not present"
  | some measurementColumn => do
      let measurementValue ← measurementColumn.getScalar 0
      return some (.string (scalarToString renderScalar measurementColumn.type measurementValue))

def fillMeasurementColumn (group : List RecordBatch) (measurementColumnName : String) :
    Outcome Column := do
  let cells ← group.mapM (measurementCell renderScalar measurementColumnName)
  return Column.build .utf8 cells

/-- One column of `fillGroupingColumns`: the first row of the group's first batch, once for
each of its batches, or a null pointer. -/
def fillGroupingColumn (groupFront : RecordBatch) (group : List RecordBatch)
    (columnName : String) : Option Column :=
  (groupFront.getColumnByName columnName).map fun column =>
    Column.build column.type (group.flatMap fun _ => column.cells.take 1)

/-- `fillGroupMap` on a batch whose schema names no group. -/
def fillGroupMap (recordBatch : RecordBatch) (groupMap : Std.ExtTreeMap String String) :
    List String → Outcome (Std.ExtTreeMap String String)
  | [] => .ok groupMap
  | columnName :: rest =>
      if columnName ∈ groupMap then fillGroupMap recordBatch groupMap rest
      else match recordBatch.getColumnByName columnName with
        | none => fillGroupMap recordBatch groupMap rest
        | some column => do
            let columnValue ← column.getScalar 0
            fillGroupMap recordBatch
              (groupMap.insert columnName (scalarToString renderScalar column.type columnValue)) rest

def fillGroupMetadata (recordBatch : RecordBatch) (groupingColumns : List String) :
    Outcome RecordBatch := do
  let own ← fillGroupMap renderScalar recordBatch ∅ (extractGroup recordBatch).groupColumnsNames
  let groupMap ← fillGroupMap renderScalar recordBatch own groupingColumns
  return setGroupMetadata recordBatch (constructGroupFromOrderedMap groupMap)

/-- `createResultSchema`; a measurement is given where its field is added explicitly. -/
def createResultSchema (options : AggregateOptions) (front : RecordBatch)
    (recordBatches : List RecordBatch) (groupingColumns : List String)
    (explicitMeasurement : Option String) (timeColumnName : String) : Outcome (List Field) := do
  let timeColumn ← aggregatedColumn front timeColumnName
  let timeField := typedField options.resultTimeColumnRule.resultColumnName timeColumn.type .time
  let measurementFields := explicitMeasurement.toList.map fun name =>
    typedField name .utf8 .measurement
  let groupingFields := groupingColumns.filterMap front.schema.fieldByName
  let aggregateFields := options.aggregateColumns.flatMap fun (columnName, aggregateCases) =>
    let column := recordBatches.findSome? fun recordBatch => recordBatch.getColumnByName columnName
    let columnType := (column.map Column.type).getD .na
    aggregateCases.map fun aggregateCase =>
      typedField aggregateCase.resultColumnName columnType aggregateCase.resultColumnType
  return timeField :: (measurementFields ++ groupingFields ++ aggregateFields)

structure RawBatch where
  schema : Schema
  numRows : Nat
  arrays : List Column

/-- `RecordBatch::Make`, which takes the data of each array and looks at nothing else. -/
def RawBatch.make (schema : Schema) (numRows : Nat) (arrays : List (Option Column)) :
    Outcome RawBatch :=
  if arrays.all Option.isSome then .ok ⟨schema, numRows, arrays.reduceOption⟩
  else .error (.undefined "a null array is dereferenced")

/-- The batch that is read through the names of the schema, with the types of the arrays. -/
def RawBatch.read (raw : RawBatch) : RecordBatch :=
  RecordBatch.make
    { raw.schema with
      fields := raw.schema.fields.zipWith (fun field array => { field with type := array.type })
        raw.arrays }
    raw.numRows raw.arrays

/-- A function that reads a batch and writes nothing but metadata. -/
def RawBatch.setMetadata (raw : RawBatch) (set : RecordBatch → Outcome RecordBatch) :
    Outcome RawBatch := do
  let written ← set raw.read
  return { raw with schema := {
    fields := raw.schema.fields.zipIdx.map fun (field, index) =>
      { field with metadata :=
          ((written.schema.fields[index]?).map Field.metadata).getD field.metadata }
    metadata := written.schema.metadata } }

/-- The batch as one whose arrays fit their fields; what reads others is not modelled. -/
def RawBatch.trusted (raw : RawBatch) : Outcome RecordBatch :=
  if raw.schema.fields.length = raw.arrays.length ∧
      ∀ array ∈ raw.arrays, array.cells.length = raw.numRows then .ok raw.read
  else .error (.undefined "the arrays of a batch do not fit its schema")

/-- The grouping columns of a group without the first that is the time column. -/
def groupingColumnsOf (groupFront : RecordBatch) (timeColumnName : String) : List String :=
  (extractGroup groupFront).groupColumnsNames.erase timeColumnName

/-- The turn of the loop of `handle` for one group. -/
def aggregateGroup (options : AggregateOptions) (front : RecordBatch)
    (recordBatches group : List RecordBatch) : Outcome RawBatch :=
  match group with
  | [] => fail .executionError "RecordBatchVector after splitting by groups must be non-empty"
  | groupFront :: _ => do
      let timeColumnName ← getTimeColumnNameMetadata front
      let groupingColumns := groupingColumnsOf groupFront timeColumnName
      let measurement := (getMeasurementColumnNameMetadata front).toOption
      let explicitMeasurement := measurement.filter fun name => name ∉ groupingColumns
      let fields ← createResultSchema options front recordBatches groupingColumns
        explicitMeasurement timeColumnName
      let timeArray ← aggregateTimeColumn options.resultTimeColumnRule groupFront group
      let measurementArrays ← explicitMeasurement.toList.mapM
        (fillMeasurementColumn renderScalar group)
      let groupingArrays := groupingColumns.map (fillGroupingColumn groupFront group)
      let aggregateArrays ← (options.aggregateColumns.flatMap fun (columnName, aggregateCases) =>
        aggregateCases.map fun aggregateCase => (columnName, aggregateCase)).mapM
          fun (columnName, aggregateCase) =>
            aggregate groupFront group columnName aggregateCase.aggregateFunction
      let result ← RawBatch.make { fields } group.length
        (some timeArray :: (measurementArrays.map some ++ groupingArrays ++
          aggregateArrays.map some))
      let grouped ← result.setMetadata fun result =>
        fillGroupMetadata renderScalar result groupingColumns
      let timed ← grouped.setMetadata fun result =>
        setTimeColumnNameMetadata result options.resultTimeColumnRule.resultColumnName
      match measurement with
      | none => return timed
      | some name => timed.setMetadata fun result => setMeasurementColumnNameMetadata result name

def handleRaw (visit : List RecordBatchGroup → List RecordBatchGroup) (options : AggregateOptions)
    (recordBatches : List RecordBatch) : Outcome (List RawBatch) :=
  match recordBatches with
  | [] => .ok []
  | front :: _ => do
      isValid recordBatches
      (visit (groupsOf recordBatches)).mapM fun group =>
        aggregateGroup renderScalar options front recordBatches (batchesOf group recordBatches)

def handle (visit : List RecordBatchGroup → List RecordBatchGroup) (options : AggregateOptions)
    (recordBatches : List RecordBatch) : Outcome (List RecordBatch) := do
  let results ← handleRaw renderScalar visit options recordBatches
  results.mapM RawBatch.trusted

def handleBatch (options : AggregateOptions) (recordBatch : RecordBatch) :
    Outcome (List RecordBatch) :=
  if recordBatch.numRows = 0 then .ok []
  else do
    let resultVector ← handle renderScalar id options [recordBatch]
    if resultVector.length ≠ 1 then
      fail .executionError "Aggregation of one record batch should contain only one record"
    else return resultVector

end Render

end StreamDataProcessor.Handlers.Aggregate
