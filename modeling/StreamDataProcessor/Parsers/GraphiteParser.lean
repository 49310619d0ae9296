import StreamDataProcessor.Parsers.GraphiteTemplate
import StreamDataProcessor.Metadata.Access

/-!
# The Graphite parser

`graphite_parser.cpp`. The order in which the unordered map of a metric's fields is visited is a
parameter. The clock is read as one value in a call.
-/

namespace StreamDataProcessor.Parsers.Graphite

open Foundation.Numerals Foundation.Binary64 Arrow Metadata Utils.StringUtils

set_option autoImplicit false

inductive FieldType where
  | int64
  | double
  | string
  deriving DecidableEq

def FieldType.arrowType : FieldType → DataType
  | .int64 => .int64
  | .double => .double
  | .string => .utf8

structure GraphiteParser where
  separator : String := "."
  timeColumnName : String := "time"
  measurementColumnName : String := "measurement"
  templates : List MetricTemplate := []

def buildFirst (separator metricString : String) : List MetricTemplate → Parse (Option Metric)
  | [] => pure none
  | metricTemplate :: rest => do
      match ← metricTemplate.buildMetric metricString separator with
      | some metric => return some metric
      | none => buildFirst separator metricString rest

def parseMetricString (parser : GraphiteParser) (metricString : String) : Parse Unit := do
  match ← buildFirst parser.separator metricString parser.templates with
  | none => pure ()
  | some metric => modify fun state =>
      { state with parsedMetrics := insertMetric metric state.parsedMetrics }

def parseMetricStrings (parser : GraphiteParser) (metricStrings : List String) : Parse Unit :=
  metricStrings.forM (parseMetricString parser)

def isZero : Double → Bool
  | .finite value => value = 0
  | .negativeZero => true
  | _ => false

def determineFieldType (value : String) : Parse FieldType :=
  if value = "0" then pure .int64
  else do
    let int64 ← convert (strtoll value.toList)
    if (← get).rangeError = false ∧ int64.value ≠ 0 ∧ int64.rest = [] then return .int64
    let double ← convert (strtod value.toList)
    if (← get).rangeError = false ∧ isZero double.value = false ∧ double.rest = [] then
      return .double
    return .string

abbrev FieldsTypes := Std.ExtTreeMap String FieldType

def addFieldType (fieldsTypes : FieldsTypes) (name : String) (type : FieldType) : FieldsTypes :=
  match fieldsTypes[name]? with
  | none => fieldsTypes.insert name type
  | some held =>
      if (held = .int64 ∧ type ≠ .int64) ∨ (held ≠ .string ∧ type = .string) then
        fieldsTypes.insert name type
      else fieldsTypes

section Parse

variable (visitFields : List (String × String) → List (String × String)) (parser : GraphiteParser)

def addFieldTypes (fieldsTypes : FieldsTypes) (metric : Metric) : Parse FieldsTypes :=
  (visitFields metric.fields).foldlM (fun fieldsTypes field => do
    let type ← determineFieldType field.2
    return addFieldType fieldsTypes field.1 type) fieldsTypes

def determineFieldsTypes (metrics : List Metric) : Parse FieldsTypes :=
  metrics.foldlM (addFieldTypes visitFields) ∅

def tagNames (metrics : List Metric) : List String :=
  (metrics.foldl (fun names metric => metric.tags.foldl (fun names name _ =>
    names.insertIfNew name ()) names) (∅ : Std.ExtTreeMap String Unit)).keys

def fieldCell (type : FieldType) (fieldValue : String) : Parse Scalar :=
  match type with
  | .int64 => do
      let conversion ← convert (strtoll fieldValue.toList)
      return some (.integer conversion.value)
  | .double => do
      let conversion ← convert (strtod fieldValue.toList)
      return some (.double conversion.value)
  | .string => return some (.string fieldValue)

def metricFieldCell (metric : Metric) (field : String × FieldType) : Parse Scalar :=
  match metric.fields.lookup field.1 with
  | none => pure none
  | some fieldValue => fieldCell field.2 fieldValue

def metricRow (now : Int) (tags : List String) (fieldsTypes : FieldsTypes) (metric : Metric) :
    Parse Row := do
  let fieldCells ← fieldsTypes.toList.mapM (metricFieldCell metric)
  return some (.integer (if metric.timestamp ≠ -1 then metric.timestamp else now)) ::
    some (.string metric.measurementName) ::
    (tags.map fun name => (metric.tags[name]?).map Value.string) ++ fieldCells

def columnField (name : String) (type : DataType) (columnType : ColumnType) : Field :=
  { name := name, type := type, metadata := { columnType := some columnType } }

def resultFields (tags : List String) (fieldsTypes : FieldsTypes) : List Field :=
  columnField parser.timeColumnName (.timestamp .second) .time ::
    columnField parser.measurementColumnName .utf8 .measurement ::
    (tags.map fun name => columnField name .utf8 .tag) ++
    fieldsTypes.toList.map fun field => columnField field.1 field.2.arrowType .field

def finishBuilders (fields : List Field) (rows : List Row) : RecordBatch :=
  RecordBatch.make { fields := fields } rows.length
    (fields.zipIdx.map fun (field, index) =>
      Column.build field.type (rows.map fun row => row.getD index none))

def nameColumns (recordBatch : RecordBatch) : Outcome RecordBatch := do
  let timed ← setTimeColumnNameMetadata recordBatch parser.timeColumnName
  setMeasurementColumnNameMetadata timed parser.measurementColumnName

def buildRecordBatches (now : Int) : Parse (List RecordBatch) := do
  let metrics := (← get).parsedMetrics
  let tags := tagNames metrics
  let fieldsTypes ← determineFieldsTypes visitFields metrics
  let rows ← metrics.mapM (metricRow now tags fieldsTypes)
  let recordBatch ← ofExcept
    (nameColumns parser (finishBuilders (resultFields parser tags fieldsTypes) rows))
  modify fun state => { state with parsedMetrics := [] }
  return [recordBatch]

def parseRecordBatches (now : Int) (buffer : String) : Parse (List RecordBatch) :=
  let metricStrings := split buffer "\n"
  if metricStrings = [] then pure []
  else do
    parseMetricStrings parser metricStrings
    buildRecordBatches visitFields parser now

end Parse

end StreamDataProcessor.Parsers.Graphite
