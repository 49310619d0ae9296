import StreamDataProcessor.Kapacitor.GroupingUtils
import StreamDataProcessor.Kapacitor.Points

/-!
# Points to record batches and back

`BasePointsConverter`. The rendering of scalars that are not text, which only
`Scalar::ToString` decides, is a parameter, and so is the order in which the
unordered map of groups is visited.
-/

namespace StreamDataProcessor.Kapacitor.PointsConverter

open Foundation.Binary64 Arrow Metadata

set_option autoImplicit false

/-- `PointsToRecordBatchesConversionOptions`. -/
structure ConversionOptions where
  timeColumnName : String
  measurementColumnName : String

/-- `DEFAULT_TO_RECORD_BATCHES_OPTIONS` of the request handlers. -/
def defaultToRecordBatchesOptions : ConversionOptions := ⟨"time", "name"⟩

/-- One of the maps of a point, with the columns that its entries go to. -/
structure FieldKind (T : Type) where
  entries : Point → FieldMap T
  value : T → Value
  type : DataType
  columnType : ColumnType
  admits : ∀ entry, type.admits (some (value entry)) = true

def tagsKind : FieldKind String := ⟨Point.tags, .string, .utf8, .tag, fun _ => rfl⟩

def intsKind : FieldKind Int := ⟨Point.fieldsInt, .integer, .int64, .field, fun _ => rfl⟩

def doublesKind : FieldKind Double := ⟨Point.fieldsDouble, .double, .double, .field, fun _ => rfl⟩

def stringsKind : FieldKind String := ⟨Point.fieldsString, .string, .utf8, .field, fun _ => rfl⟩

def boolsKind : FieldKind Bool := ⟨Point.fieldsBool, .boolean, .boolean, .field, fun _ => rfl⟩

/-- The names that occur in the points, each once and in the order of a map. -/
def sortedNames (names : Point → List String) (points : List Point) : List String :=
  (points.flatMap names).dedup.insertionSort (· ≤ ·)

section Kind

variable {T : Type} (kind : FieldKind T)

/-- The names for which `addBuilders` leaves builders. -/
def FieldKind.builderNames (points : List Point) : List String :=
  sortedNames (fun point => (kind.entries point).keys) points

/-- What `appendValues` appends to the builder of a name for one point. -/
def FieldKind.cell (name : String) (point : Point) : Scalar :=
  (kind.entries point)[name]?.map kind.value

theorem FieldKind.cell_admitted (name : String) (point : Point) :
    kind.type.admits (kind.cell name point) = true := by
  unfold FieldKind.cell
  cases (kind.entries point)[name]? with
  | none => exact DataType.admits_null _
  | some entry => exact kind.admits entry

end Kind

structure ColumnBuilder where
  field : Field
  append : Point → Scalar
  admitted : ∀ point, field.type.admits (append point) = true

def ColumnBuilder.finish (builder : ColumnBuilder) (points : List Point) : Column where
  type := builder.field.type
  cells := points.map builder.append
  conforms := by
    intro cell member
    obtain ⟨point, _, rfl⟩ := List.mem_map.mp member
    exact builder.admitted point

def columnField (name : String) (type : DataType) (columnType : ColumnType) : Field :=
  { name := name, type := type, metadata := { columnType := some columnType } }

def FieldKind.builders {T : Type} (kind : FieldKind T) (points : List Point) :
    List ColumnBuilder :=
  (kind.builderNames points).map fun name =>
    ⟨columnField name kind.type kind.columnType, kind.cell name, kind.cell_admitted name⟩

def columnBuilders (options : ConversionOptions) (points : List Point) : List ColumnBuilder :=
  ⟨columnField options.timeColumnName (.timestamp .nano) .time,
      fun point => some (.integer point.time), fun _ => rfl⟩ ::
    ⟨columnField options.measurementColumnName .utf8 .measurement,
      fun point => some (.string point.name), fun _ => rfl⟩ ::
    (tagsKind.builders points ++ intsKind.builders points ++ doublesKind.builders points ++
      stringsKind.builders points ++ boolsKind.builders points)

def convertPointsGroup (options : ConversionOptions) (groupString : String)
    (points : List Point) : Outcome RecordBatch :=
  let builders := columnBuilders options points
  let recordBatch := RecordBatch.make { fields := builders.map ColumnBuilder.field }
    points.length (builders.map fun builder => builder.finish points)
  match GroupingUtils.parse groupString options.measurementColumnName with
  | none => fail .invalid s!"Error while parsing group string: {groupString}"
  | some group => do
      let timed ← setTimeColumnNameMetadata (setGroupMetadata recordBatch group)
        options.timeColumnName
      setMeasurementColumnNameMetadata timed options.measurementColumnName

def pointsOf (groupString : String) (points : List Point) : List Point :=
  points.filter fun point => point.group = groupString

/-- `convertToRecordBatches`, with the groups visited in the given order. -/
def convertToRecordBatches (options : ConversionOptions) (order : List String)
    (points : List Point) : Outcome (List RecordBatch) :=
  order.mapM fun groupString =>
    convertPointsGroup options groupString (pointsOf groupString points)

section ToPoints

variable (renderScalar : DataType → Value → String)

def newPoint (group : RecordBatchGroup) (groupString measurementColumnName : String) : Point :=
  group.groupColumnsNames.foldl (fun point groupingColumn =>
    if groupingColumn = measurementColumnName then { point with byName := true }
    else { point with dimensions := point.dimensions ++ [groupingColumn] })
    { group := groupString }

/-- What the cell of a column does to the point of its row; nothing comes back where the
rest of the column is skipped. -/
def setCell (columnName : String) (columnType : ColumnType) (type : DataType) (cell : Scalar)
    (point : Point) : Outcome (Option Point) :=
  match columnType with
  | .measurement => .ok (some { point with name := scalarToString renderScalar type cell })
  | .time => do
      let timestamp ← castTimestampScalar type cell .nano
      return some { point with time := integerValue timestamp }
  | .tag => .ok (some { point with
      tags := point.tags.insert columnName (scalarToString renderScalar type cell) })
  | .field =>
      match type with
      | .int64 => .ok (some { point with
          fieldsInt := point.fieldsInt.insert columnName (integerValue cell) })
      | .double => .ok (some { point with
          fieldsDouble := point.fieldsDouble.insert columnName (doubleValue cell) })
      | .utf8 => .ok (some { point with
          fieldsString := point.fieldsString.insert columnName
            (scalarToString renderScalar type cell) })
      | .boolean => .ok (some { point with
          fieldsBool := point.fieldsBool.insert columnName (booleanValue cell) })
      | .na => .ok (some point)
      | _ => .ok none
  | .unknown => fail .invalid
      s!"Can't convert RecordBatch to points. Found column with UNKNOWN type: {columnName}"

/-- The loop over the cells of one column from a row on; the first column adds the points. -/
def convertCells (fresh : Point) (columnName : String) (columnType : ColumnType)
    (type : DataType) (pointsCount index : Nat) :
    List Point → Nat → List Scalar → Outcome (List Point)
  | points, _, [] => .ok points
  | points, row, cell :: rest => do
      let grown := if index = 0 then points ++ [fresh] else points
      match grown[pointsCount + row]? with
      | none => .error (.undefined "point index out of range")
      | some point => do
          match ← setCell renderScalar columnName columnType type cell point with
          | none => return grown
          | some changed =>
              convertCells fresh columnName columnType type pointsCount index
                (grown.set (pointsCount + row) changed) (row + 1) rest

/-- The loop over the columns from an index on, with the columns left. -/
def convertColumns (fresh : Point) (columnTypes : List (String × ColumnType))
    (recordBatch : RecordBatch) (pointsCount : Nat) :
    List Point → Nat → List Field → Outcome (List Point)
  | points, _, [] => .ok points
  | points, index, field :: rest => do
      let columnType := (columnTypes.lookup field.name).getD .unknown
      let cells := recordBatch.rows.map fun row => row.getD index none
      let converted ← convertCells renderScalar fresh field.name columnType field.type pointsCount
        index points 0 cells
      convertColumns fresh columnTypes recordBatch pointsCount converted (index + 1) rest

def convertRecordBatch (points : List Point) (pointsCount : Nat) (recordBatch : RecordBatch) :
    Outcome (List Point) := do
  let _ ← getTimeColumnNameMetadata recordBatch
  let measurementColumnName ← getMeasurementColumnNameMetadata recordBatch
  let columnTypes ← getColumnTypes recordBatch
  let group := extractGroup recordBatch
  let groupString := GroupingUtils.encode group measurementColumnName columnTypes
  convertColumns renderScalar (newPoint group groupString measurementColumnName) columnTypes
    recordBatch pointsCount points 0 recordBatch.schema.fields

def convertBatches : List Point → Nat → List RecordBatch → Outcome (List Point)
  | points, _, [] => .ok points
  | points, pointsCount, recordBatch :: rest => do
      let converted ← convertRecordBatch renderScalar points pointsCount recordBatch
      convertBatches converted (pointsCount + recordBatch.numRows) rest

def convertToPoints (recordBatches : List RecordBatch) : Outcome (List Point) :=
  convertBatches renderScalar [] 0 recordBatches

end ToPoints

end StreamDataProcessor.Kapacitor.PointsConverter
