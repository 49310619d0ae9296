import StreamDataProcessor.Foundation.SortedIndex
import StreamDataProcessor.Foundation.TwosComplement
import StreamDataProcessor.Utils.ArrowUtils
import StreamDataProcessor.Utils.ComputeUtils
import StreamDataProcessor.Utils.TimeUtils

/-!
# The join handler

`join_handler.cpp`. The orders in which the unordered maps of keys and of column builders are
visited are parameters. The map of flags `filled` has the keys of the map of builders, and so
the flags are kept with the builders.
-/

namespace StreamDataProcessor.Handlers.Join

open Foundation Foundation.TwosComplement Arrow Metadata Utils

set_option autoImplicit false

structure JoinKey where
  keyString : String
  time : Int := 0
  deriving DecidableEq, Repr

structure JoinValue where
  recordBatchIdx : Nat
  rowIdx : Nat
  time : Int
  deriving DecidableEq, Repr

/-- `JoinValueCompare`, as the order of which it is the strict part. -/
def joinValueCompare (v1 v2 : JoinValue) : Prop :=
  if v1.time = v2.time then
    if v1.recordBatchIdx = v2.recordBatchIdx then v1.rowIdx ≤ v2.rowIdx
    else v1.recordBatchIdx < v2.recordBatchIdx
  else v1.time < v2.time

instance : DecidableRel joinValueCompare := fun v1 v2 =>
  inferInstanceAs (Decidable (if v1.time = v2.time then
    if v1.recordBatchIdx = v2.recordBatchIdx then v1.rowIdx ≤ v2.rowIdx
    else v1.recordBatchIdx < v2.recordBatchIdx
  else v1.time < v2.time))

/-- An entry of `column_builders`, `column_types` and `filled`. -/
structure ColumnBuilder where
  name : String
  type : DataType
  cells : List Scalar := []
  filled : Bool := false

/-- An append of a row's scalar to a builder of the type that the column had first. -/
def appendScalar (builderType rowType : DataType) (value : Scalar) : Outcome Scalar :=
  match rowType with
  | .timestamp unit =>
      match builderType with
      | .timestamp _ => appendToTimestampBuilder unit rowType value
      | _ => .error (.undefined "a builder is used as one of another type")
  | _ =>
      if buildable rowType ∧ builderType ≠ rowType then
        .error (.undefined "a builder is used as one of another type")
      else appendToBuilder rowType rowType value

def createBuilder (builders : List ColumnBuilder) (field : Field) :
    Outcome (List ColumnBuilder) :=
  if field.name ∈ builders.map ColumnBuilder.name then .ok builders
  else if buildable field.type then .ok (builders ++ [{ name := field.name, type := field.type }])
  else fail .notImplemented ("Step-by-step array building currently supports one of " ++
    "\x7barrow::int64, arrow::float64, arrow::utf8, arrow::boolean, types fields only")

section Key

variable (renderScalar : DataType → Value → String)

def joinScalarText (recordBatch : RecordBatch) (rowIdx : Nat) (joinColumnName : String) :
    Outcome String :=
  match recordBatch.getColumnByName joinColumnName with
  | none => .error (.undefined "a null column is dereferenced")
  | some column => do
      let value ← column.getScalar rowIdx
      return joinColumnName ++ "=" ++ scalarToString renderScalar column.type value ++ ","

def joinTime (recordBatch : RecordBatch) (rowIdx : Nat) (timeColumnName : String) :
    Outcome Int :=
  match recordBatch.getColumnByName timeColumnName with
  | none => fail .invalid s!"Time column with name {timeColumnName} should be presented"
  | some timeColumn => do
      let value ← timeColumn.getScalar rowIdx
      match timeColumn.type with
      | .timestamp _ => do
          let seconds ← castTimestampScalar timeColumn.type value .second
          return integerValue seconds
      | .int64 => do
          let unit ← getTimeUnitMetadata recordBatch timeColumnName
          convertTime (integerValue value) unit .second
      | _ => fail .notImplemented ("JoinHandler currently supports arrow::Type::INT64 type as " ++
          "non-timestamp time column's type only")

def getJoinKey (joinOnColumns : List String) (recordBatch : RecordBatch) (rowIdx : Nat)
    (timeColumnName : String) : Outcome JoinKey := do
  let texts ← joinOnColumns.mapM (joinScalarText renderScalar recordBatch rowIdx)
  let time ← joinTime recordBatch rowIdx timeColumnName
  return ⟨String.join texts, time⟩

end Key

/-- The values of the rows with a key string, in the order of the set they are in. -/
abbrev KeysToRows := List (String × List JoinValue)

def insertRow (keysToRows : KeysToRows) (keyString : String) (value : JoinValue) : KeysToRows :=
  SortedIndex.insert joinValueCompare keysToRows keyString value

structure Collected where
  columnBuilders : List ColumnBuilder := []
  keysToRows : KeysToRows := []

section Handle

variable (renderScalar : DataType → Value → String)

def collectBatch (joinOnColumns : List String) (timeColumnName : String) (collected : Collected)
    (entry : RecordBatch × Nat) : Outcome Collected := do
  let (recordBatch, index) := entry
  let columnBuilders ← recordBatch.schema.fields.foldlM createBuilder collected.columnBuilders
  let keysToRows ← (List.range recordBatch.numRows).foldlM (fun keysToRows rowIdx => do
    let joinKey ← getJoinKey renderScalar joinOnColumns recordBatch rowIdx timeColumnName
    return insertRow keysToRows joinKey.keyString ⟨index, rowIdx, joinKey.time⟩)
    collected.keysToRows
  return ⟨columnBuilders, keysToRows⟩

def collect (joinOnColumns : List String) (timeColumnName : String)
    (recordBatches : List RecordBatch) : Outcome Collected :=
  recordBatches.zipIdx.foldlM (collectBatch renderScalar joinOnColumns timeColumnName) {}

/-- The column builders with the number of rows that are finished. -/
structure JoinTable where
  columnBuilders : List ColumnBuilder
  rowCount : Nat := 0

/-- The end of an output row: nulls where it has no cell yet. -/
def ColumnBuilder.finishRow (builder : ColumnBuilder) : ColumnBuilder :=
  if builder.filled then { builder with filled := false }
  else { builder with cells := builder.cells ++ [none] }

def ColumnBuilder.resetFilled (builder : ColumnBuilder) : ColumnBuilder :=
  { builder with filled := false }

def JoinTable.resetFilled (table : JoinTable) : JoinTable :=
  { table with columnBuilders := table.columnBuilders.map ColumnBuilder.resetFilled }

def JoinTable.finishRow (table : JoinTable) : JoinTable :=
  ⟨table.columnBuilders.map ColumnBuilder.finishRow, table.rowCount + 1⟩

/-- The cell of a row in a field of its batch, appended unless the column is filled. -/
def ColumnBuilder.fill (recordBatch : RecordBatch) (rowIdx : Nat) (field : Field × Nat)
    (builder : ColumnBuilder) : Outcome ColumnBuilder :=
  if builder.filled then .ok builder
  else match recordBatch.column field.2 with
    | none => .error (.undefined "a column past the last one is dereferenced")
    | some column => do
        let value ← column.getScalar rowIdx
        let cell ← appendScalar builder.type field.1.type value
        return { builder with cells := builder.cells ++ [cell], filled := true }

def appendField (recordBatch : RecordBatch) (rowIdx : Nat) (builders : List ColumnBuilder)
    (field : Field × Nat) : Outcome (List ColumnBuilder) :=
  match builders.find? fun builder => builder.name = field.1.name with
  | none => .error (.undefined "a null builder is dereferenced")
  | some builder => do
      let filled ← builder.fill recordBatch rowIdx field
      return builders.map fun own => if own.name = builder.name then filled else own

def appendRow (recordBatches : List RecordBatch) (builders : List ColumnBuilder)
    (value : JoinValue) : Outcome (List ColumnBuilder) :=
  match recordBatches[value.recordBatchIdx]? with
  | none => .error (.undefined "a batch past the last one is read")
  | some recordBatch =>
      recordBatch.schema.fields.zipIdx.foldlM (appendField recordBatch value.rowIdx) builders

/-- A turn of the loop over the values of a key, with the time of the current output row. -/
def joinValue (tolerance : Int) (recordBatches : List RecordBatch) (current : Int × JoinTable)
    (value : JoinValue) : Outcome (Int × JoinTable) := do
  let (lastTs, table) := if tolerance < absoluteDifference value.time current.1 then
    (value.time, current.2.finishRow) else current
  let columnBuilders ← appendRow recordBatches table.columnBuilders value
  return (lastTs, { table with columnBuilders })

def joinKeyRows (tolerance : Int) (recordBatches : List RecordBatch) (table : JoinTable)
    (joinedValues : String × List JoinValue) : Outcome JoinTable :=
  match joinedValues.2 with
  | [] => .ok table
  | first :: rest => do
      let (_, joined) ← (first :: rest).foldlM (joinValue tolerance recordBatches)
        (first.time, table.resetFilled)
      return joined.finishRow

/-- `RecordBatch::Make` of the finished arrays; arrays of other lengths are not modelled. -/
def JoinTable.make (table : JoinTable) : Outcome RecordBatch :=
  if ∀ builder ∈ table.columnBuilders, builder.cells.length = table.rowCount then
    .ok (RecordBatch.make
      { fields := table.columnBuilders.map fun builder =>
          { name := builder.name, type := builder.type } }
      table.rowCount (table.columnBuilders.map fun builder =>
        Column.build builder.type builder.cells))
  else .error (.undefined "the arrays of a batch are not as long as it is")

def handle (visitKeys : KeysToRows → KeysToRows)
    (visitColumns : List ColumnBuilder → List ColumnBuilder) (joinOnColumns : List String)
    (tolerance : Int) (recordBatches : List RecordBatch) : Outcome (List RecordBatch) :=
  match recordBatches with
  | [] => .ok []
  | front :: _ => do
      let timeColumnName ← getTimeColumnNameMetadata front
      let collected ← collect renderScalar joinOnColumns timeColumnName recordBatches
      let table ← (visitKeys collected.keysToRows).foldlM (joinKeyRows tolerance recordBatches)
        { columnBuilders := collected.columnBuilders }
      let joined ← { table with columnBuilders := visitColumns table.columnBuilders }.make
      let sorted ← sortByColumn timeColumnName joined
      let result ← setTimeColumnNameMetadata sorted timeColumnName
      return [result]

def handleBatch (visitKeys : KeysToRows → KeysToRows)
    (visitColumns : List ColumnBuilder → List ColumnBuilder) (joinOnColumns : List String)
    (tolerance : Int) (recordBatch : RecordBatch) : Outcome (List RecordBatch) :=
  handle renderScalar visitKeys visitColumns joinOnColumns tolerance [recordBatch]

end Handle

end StreamDataProcessor.Handlers.Join
