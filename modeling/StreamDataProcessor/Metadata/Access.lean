import StreamDataProcessor.Arrow.Table
import StreamDataProcessor.Foundation.Effect

/-!
# Reading and writing the metadata of a record batch

`metadata/help.cpp`, `column_typing.cpp`, `time_metadata.cpp` and the accessors
of `grouping.cpp`.
-/

namespace StreamDataProcessor.Metadata

open Arrow

set_option autoImplicit false

/-- The batch with the metadata of one field replaced (`help::replaceField`). -/
def updateFieldMetadata (batch : RecordBatch) (index : Nat)
    (update : FieldMetadata → FieldMetadata) : RecordBatch where
  schema := { batch.schema with
    fields := batch.schema.fields.modify index fun field =>
      { field with metadata := update field.metadata } }
  rows := batch.rows
  conforms := by
    have types : Schema.types { batch.schema with
        fields := batch.schema.fields.modify index fun field =>
          { field with metadata := update field.metadata } } = batch.schema.types := by
      apply List.ext_getElem?
      intro position
      simp only [Schema.types, List.getElem?_map, List.getElem?_modify]
      cases batch.schema.fields[position]? with
      | none => rfl
      | some field => by_cases same : index = position <;> simp [same]
    rw [types]
    exact batch.conforms

/-- `help::setSchemaMetadata` for any of the keys. -/
def updateSchemaMetadata (batch : RecordBatch)
    (update : SchemaMetadata → SchemaMetadata) : RecordBatch where
  schema := { batch.schema with metadata := update batch.schema.metadata }
  rows := batch.rows
  conforms := batch.conforms

def getColumnNameMetadata (metadata : SchemaMetadata) (key : String)
    (entry : SchemaMetadata → Option String) : Outcome String :=
  if metadata = {} then fail .invalid "RecordBatch has no metadata"
  else match entry metadata with
    | none => fail .keyError s!"RecordBatch's metadata has no key {key}"
    | some name => .ok name

def getTimeColumnNameMetadata (batch : RecordBatch) : Outcome String :=
  getColumnNameMetadata batch.schema.metadata "time_column_name"
    SchemaMetadata.timeColumnName

def getMeasurementColumnNameMetadata (batch : RecordBatch) : Outcome String :=
  getColumnNameMetadata batch.schema.metadata "measurement_column_name"
    SchemaMetadata.measurementColumnName

def getColumnType (field : Field) : ColumnType := field.metadata.columnType.getD .unknown

def setColumnTypeMetadata (batch : RecordBatch) (columnName : String) (type : ColumnType) :
    Outcome RecordBatch :=
  match batch.schema.fieldIndex columnName with
  | none => fail .keyError s!"No such column: {columnName}"
  | some index =>
      .ok (updateFieldMetadata batch index fun metadata =>
        { metadata with columnType := some type })

def setColumnNameMetadata (batch : RecordBatch) (columnName metadataKey : String)
    (arrowColumnType : DataType → Bool) (arrowTypeName : String) (columnType : ColumnType)
    (record : SchemaMetadata → SchemaMetadata) : Outcome RecordBatch :=
  match batch.getColumnByName columnName with
  | none => fail .keyError s!"No such column to set {metadataKey} metadata: {columnName}"
  | some column =>
      if arrowColumnType column.type then do
        let typed ← setColumnTypeMetadata batch columnName columnType
        return updateSchemaMetadata typed record
      else fail .invalid s!"Column {columnName} must have {arrowTypeName} arrow type"

theorem update_field_metadata_same {batch : RecordBatch} {index : Nat} {field : Field}
    {update : FieldMetadata → FieldMetadata} (found : batch.schema.fields[index]? = some field)
    (same : update field.metadata = field.metadata) :
    updateFieldMetadata batch index update = batch := by
  have fields : batch.schema.fields.modify index (fun field =>
      { field with metadata := update field.metadata }) = batch.schema.fields := by
    apply List.ext_getElem?
    intro position
    rw [List.getElem?_modify]
    by_cases at_index : index = position
    · subst at_index
      simp [found, same]
    · simp [at_index]
  exact RecordBatch.ext_rows (congrArg (Schema.mk · batch.schema.metadata) fields) rfl

theorem set_column_name_metadata_typed {batch : RecordBatch} {index : Nat} {field : Field}
    {metadataKey arrowTypeName : String} {arrowColumnType : DataType → Bool}
    {columnType : ColumnType} {record : SchemaMetadata → SchemaMetadata}
    (located : batch.schema.fieldIndex field.name = some index)
    (found : batch.schema.fields[index]? = some field)
    (accepted : arrowColumnType field.type = true)
    (typed : field.metadata.columnType = some columnType) :
    setColumnNameMetadata batch field.name metadataKey arrowColumnType arrowTypeName columnType
      record = .ok (updateSchemaMetadata batch record) := by
  have column := get_column_by_name_eq batch located
    (show batch.schema.types[index]? = some field.type by
      rw [Schema.types, List.getElem?_map, found, Option.map_some])
  have same : updateFieldMetadata batch index
      (fun metadata => { metadata with columnType := some columnType }) = batch :=
    update_field_metadata_same found (by rw [← typed])
  simp only [setColumnNameMetadata, column, accepted, if_true, setColumnTypeMetadata, located,
    same, bind, Except.bind, pure, Except.pure]

theorem column_located_of_set {batch after : RecordBatch} {name metadataKey arrowTypeName : String}
    {arrowColumnType : DataType → Bool} {columnType : ColumnType}
    {record : SchemaMetadata → SchemaMetadata}
    (returned : setColumnNameMetadata batch name metadataKey arrowColumnType arrowTypeName columnType
      record = .ok after) : batch.schema.fieldNames.count name = 1 := by
  cases located : batch.schema.fieldIndex name with
  | none =>
      rw [setColumnNameMetadata, get_column_by_name_none batch located] at returned
      cases returned
  | some index =>
      unfold Schema.fieldIndex at located
      split at located
      · assumption
      · cases located

theorem update_field_metadata_keeps (batch : RecordBatch) (index : Nat)
    (update : FieldMetadata → FieldMetadata) :
    (updateFieldMetadata batch index update).schema.fieldNames = batch.schema.fieldNames ∧
      (updateFieldMetadata batch index update).schema.types = batch.schema.types := by
  constructor
  all_goals
    apply List.ext_getElem?
    intro position
    simp only [updateFieldMetadata, Schema.fieldNames, Schema.types, List.getElem?_map,
      List.getElem?_modify]
    cases batch.schema.fields[position]? with
    | none => rfl
    | some field => by_cases same : index = position <;> simp [same]

theorem set_column_name_keeps {batch after : RecordBatch} {name metadataKey arrowTypeName : String}
    {arrowColumnType : DataType → Bool} {columnType : ColumnType}
    {record : SchemaMetadata → SchemaMetadata}
    (returned : setColumnNameMetadata batch name metadataKey arrowColumnType arrowTypeName columnType
      record = .ok after) :
    after.rows = batch.rows ∧ after.schema.fieldNames = batch.schema.fieldNames ∧
      after.schema.types = batch.schema.types := by
  unfold setColumnNameMetadata at returned
  split at returned
  · cases returned
  · split at returned
    · obtain ⟨typed, written, returned⟩ := Foundation.Effect.except_bind_ok_cases returned
      cases returned
      unfold setColumnTypeMetadata at written
      split at written
      · cases written
      · next index _ =>
        cases written
        have kept := update_field_metadata_keeps batch index fun metadata =>
          { metadata with columnType := some columnType }
        exact ⟨rfl, kept⟩
    · cases returned

theorem lookup_zip_index {names : List String} {types : List DataType}
    (lengths : names.length = types.length) (name : String) :
    (names.zip types).lookup name = types[names.idxOf name]? := by
  induction names generalizing types with
  | nil =>
      rw [List.zip_nil_left, List.lookup_nil, List.idxOf_nil]
      exact (List.getElem?_eq_none (Nat.le_of_eq lengths.symm)).symm
  | cons first rest induction =>
      cases types with
      | nil => cases lengths
      | cons type types =>
          rw [List.zip_cons_cons]
          by_cases same : first = name
          · subst same
            rw [List.lookup_cons_self, List.idxOf_cons_self, List.getElem?_cons_zero]
          · rw [List.lookup_cons, beq_false_of_ne (Ne.symm same), List.idxOf_cons_ne _ same,
              List.getElem?_cons_succ]
            exact induction (Nat.succ.inj lengths)

/-- A column gets its name in the metadata just when it is the only one of the name and its type
is accepted. -/
theorem set_column_name_returns_iff {batch : RecordBatch}
    {name metadataKey arrowTypeName : String} {arrowColumnType : DataType → Bool}
    {columnType : ColumnType} {record : SchemaMetadata → SchemaMetadata} :
    (∃ after, setColumnNameMetadata batch name metadataKey arrowColumnType arrowTypeName columnType
      record = .ok after) ↔ batch.schema.fieldNames.count name = 1 ∧
        ∃ type ∈ (batch.schema.fieldNames.zip batch.schema.types).lookup name,
          arrowColumnType type = true := by
  have lengths : batch.schema.fieldNames.length = batch.schema.types.length := by
    rw [Schema.fieldNames, Schema.types, List.length_map, List.length_map]
  rw [lookup_zip_index lengths]
  by_cases unique : batch.schema.fieldNames.count name = 1
  · have located : batch.schema.fieldIndex name = some (batch.schema.fieldNames.idxOf name) := by
      rw [Schema.fieldIndex, if_pos unique]
    obtain ⟨type, typed⟩ := field_index_bound located
    have column := get_column_by_name_eq batch located typed
    simp only [setColumnNameMetadata, column, setColumnTypeMetadata, located, typed, unique,
      Option.mem_def, Option.some.injEq, exists_eq_left', true_and]
    cases arrowColumnType type with
    | true => exact iff_of_true ⟨_, rfl⟩ rfl
    | false =>
        apply iff_of_false
        · rintro ⟨after, returned⟩
          cases returned
        · exact Bool.false_ne_true
  · constructor
    · rintro ⟨after, returned⟩
      exact ⟨column_located_of_set returned, absurd (column_located_of_set returned) unique⟩
    · rintro ⟨isUnique, _⟩
      exact absurd isUnique unique

def isTimestampType : DataType → Bool
  | .timestamp _ => true
  | _ => false

def setTimeColumnNameMetadata (batch : RecordBatch) (timeColumnName : String) :
    Outcome RecordBatch :=
  setColumnNameMetadata batch timeColumnName "time_column_name" isTimestampType "TIMESTAMP"
    .time fun metadata => { metadata with timeColumnName := some timeColumnName }

def setMeasurementColumnNameMetadata (batch : RecordBatch) (measurementColumnName : String) :
    Outcome RecordBatch :=
  setColumnNameMetadata batch measurementColumnName "measurement_column_name"
    (fun type => type = .utf8) "STRING" .measurement
    fun metadata => { metadata with measurementColumnName := some measurementColumnName }

def setGroupMetadata (batch : RecordBatch) (group : RecordBatchGroup) : RecordBatch :=
  updateSchemaMetadata batch fun metadata => { metadata with group := some group }

/-- `extractGroup`, and `extractGroupMetadata` with the group standing for its
serialised bytes: a missing key reads as the empty group. -/
def extractGroup (batch : RecordBatch) : RecordBatchGroup :=
  batch.schema.metadata.group.getD {}

/-- `constructGroupFromOrderedMap`: the columns in the order of their names. -/
def constructGroupFromOrderedMap (groupMap : Std.ExtTreeMap String String) :
    RecordBatchGroup where
  groupColumnsNames := groupMap.toList.map Prod.fst
  groupColumnsValues := groupMap.toList.map Prod.snd

def getColumnTypesFrom (seen : List String) :
    List Field → Outcome (List (String × ColumnType))
  | [] => .ok []
  | field :: rest =>
      if field.name ∈ seen then
        fail .keyError s!"Duplicate of column names: {field.name}"
      else do
        let others ← getColumnTypesFrom (field.name :: seen) rest
        return (field.name, getColumnType field) :: others

def getColumnTypes (batch : RecordBatch) : Outcome (List (String × ColumnType)) :=
  getColumnTypesFrom [] batch.schema.fields

theorem get_column_types_from_nodup (seen : List String) (fields : List Field)
    (distinct : (fields.map Field.name).Nodup)
    (unseen : ∀ field ∈ fields, field.name ∉ seen) :
    getColumnTypesFrom seen fields =
      .ok (fields.map fun field => (field.name, getColumnType field)) := by
  induction fields generalizing seen with
  | nil => rfl
  | cons field rest induction =>
      rw [List.map_cons, List.nodup_cons] at distinct
      have others := induction (field.name :: seen) distinct.2 (by
        intro other member
        simp only [List.mem_cons, not_or]
        refine ⟨?_, unseen other (by simp [member])⟩
        intro same
        exact distinct.1 (same ▸ List.mem_map_of_mem member))
      rw [getColumnTypesFrom, if_neg (unseen field (by simp)), others]
      rfl

theorem column_name_of_ok {metadata : SchemaMetadata} {key name : String}
    {entry : SchemaMetadata → Option String}
    (found : getColumnNameMetadata metadata key entry = .ok name) : entry metadata = some name := by
  unfold getColumnNameMetadata at found
  split at found
  · cases found
  · cases present : entry metadata with
    | none =>
        rw [present] at found
        cases found
    | some own =>
        rw [present] at found
        exact congrArg some (Except.ok.inj found)

theorem column_types_from_of_ok {seen : List String} {fields : List Field}
    {columnTypes : List (String × ColumnType)}
    (returned : getColumnTypesFrom seen fields = .ok columnTypes) :
    (fields.map Field.name).Nodup ∧ (∀ field ∈ fields, field.name ∉ seen) ∧
      columnTypes = fields.map fun field => (field.name, getColumnType field) := by
  induction fields generalizing seen columnTypes with
  | nil => exact ⟨List.nodup_nil, by simp, (Except.ok.inj returned).symm⟩
  | cons field rest induction =>
      rw [getColumnTypesFrom] at returned
      split at returned
      · cases returned
      · next unseen =>
        obtain ⟨columns, own, same⟩ := Foundation.Effect.except_bind_ok_cases returned
        obtain ⟨nodup, apart, isMap⟩ := induction own
        have fresh : field.name ∉ rest.map Field.name := by
          intro member
          obtain ⟨other, inRest, same⟩ := List.mem_map.mp member
          exact apart other inRest (by simp [same])
        have elsewhere : ∀ other ∈ field :: rest, other.name ∉ seen := by
          intro other member
          rcases List.mem_cons.mp member with rfl | inRest
          · exact unseen
          · exact fun inSeen => apart other inRest (List.mem_cons_of_mem _ inSeen)
        refine ⟨by rw [List.map_cons, List.nodup_cons]; exact ⟨fresh, nodup⟩, elsewhere, ?_⟩
        rw [← Except.ok.inj same, isMap, List.map_cons]

def timeCompatible : DataType → Bool
  | .duration _ | .timestamp _ => true
  | .int8 | .int16 | .int32 | .int64 | .uint8 | .uint16 | .uint32 | .uint64 => true
  | _ => false

def mapArrowTimeUnit : Arrow.TimeUnit → TimeUnit
  | .second => .second
  | .milli => .milli
  | .micro => .micro
  | .nano => .nano

/-- The value of `arrow::TimeUnit::type` for a time type. -/
def arrowUnitCode : DataType → Nat
  | .duration unit | .timestamp unit => unit.ctorIdx
  | _ => 0

def setTimeUnitMetadata (batch : RecordBatch) (columnName : String) (unit : TimeUnit) :
    Outcome RecordBatch :=
  match batch.schema.fieldIndex columnName with
  | none => fail .keyError
      s!"No such column or the choice is ambiguous: {columnName}"
  | some index =>
      let type := batch.schema.types.getD index .na
      let own : Option TimeUnit := match type with
        | .duration arrowUnit => some (mapArrowTimeUnit arrowUnit)
        | .timestamp arrowUnit => some (mapArrowTimeUnit arrowUnit)
        | _ => none
      if own.isSome ∧ own ≠ some unit then
        fail .typeError s!"Can't set {unit.ctorIdx} time unit metadata to field with arrow duration {arrowUnitCode type} type"
      else if timeCompatible type then
        .ok (updateFieldMetadata batch index fun metadata =>
          { metadata with timeUnit := some unit })
      else fail .typeError "arrow type is not duration-compatible"

def getTimeUnitMetadata (batch : RecordBatch) (columnName : String) : Outcome TimeUnit :=
  match batch.schema.fieldIndex columnName with
  | none => fail .keyError
      s!"RecordBatch has no such column or it is not unique: {columnName}"
  | some index =>
      match batch.schema.fields[index]? with
      | none => fail .invalid "Field has no metadata"
      | some field =>
          if field.metadata = {} then fail .invalid "Field has no metadata"
          else match field.metadata.timeUnit with
            | none => fail .keyError "Field's metadata has no key time_unit"
            | some unit => .ok unit

end StreamDataProcessor.Metadata
