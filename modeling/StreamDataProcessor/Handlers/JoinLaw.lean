import StreamDataProcessor.Handlers.JoinCollect
import Mathlib.Data.List.Perm.Basic
import Mathlib.Order.WithBot

/-!
# What a join returns

One row for each cluster of the rows with a key string, in the order of their times. A cell is
what an append makes of the first row of the cluster that has the column.
-/

namespace StreamDataProcessor.Handlers.Join

open Foundation Foundation.Effect Foundation.Clusters Arrow Metadata Utils

set_option autoImplicit false

def joinClusters (tolerance : Int) (keyed : List (String × JoinValue)) :
    List (List JoinValue) :=
  (keyed.map Prod.fst).dedup.flatMap fun keyString =>
    keyClusters tolerance (SortedIndex.valuesOf joinValueCompare keyed keyString)

theorem mem_join_clusters {tolerance : Int} {keyed : List (String × JoinValue)}
    {cluster : List JoinValue}
    (listed : cluster ∈ joinClusters tolerance keyed) :
    ∃ keyString, ∀ value ∈ cluster, (keyString, value) ∈ keyed := by
  obtain ⟨keyString, _, member⟩ := List.mem_flatMap.mp listed
  refine ⟨keyString, fun value inCluster => ?_⟩
  exact SortedIndex.mem_values_of.mp (mem_of_mem_clusters _ _ member inCluster)

theorem visited_perm {tolerance : Int} {keyed : List (String × JoinValue)}
    {keysToRows visited : KeysToRows} (holds : SortedIndex.Holds joinValueCompare keyed keysToRows)
    (perm : visited.Perm keysToRows) :
    (visitedClusters tolerance visited).Perm (joinClusters tolerance keyed) := by
  apply ((perm.trans (SortedIndex.holds_perm holds)).flatMap_right _).trans
  rw [List.flatMap_map]
  exact .refl _

section Rows

variable {renderScalar : DataType → Value → String} {joinOnColumns : List String}
  {timeColumnName : String} {recordBatches : List RecordBatch} {collected : Collected}
  {keyed : List (String × JoinValue)}

theorem mem_indexed_rows {row : IndexedRow} : row ∈ indexedRows recordBatches ↔
    recordBatches[row.2.1]? = some row.1 ∧ row.2.2 < row.1.rows.length := by
  unfold indexedRows
  rw [List.mem_flatMap]
  constructor
  · rintro ⟨⟨recordBatch, index⟩, listed, member⟩
    obtain ⟨rowIdx, bound, rfl⟩ := List.mem_map.mp member
    exact ⟨List.mk_mem_zipIdx_iff_getElem?.mp listed, List.mem_range.mp bound⟩
  · rintro ⟨found, bound⟩
    refine ⟨(row.1, row.2.1), List.mk_mem_zipIdx_iff_getElem?.mpr found, ?_⟩
    exact List.mem_map.mpr ⟨row.2.2, List.mem_range.mpr bound, rfl⟩

theorem keyed_row_ok {row : IndexedRow} {entry : String × JoinValue}
    (returned : keyedRow renderScalar joinOnColumns timeColumnName row = .ok entry) :
    ∃ joinKey, getJoinKey renderScalar joinOnColumns row.1 row.2.2 timeColumnName =
      .ok joinKey ∧ entry = (joinKey.keyString, ⟨row.2.1, row.2.2, joinKey.time⟩) := by
  obtain ⟨joinKey, read, returned⟩ := except_bind_ok_cases returned
  exact ⟨joinKey, read, (Except.ok.inj returned).symm⟩

theorem keyed_in_range
    (rows : keyedRows renderScalar joinOnColumns timeColumnName recordBatches = .ok keyed) :
    ∀ entry ∈ keyed, InRange recordBatches entry.2 := by
  intro entry member
  obtain ⟨row, listed, converted⟩ := mem_of_map_m rows member
  obtain ⟨joinKey, _, rfl⟩ := keyed_row_ok converted
  obtain ⟨found, bound⟩ := mem_indexed_rows.mp listed
  exact ⟨row.1, found, bound⟩

theorem collects_in_range (collects : Collects renderScalar joinOnColumns timeColumnName
    recordBatches collected keyed) : AllInRange recordBatches collected.keysToRows := by
  intro entry listed value member
  rw [collects.index.values entry listed] at member
  exact keyed_in_range collects.rows _ (SortedIndex.mem_values_of.mp member)

theorem collects_covers (collects : Collects renderScalar joinOnColumns timeColumnName
    recordBatches collected keyed) :
    Covers (collected.columnBuilders.map ColumnBuilder.name) recordBatches := by
  intro recordBatch listed field member
  rw [collects.created.named]
  exact List.mem_map_of_mem (List.mem_flatMap.mpr ⟨recordBatch, listed, member⟩)

end Rows

section Columns

variable {recordBatches : List RecordBatch}

theorem source_admits {name : String} {value : JoinValue} {type : DataType} {scalar : Scalar}
    (found : sourceCell recordBatches name value = some (type, scalar)) :
    type.admits scalar = true := by
  obtain ⟨recordBatch, _, located⟩ := Option.bind_eq_some_iff.mp found
  obtain ⟨field, first, same⟩ := Option.map_eq_some_iff.mp located
  cases same
  have listed := List.mk_mem_zipIdx_iff_getElem?.mp (List.mem_of_find?_eq_some first)
  have typed : recordBatch.schema.types[field.2]? = some field.1.type := by
    rw [Schema.types, List.getElem?_map, listed, Option.map_some]
  by_cases bound : value.rowIdx < recordBatch.rows.length
  · rw [List.getD_eq_getElem recordBatch.rows _ bound]
    exact row_conforms_cell (recordBatch.conforms _ (List.getElem_mem bound)) typed
  · rw [List.getD_eq_default _ _ (Nat.le_of_not_lt bound)]
    exact DataType.admits_null _

def Fits (builderType rowType : DataType) : Prop :=
  builderType = rowType ∨ isTimestampType builderType = true ∧ isTimestampType rowType = true

/-- What is read of a null scalar of a type, where anything is. -/
def nullValue : DataType → Option Value
  | .int64 | .timestamp _ => some (.integer 0)
  | .double => some (.double (.finite 0))
  | .boolean => some (.boolean false)
  | _ => none

/-- What an append makes of a null scalar. -/
def appendedNull (rowType : DataType) : Outcome Scalar :=
  match nullValue rowType with
  | some value => .ok (some value)
  | none => .error (.undefined "a null buffer is dereferenced")

theorem fits_cases {builderType rowType : DataType} (fits : Fits builderType rowType) :
    (isTimestampType rowType = false ∧ builderType = rowType) ∨
      ∃ own unit, builderType = .timestamp own ∧ rowType = .timestamp unit := by
  cases rowType with
  | timestamp unit =>
      right
      rcases fits with rfl | ⟨stamped, _⟩
      · exact ⟨unit, unit, rfl, rfl⟩
      · cases builderType with
        | timestamp own => exact ⟨own, unit, rfl, rfl⟩
        | _ => cases stamped
  | _ =>
      left
      rcases fits with rfl | ⟨_, stamped⟩
      · exact ⟨rfl, rfl⟩
      · cases stamped

theorem append_timestamp {own unit : Arrow.TimeUnit} {scalar : Scalar}
    (admits : (DataType.timestamp unit).admits scalar = true) :
    appendScalar (.timestamp own) (.timestamp unit) scalar =
      .ok (some (.integer (integerValue scalar))) := by
  cases scalar with
  | none => rfl
  | some value =>
      cases value with
      | integer value =>
          simp only [appendScalar, appendToTimestampBuilder, castTimestampScalar,
            convert_timestamp_same, bind, Except.bind, pure, Except.pure, integerValue]
      | _ => cases admits

theorem append_other {type : DataType} (other : isTimestampType type = false) (scalar : Scalar) :
    appendScalar type type scalar = appendToBuilder type type scalar := by
  cases type <;> first
    | rfl
    | exact absurd other Bool.false_ne_true.symm

theorem append_value {builderType rowType : DataType} {value : Value}
    (able : buildable rowType = true) (fits : Fits builderType rowType)
    (admits : rowType.admits (some value) = true) :
    appendScalar builderType rowType (some value) = .ok (some value) := by
  rcases fits_cases fits with ⟨other, rfl⟩ | ⟨own, unit, rfl, rfl⟩
  · rw [append_other other]
    cases builderType <;> cases value <;> first
      | rfl
      | exact absurd admits Bool.false_ne_true
      | exact absurd able Bool.false_ne_true
      | exact absurd other Bool.false_ne_true.symm
  · rw [append_timestamp admits]
    cases value <;> first
      | rfl
      | exact absurd admits Bool.false_ne_true

theorem append_null {builderType rowType : DataType} (able : buildable rowType = true)
    (fits : Fits builderType rowType) :
    appendScalar builderType rowType none = appendedNull rowType := by
  rcases fits_cases fits with ⟨other, rfl⟩ | ⟨own, unit, rfl, rfl⟩
  · rw [append_other other]
    cases builderType <;> first
      | rfl
      | exact absurd able Bool.false_ne_true
      | exact absurd other Bool.false_ne_true.symm
  · rfl

theorem fits_of_append {builderType rowType : DataType} {scalar cell : Scalar}
    (returned : appendScalar builderType rowType scalar = .ok cell) :
    buildable rowType = true ∧ Fits builderType rowType := by
  unfold appendScalar at returned
  split at returned
  · next unit =>
    split at returned
    · exact ⟨rfl, .inr ⟨rfl, rfl⟩⟩
    · cases returned
  · split at returned
    · cases returned
    · next fits =>
      have able : buildable rowType = true := by
        unfold appendToBuilder at returned
        rw [if_neg (not_not.mpr rfl)] at returned
        split at returned <;> first | rfl | cases returned
      exact ⟨able, .inl (not_not.mp fun other => fits ⟨able, other⟩)⟩

theorem append_scalar_admits {builderType rowType : DataType} {scalar cell : Scalar}
    (admits : rowType.admits scalar = true)
    (returned : appendScalar builderType rowType scalar = .ok cell) :
    builderType.admits cell = true := by
  obtain ⟨able, fits⟩ := fits_of_append returned
  have held : ∀ value, rowType.admits (some value) = true →
      builderType.admits (some value) = true := by
    intro value admits
    rcases fits_cases fits with ⟨_, rfl⟩ | ⟨own, unit, rfl, rfl⟩
    · exact admits
    · cases value <;> exact admits
  cases scalar with
  | some value =>
      rw [append_value able fits admits] at returned
      cases returned
      exact held value admits
  | none =>
      rw [append_null able fits, appendedNull] at returned
      split at returned
      · next value read =>
        cases returned
        apply held
        cases rowType <;> cases read <;> rfl
      · cases returned

theorem cluster_cell_admits {name : String} {type : DataType} {cluster : List JoinValue}
    {cell : Scalar} (returned : clusterCell recordBatches name type cluster = .ok cell) :
    type.admits cell = true := by
  unfold clusterCell at returned
  split at returned
  · cases returned
    exact DataType.admits_null type
  · next rowType scalar found =>
    obtain ⟨value, _, source⟩ := List.exists_of_findSome?_eq_some found
    exact append_scalar_admits (source_admits source) returned

end Columns

section Table

variable {recordBatches : List RecordBatch} {clusters : List (List JoinValue)}

def allFields (recordBatches : List RecordBatch) : List Field :=
  recordBatches.flatMap fun recordBatch => recordBatch.schema.fields

/-- The cells of a row, in columns of these names and types, are those of a cluster. -/
def RowOf (recordBatches : List RecordBatch) (columns : List (String × DataType))
    (cluster : List JoinValue) (row : Row) : Prop :=
  List.Forall₂ (fun column cell =>
    clusterCell recordBatches column.1 column.2 cluster = .ok cell) columns row

def columnsOf (schema : Schema) : List (String × DataType) :=
  schema.fields.map fun field => (field.name, field.type)

structure Finished (recordBatches : List RecordBatch) (clusters : List (List JoinValue))
    (builders : List ColumnBuilder) : Prop where
  distinct : (builders.map ColumnBuilder.name).Nodup
  named : ∀ name, name ∈ builders.map ColumnBuilder.name ↔
    name ∈ (allFields recordBatches).map Field.name
  first : ∀ builder ∈ builders, ((allFields recordBatches).find? fun field =>
    field.name = builder.name).map Field.type = some builder.type
  cells : ∀ builder ∈ builders, List.Forall₂ (fun cluster cell =>
    clusterCell recordBatches builder.name builder.type cluster = .ok cell) clusters builder.cells

theorem joined_column_ok {builder result : ColumnBuilder} (fresh : builder.cells = [])
    (returned : joinedColumn recordBatches clusters builder = .ok result) :
    result.name = builder.name ∧ result.type = builder.type ∧
      List.Forall₂ (fun cluster cell =>
        clusterCell recordBatches builder.name builder.type cluster = .ok cell) clusters
        result.cells := by
  obtain ⟨cells, converted, returned⟩ := except_bind_ok_cases returned
  cases returned
  rw [fresh, List.nil_append]
  exact ⟨rfl, rfl, map_m_ok_iff.mp converted⟩

theorem finished_of_returns {builders results : List ColumnBuilder}
    (created : Created (allFields recordBatches) builders)
    (returned : Returns (joinedColumn recordBatches clusters) builders results) :
    Finished recordBatches clusters results := by
  have each : ∀ result ∈ results, ∃ builder ∈ builders, result.name = builder.name ∧
      result.type = builder.type ∧ List.Forall₂ (fun cluster cell =>
        clusterCell recordBatches builder.name builder.type cluster = .ok cell) clusters
        result.cells := by
    intro result member
    obtain ⟨builder, listed, joined⟩ := mem_of_map_m (map_m_ok_iff.mpr returned) member
    exact ⟨builder, listed, joined_column_ok (created.fresh builder listed).1 joined⟩
  have names : results.map ColumnBuilder.name = builders.map ColumnBuilder.name := by
    apply named_of_returns _ rfl returned
    intro builder result joined
    obtain ⟨_, _, joined⟩ := except_bind_ok_cases joined
    rw [← Except.ok.inj joined]
  constructor
  · rw [names]
    exact created.distinct
  · intro name
    rw [names, created.named]
  · intro result member
    obtain ⟨builder, listed, name, type, _⟩ := each result member
    rw [name, type]
    exact created.first builder listed
  · intro result member
    obtain ⟨builder, listed, name, type, cells⟩ := each result member
    rw [name, type]
    exact cells

theorem finished_perm {builders arranged : List ColumnBuilder} (perm : arranged.Perm builders)
    (finished : Finished recordBatches clusters builders) :
    Finished recordBatches clusters arranged where
  distinct := (perm.map _).nodup_iff.mpr finished.distinct
  named := fun name => ((perm.map _).mem_iff).trans (finished.named name)
  first := fun builder member => finished.first builder (perm.mem_iff.mp member)
  cells := fun builder member => finished.cells builder (perm.mem_iff.mp member)

theorem make_ok {table : JoinTable} (counted : table.rowCount = clusters.length)
    (finished : Finished recordBatches clusters table.columnBuilders) :
    ∃ joined, table.make = .ok joined ∧
      joined.schema.fields = table.columnBuilders.map (fun builder =>
        { name := builder.name, type := builder.type }) ∧
      List.Forall₂ (RowOf recordBatches (columnsOf joined.schema)) clusters joined.rows := by
  have lengths : ∀ builder ∈ table.columnBuilders, builder.cells.length = table.rowCount :=
    fun builder member => (finished.cells builder member).length_eq.symm.trans counted.symm
  have arrays : ∀ builder ∈ table.columnBuilders,
      (Column.build builder.type builder.cells).cells = builder.cells := by
    intro builder member
    apply build_cells
    intro cell inCells
    obtain ⟨cluster, _, own⟩ :=
      mem_of_map_m (map_m_ok_iff.mpr (finished.cells builder member)) inCells
    exact cluster_cell_admits own
  unfold JoinTable.make
  rw [if_pos lengths]
  refine ⟨_, rfl, rfl, ?_⟩
  rw [make_rows _ (by rw [Schema.types, List.map_map, List.map_map]; rfl), columnsOf]
  apply List.forall₂_iff_get.mpr
  refine ⟨by rw [List.length_map, List.length_range, counted], ?_⟩
  intro index inClusters inRows
  rw [List.get_eq_getElem, List.get_eq_getElem, List.getElem_map, List.getElem_range, RowOf]
  show List.Forall₂ _ ((table.columnBuilders.map _).map _) _
  rw [List.map_map, List.map_map, List.forall₂_map_left_iff, List.forall₂_map_right_iff,
    List.forall₂_same]
  intro builder member
  have bound : index < builder.cells.length := by
    rw [lengths builder member, counted]
    exact inClusters
  have own := (finished.cells builder member).get inClusters bound
  simp only [Function.comp_apply, arrays builder member, List.getD_eq_getElem _ _ bound]
  exact own

end Table

section Result

theorem columns_of_update {batch : RecordBatch} {index : Nat}
    {update : FieldMetadata → FieldMetadata} :
    columnsOf (updateFieldMetadata batch index update).schema = columnsOf batch.schema := by
  apply List.ext_getElem?
  intro position
  simp only [columnsOf, updateFieldMetadata, List.getElem?_map, List.getElem?_modify]
  cases batch.schema.fields[position]? with
  | none => rfl
  | some field => by_cases same : index = position <;> simp [same]

theorem field_names_of_columns (schema : Schema) :
    schema.fieldNames = (columnsOf schema).map Prod.fst := by
  rw [columnsOf, List.map_map]
  rfl

theorem types_of_columns (schema : Schema) : schema.types = (columnsOf schema).map Prod.snd := by
  rw [columnsOf, List.map_map]
  rfl

theorem set_time_column_ok {batch after : RecordBatch} {name : String}
    (returned : setTimeColumnNameMetadata batch name = .ok after) :
    ∃ index unit, batch.schema.fieldIndex name = some index ∧
      batch.schema.types[index]? = some (.timestamp unit) ∧
      columnsOf after.schema = columnsOf batch.schema ∧ after.rows = batch.rows := by
  unfold setTimeColumnNameMetadata setColumnNameMetadata at returned
  split at returned
  · cases returned
  · next column found =>
    split at returned
    · next stamped =>
      obtain ⟨typed, written, returned⟩ := except_bind_ok_cases returned
      cases returned
      have located := (get_column_by_name_cells found).2
      obtain ⟨index, at_index, isType⟩ := Option.bind_eq_some_iff.mp located
      rw [setColumnTypeMetadata, at_index] at written
      cases written
      cases type : column.type with
      | timestamp unit =>
          rw [type] at isType
          refine ⟨index, unit, at_index, isType, ?_, rfl⟩
          exact @columns_of_update batch index fun metadata =>
            { metadata with columnType := some .time }
      | _ =>
          rw [type] at stamped
          cases stamped
    · cases returned

theorem set_time_column_returns {batch : RecordBatch} {name : String} {index : Nat}
    {unit : Arrow.TimeUnit} (located : batch.schema.fieldIndex name = some index)
    (typed : batch.schema.types[index]? = some (.timestamp unit)) :
    ∃ after, setTimeColumnNameMetadata batch name = .ok after := by
  simp only [setTimeColumnNameMetadata, setColumnNameMetadata,
    get_column_by_name_eq batch located typed, isTimestampType, if_true, setColumnTypeMetadata,
    located, bind, Except.bind]
  exact ⟨_, rfl⟩

theorem field_index_of_columns {left right : Schema}
    (same : columnsOf left = columnsOf right) (name : String) :
    left.fieldIndex name = right.fieldIndex name := by
  rw [Schema.fieldIndex, Schema.fieldIndex, field_names_of_columns, field_names_of_columns, same]

end Result

/-- A result has a row for each cluster, in the order of their times. -/
structure Joins (recordBatches : List RecordBatch) (timeColumnName : String)
    (clusters : List (List JoinValue)) (result : RecordBatch) (rows : List Row) : Prop where
  distinct : result.schema.fieldNames.Nodup
  named : ∀ name, name ∈ result.schema.fieldNames ↔
    name ∈ (allFields recordBatches).map Field.name
  first : ∀ column ∈ columnsOf result.schema, ((allFields recordBatches).find? fun field =>
    field.name = column.1).map Field.type = some column.2
  cells : List.Forall₂ (RowOf recordBatches (columnsOf result.schema)) clusters rows
  perm : result.rows.Perm rows
  timed : ∃ index unit, result.schema.fieldIndex timeColumnName = some index ∧
    result.schema.types[index]? = some (.timestamp unit)
  sorted : result.rows.Pairwise fun earlier later =>
    cellTime (result.schema.cell timeColumnName earlier) ≤
      cellTime (result.schema.cell timeColumnName later)

theorem relates_at {schema : Schema} {name : String} {index : Nat} {type : DataType} {row : Row}
    {relation : String × DataType → Scalar → Prop}
    (each : List.Forall₂ relation (columnsOf schema) row)
    (located : schema.fieldIndex name = some index)
    (typed : schema.types[index]? = some type) :
    relation (name, type) (schema.cell name row) := by
  have named := field_index_names located
  have column : (columnsOf schema)[index]? = some (name, type) := by
    rw [Schema.fieldNames, List.getElem?_map] at named
    rw [Schema.types, List.getElem?_map] at typed
    obtain ⟨field, found, rfl⟩ := Option.map_eq_some_iff.mp named
    rw [found, Option.map_some, Option.some.injEq] at typed
    rw [columnsOf, List.getElem?_map, found, Option.map_some, typed]
  obtain ⟨bound, isColumn⟩ := List.getElem?_eq_some_iff.mp column
  have inRow : index < row.length := by
    rw [← each.length_eq]
    exact bound
  have own := each.get bound inRow
  rw [List.get_eq_getElem, List.get_eq_getElem] at own
  rw [Schema.cell, located, Option.map_some, Option.getD_some, List.getD_eq_getElem _ _ inRow,
    ← isColumn]
  exact own

theorem column_of_source {recordBatches : List RecordBatch} {timeColumnName name : String}
    {clusters : List (List JoinValue)} {result : RecordBatch} {rows : List Row}
    {value : JoinValue} {own : DataType × Scalar}
    (joins : Joins recordBatches timeColumnName clusters result rows)
    (found : sourceCell recordBatches name value = some own) :
    ∃ type, (name, type) ∈ columnsOf result.schema := by
  obtain ⟨recordBatch, present, located⟩ := Option.bind_eq_some_iff.mp found
  obtain ⟨field, first, _⟩ := Option.map_eq_some_iff.mp located
  have isNamed : field.1.name = name := by simpa using List.find?_some first
  have inFields := List.mem_of_getElem?
    (List.mk_mem_zipIdx_iff_getElem?.mp (List.mem_of_find?_eq_some first))
  have member : name ∈ result.schema.fieldNames := by
    rw [joins.named, ← isNamed]
    apply List.mem_map_of_mem
    exact List.mem_flatMap.mpr ⟨recordBatch, List.mem_of_getElem? present, inFields⟩
  rw [field_names_of_columns] at member
  obtain ⟨⟨_, type⟩, listed, rfl⟩ := List.mem_map.mp member
  exact ⟨type, listed⟩

theorem joins_perm {recordBatches : List RecordBatch} {timeColumnName : String}
    {clusters others : List (List JoinValue)} {result : RecordBatch} {rows : List Row}
    (perm : others.Perm clusters)
    (joins : Joins recordBatches timeColumnName clusters result rows) :
    ∃ otherRows, Joins recordBatches timeColumnName others result otherRows := by
  obtain ⟨otherRows, cells, same⟩ := List.perm_comp_forall₂ perm joins.cells
  exact ⟨otherRows, joins.distinct, joins.named, joins.first, cells, joins.perm.trans same.symm,
    joins.timed, joins.sorted⟩

section Handle

variable {renderScalar : DataType → Value → String} {visitKeys : KeysToRows → KeysToRows}
  {visitColumns : List ColumnBuilder → List ColumnBuilder} {joinOnColumns : List String}
  {tolerance : Int} {recordBatches : List RecordBatch} {results : List RecordBatch}

theorem joins_of_built {timeColumnName : String} {clusters : List (List JoinValue)}
    {table : JoinTable} {joined sorted result : RecordBatch}
    (counted : table.rowCount = clusters.length)
    (finished : Finished recordBatches clusters table.columnBuilders)
    (made : table.make = .ok joined) (ordered : sortByColumn timeColumnName joined = .ok sorted)
    (written : setTimeColumnNameMetadata sorted timeColumnName = .ok result) :
    ∃ rows, Joins recordBatches timeColumnName clusters result rows := by
  obtain ⟨own, makes, fields, cells⟩ := make_ok counted finished
  rw [makes, Except.ok.injEq] at made
  subst made
  obtain ⟨index, unit, located, typed, columns, rows⟩ := set_time_column_ok written
  have isSorted : sorted = own.sortRows index := by
    unfold sortByColumn at ordered
    split at ordered
    · cases ordered
    · next position found =>
      rw [← Except.ok.inj ordered] at located ⊢
      rw [show (own.sortRows position).schema = own.schema from rfl, found,
        Option.some.injEq] at located
      rw [located]
  subst isSorted
  have sameColumns : columnsOf result.schema = columnsOf own.schema := columns
  have builders : columnsOf own.schema =
      table.columnBuilders.map fun builder => (builder.name, builder.type) := by
    rw [columnsOf, fields, List.map_map]
    rfl
  refine ⟨own.rows, ?_, ?_, ?_, ?_, ?_, ?_, ?_⟩
  · rw [field_names_of_columns, sameColumns, builders, List.map_map]
    exact finished.distinct
  · intro name
    rw [field_names_of_columns, sameColumns, builders, List.map_map]
    exact finished.named name
  · rw [sameColumns, builders]
    intro column member
    obtain ⟨builder, listed, rfl⟩ := List.mem_map.mp member
    exact finished.first builder listed
  · rw [sameColumns]
    exact cells
  · rw [rows]
    exact sort_rows_perm own index
  · refine ⟨index, unit, ?_, ?_⟩
    · rw [field_index_of_columns sameColumns]
      exact located
    · rw [types_of_columns, sameColumns, ← types_of_columns]
      exact typed
  · rw [rows]
    have cell : result.schema.cell timeColumnName = fun row => row.getD index none := by
      funext row
      rw [Schema.cell, field_index_of_columns sameColumns,
        show own.schema.fieldIndex timeColumnName = some index from located, Option.map_some,
        Option.getD_some]
    rw [cell]
    exact sort_rows_times typed

theorem join_table_ok_iff {timeColumnName : String} {collected : Collected}
    {keyed : List (String × JoinValue)} {visited : KeysToRows} {table : JoinTable}
    (collects : Collects renderScalar joinOnColumns timeColumnName recordBatches collected keyed)
    (perm : visited.Perm collected.keysToRows) :
    visited.foldlM (joinKeyRows tolerance recordBatches)
        { columnBuilders := collected.columnBuilders } = .ok table ↔
      table.rowCount = (visitedClusters tolerance visited).length ∧
        Returns (joinedColumn recordBatches (visitedClusters tolerance visited))
          collected.columnBuilders table.columnBuilders := by
  apply join_keys_ok_iff collects.created.distinct (collects_covers collects)
  · exact fun builder member => (collects.created.fresh builder member).2
  · exact fun entry member => collects_in_range collects entry (perm.mem_iff.mp member)
  · exact fun entry member =>
      SortedIndex.values_nonempty collects.index entry (perm.mem_iff.mp member)

theorem handle_ok (visits : ∀ keysToRows, (visitKeys keysToRows).Perm keysToRows)
    (arranges : ∀ builders, (visitColumns builders).Perm builders)
    (nonempty : recordBatches ≠ [])
    (returned : handle renderScalar visitKeys visitColumns joinOnColumns tolerance recordBatches =
      .ok results) :
    ∃ front timeColumnName keyed result rows, recordBatches.head? = some front ∧
      getTimeColumnNameMetadata front = .ok timeColumnName ∧
      keyedRows renderScalar joinOnColumns timeColumnName recordBatches = .ok keyed ∧
      results = [result] ∧
      Joins recordBatches timeColumnName (joinClusters tolerance keyed) result rows := by
  cases recordBatches with
  | nil => exact absurd rfl nonempty
  | cons front others =>
      obtain ⟨timeColumnName, named, returned⟩ := except_bind_ok_cases returned
      obtain ⟨collected, collects, returned⟩ := except_bind_ok_cases returned
      obtain ⟨table, joinedRows, returned⟩ := except_bind_ok_cases returned
      obtain ⟨joined, made, returned⟩ := except_bind_ok_cases returned
      obtain ⟨sorted, ordered, returned⟩ := except_bind_ok_cases returned
      obtain ⟨result, written, returned⟩ := except_bind_ok_cases returned
      cases returned
      obtain ⟨keyed, collects⟩ := collects_of_ok collects
      have visited := visits collected.keysToRows
      obtain ⟨counted, finished⟩ := (join_table_ok_iff collects visited).mp joinedRows
      have arranged := finished_perm (arranges table.columnBuilders)
        (finished_of_returns collects.created finished)
      obtain ⟨rows, joins⟩ := @joins_of_built _ timeColumnName _
        { table with columnBuilders := visitColumns table.columnBuilders } _ _ _ counted arranged
        made ordered written
      obtain ⟨otherRows, joins⟩ := joins_perm (visited_perm collects.index visited).symm joins
      exact ⟨front, timeColumnName, keyed, result, otherRows, rfl, named, collects.rows, rfl, joins⟩

def firstType (recordBatches : List RecordBatch) (name : String) : Option DataType :=
  ((allFields recordBatches).find? fun field => field.name = name).map Field.type

theorem column_located {timeColumnName : String} {type : DataType} {schema : Schema}
    {builders : List ColumnBuilder} {clusters : List (List JoinValue)}
    (finished : Finished recordBatches clusters builders)
    (fields : schema.fields = builders.map fun builder =>
      { name := builder.name, type := builder.type })
    (typed : firstType recordBatches timeColumnName = some type) :
    ∃ index, schema.fieldIndex timeColumnName = some index ∧
      schema.types[index]? = some type := by
  obtain ⟨field, found, isType⟩ := Option.map_eq_some_iff.mp typed
  have isNamed : field.name = timeColumnName := by simpa using List.find?_some found
  have member : timeColumnName ∈ builders.map ColumnBuilder.name := by
    rw [finished.named]
    exact List.mem_map.mpr ⟨field, List.mem_of_find?_eq_some found, isNamed⟩
  obtain ⟨builder, listed, same⟩ := List.mem_map.mp member
  have own := finished.first builder listed
  rw [same, ← firstType, typed, Option.some.injEq] at own
  obtain ⟨index, at_index⟩ := List.mem_iff_getElem?.mp listed
  have placed : schema.fields[index]? = some { name := builder.name, type := builder.type } := by
    rw [fields, List.getElem?_map, at_index, Option.map_some]
  have distinct : schema.fieldNames.Nodup := by
    rw [Schema.fieldNames, fields, List.map_map]
    exact finished.distinct
  refine ⟨index, ?_, ?_⟩
  · rw [← same]
    exact field_index_of_nodup distinct placed
  · rw [Schema.types, List.getElem?_map, placed, own]
    rfl

/-- A call returns when every row has a key, every column a builder, and every cluster a cell
for every column. -/
theorem handle_returns {front : RecordBatch} {timeColumnName : String} {unit : Arrow.TimeUnit}
    {keyed : List (String × JoinValue)}
    (visits : ∀ keysToRows, (visitKeys keysToRows).Perm keysToRows)
    (arranges : ∀ builders, (visitColumns builders).Perm builders)
    (first : recordBatches.head? = some front)
    (named : getTimeColumnNameMetadata front = .ok timeColumnName)
    (rows : keyedRows renderScalar joinOnColumns timeColumnName recordBatches = .ok keyed)
    (able : ∀ recordBatch ∈ recordBatches, ∀ field ∈ recordBatch.schema.fields,
      buildable field.type = true)
    (typed : firstType recordBatches timeColumnName = some (.timestamp unit))
    (cells : ∀ cluster ∈ joinClusters tolerance keyed, ∀ name type,
      firstType recordBatches name = some type →
        ∃ cell, clusterCell recordBatches name type cluster = .ok cell) :
    ∃ result, handle renderScalar visitKeys visitColumns joinOnColumns tolerance recordBatches =
      .ok [result] := by
  cases recordBatches with
  | nil => cases first
  | cons own others =>
      cases first
      obtain ⟨collected, collecting, collects⟩ := collect_returns rows able
      have visited := visits collected.keysToRows
      have clusters := @visited_perm tolerance _ _ _ collects.index visited
      have each : ∀ builder ∈ collected.columnBuilders, ∃ result,
          joinedColumn (front :: others)
            (visitedClusters tolerance (visitKeys collected.keysToRows)) builder = .ok result := by
        intro builder member
        have ofBuilder := collects.created.first builder member
        obtain ⟨cells, converted⟩ := map_m_returns fun cluster listed =>
          cells cluster (clusters.mem_iff.mp listed) builder.name builder.type ofBuilder
        unfold joinedColumn
        rw [converted]
        exact ⟨_, rfl⟩
      obtain ⟨columnBuilders, converted⟩ := map_m_returns each
      have returned := map_m_ok_iff.mp converted
      have finished := finished_perm (arranges columnBuilders)
        (finished_of_returns collects.created returned)
      have table := (@join_table_ok_iff _ _ tolerance _ _ _ _ _ ⟨columnBuilders, _⟩ collects
        visited).mpr ⟨rfl, returned⟩
      obtain ⟨joined, made, fields, _⟩ := @make_ok _ _ ⟨visitColumns columnBuilders, _⟩ rfl finished
      obtain ⟨index, located, isTime⟩ := column_located finished fields typed
      have ordered : sortByColumn timeColumnName joined = .ok (joined.sortRows index) := by
        rw [sortByColumn, located]
      obtain ⟨result, written⟩ := @set_time_column_returns (joined.sortRows index) _ _ _ located
        isTime
      refine ⟨result, ?_⟩
      unfold handle
      simp only [named, collecting, table, made, ordered, written, bind, Except.bind]
      rfl

end Handle

end StreamDataProcessor.Handlers.Join
