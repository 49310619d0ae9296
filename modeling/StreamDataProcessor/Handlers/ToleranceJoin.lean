import StreamDataProcessor.Handlers.JoinLaw

/-!
# The greedy tolerance join

On batches that can be joined, a call does what the join is for: the rows of each key string
are cut into clusters of rows that are not too late for the first of them, and each cluster
gives a row with what its earliest rows have.
-/

namespace StreamDataProcessor.Handlers.Join

open Foundation Foundation.Effect Foundation.Clusters Foundation.TwosComplement Arrow Metadata
  Utils

set_option autoImplicit false

/-- Batches with the time column and the join columns, in which a name has one type that the
builders support. -/
structure Joinable (joinOnColumns : List String) (timeColumnName : String)
    (unit : Arrow.TimeUnit) (columnType : String → DataType)
    (recordBatches : List RecordBatch) : Prop where
  nonempty : recordBatches ≠ []
  named : ∀ front ∈ recordBatches.head?,
    front.schema.metadata.timeColumnName = some timeColumnName
  timed : ∀ recordBatch ∈ recordBatches, timeColumnName ∈ recordBatch.schema.fieldNames
  stamped : columnType timeColumnName = .timestamp unit
  joined : ∀ recordBatch ∈ recordBatches, ∀ name ∈ joinOnColumns,
    name ∈ recordBatch.schema.fieldNames
  distinct : ∀ recordBatch ∈ recordBatches, recordBatch.schema.fieldNames.Nodup
  typed : ∀ recordBatch ∈ recordBatches, ∀ field ∈ recordBatch.schema.fields,
    field.type = columnType field.name
  supported : ∀ recordBatch ∈ recordBatches, ∀ field ∈ recordBatch.schema.fields,
    buildable field.type = true

def Full (recordBatches : List RecordBatch) : Prop :=
  ∀ recordBatch ∈ recordBatches, ∀ row ∈ recordBatch.rows, ∀ cell ∈ row, cell ≠ none

/-- A row that exceeds the time at which a cluster began by more than the tolerance. -/
def TooLate (tolerance : Int) (began : Int) (value : JoinValue) : Prop :=
  tolerance < value.time - began

instance (tolerance : Int) : DecidableRel (TooLate tolerance) := fun began value =>
  inferInstanceAs (Decidable (tolerance < value.time - began))

def greedyClusters (tolerance : Int) (keyed : List (String × JoinValue)) :
    List (List JoinValue) :=
  (keyed.map Prod.fst).dedup.flatMap fun keyString =>
    clusters JoinValue.time (TooLate tolerance)
      (SortedIndex.valuesOf joinValueCompare keyed keyString)

def earliestCell (recordBatches : List RecordBatch) (name : String)
    (cluster : List JoinValue) : Scalar :=
  ((clusterSource recordBatches name cluster).map Prod.snd).getD none

structure IsToleranceJoin (recordBatches : List RecordBatch) (timeColumnName : String)
    (clusters : List (List JoinValue)) (result : RecordBatch) : Prop where
  distinct : result.schema.fieldNames.Nodup
  union : ∀ name, name ∈ result.schema.fieldNames ↔
    ∃ recordBatch ∈ recordBatches, name ∈ recordBatch.schema.fieldNames
  nonempty : ∀ cluster ∈ clusters, cluster ≠ []
  length : result.numRows = clusters.length
  rows : result.rows.Perm (clusters.map fun cluster =>
    result.schema.fieldNames.map fun name => earliestCell recordBatches name cluster)
  nulls : ∀ cluster ∈ clusters, ∀ name, earliestCell recordBatches name cluster = none ↔
    ∀ value ∈ cluster, sourceCell recordBatches name value = none
  sorted : result.rows.Pairwise fun earlier later =>
    cellTime (result.schema.cell timeColumnName earlier) ≤
      cellTime (result.schema.cell timeColumnName later)

/-- The times of the rows are those of the time column, in seconds. -/
def InSeconds (recordBatches : List RecordBatch) (timeColumnName : String)
    (unit : Arrow.TimeUnit) (value : JoinValue) : Prop :=
  ∃ recordBatch row, recordBatches[value.recordBatchIdx]? = some recordBatch ∧
    recordBatch.rows[value.rowIdx]? = some row ∧
    value.time = convertTimestamp unit .second
      (integerValue (recordBatch.schema.cell timeColumnName row))

/-- The difference of the times of any two rows of a key string fits 64 bits. -/
def SpansFit (keyed : List (String × JoinValue)) : Prop :=
  ∀ first ∈ keyed, ∀ second ∈ keyed, first.1 = second.1 →
    FitsInt64 (first.2.time - second.2.time)

section Cut

variable {tolerance : Int} {keyed : List (String × JoinValue)}

theorem mem_values_of {keyString : String} {value : JoinValue} :
    value ∈ SortedIndex.valuesOf joinValueCompare keyed keyString ↔ (keyString, value) ∈ keyed := by
  unfold SortedIndex.valuesOf
  simp

/-- In sorted rows no row comes before the first of its cluster. -/
theorem join_clusters_eq (spans : SpansFit keyed) :
    joinClusters tolerance keyed = greedyClusters tolerance keyed := by
  unfold joinClusters greedyClusters keyClusters
  congr 1
  funext keyString
  apply clusters_congr
  · intro value member
    have keyedValue := mem_values_of.mp member
    have fits := spans _ keyedValue _ keyedValue rfl
    rw [Breaks, TooLate, absolute_difference_of_fits fits fits, Int.sub_self, abs_zero]
  · have sorted := List.pairwise_insertionSort joinValueCompare
      ((keyed.filter fun entry => entry.1 = keyString).map Prod.snd)
    apply sorted.imp_of_mem
    intro first value firstMember member before
    have firstKeyed := mem_values_of.mp firstMember
    have keyedValue := mem_values_of.mp member
    have later : first.time ≤ value.time := by
      rw [join_value_compare_iff] at before
      omega
    have fits : FitsInt64 (value.time - first.time) := spans _ keyedValue _ firstKeyed rfl
    have back : FitsInt64 (first.time - value.time) := spans _ firstKeyed _ keyedValue rfl
    rw [Breaks, TooLate, absolute_difference_of_fits fits back, abs_of_nonneg (by omega)]

theorem greedy_clusters_nonempty (nonneg : 0 ≤ tolerance) {cluster : List JoinValue}
    (listed : cluster ∈ greedyClusters tolerance keyed) : cluster ≠ [] := by
  obtain ⟨keyString, _, member⟩ := List.mem_flatMap.mp listed
  apply clusters_nonempty JoinValue.time _ member
  intro value _
  unfold TooLate
  omega

end Cut

theorem cast_timestamp_ok {unit target : Arrow.TimeUnit} {cell : Scalar}
    (admits : (DataType.timestamp unit).admits cell = true) :
    ∃ cast, castTimestampScalar (.timestamp unit) cell target = .ok cast ∧
      integerValue cast = convertTimestamp unit target (integerValue cell) := by
  cases cell with
  | none =>
      refine ⟨none, rfl, ?_⟩
      cases unit <;> cases target <;> rfl
  | some value =>
      cases value with
      | integer value => exact ⟨_, rfl, rfl⟩
      | _ => cases admits

theorem scalar_of_column {recordBatch : RecordBatch} {rowIdx : Nat} {row : Row} {name : String}
    {column : Column} (read : recordBatch.rows[rowIdx]? = some row)
    (cells : column.cells = recordBatch.rows.map (recordBatch.schema.cell name)) :
    column.getScalar rowIdx = .ok (recordBatch.schema.cell name row) := by
  rw [Column.getScalar, cells, List.getElem?_map, read, Option.map_some]

theorem source_of_full {recordBatches : List RecordBatch} (full : Full recordBatches)
    {value : JoinValue} (inRange : InRange recordBatches value) {name : String}
    {rowType : DataType} {scalar : Scalar}
    (found : sourceCell recordBatches name value = some (rowType, scalar)) :
    ∃ own, scalar = some own := by
  obtain ⟨recordBatch, present, bound⟩ := inRange
  rw [sourceCell, present, Option.bind_some] at found
  obtain ⟨field, first, same⟩ := Option.map_eq_some_iff.mp found
  rw [Prod.mk.injEq, List.getD_eq_getElem recordBatch.rows _ bound] at same
  have inRows : recordBatch.rows[value.rowIdx] ∈ recordBatch.rows := List.getElem_mem bound
  have placed := List.mk_mem_zipIdx_iff_getElem?.mp (List.mem_of_find?_eq_some first)
  have inRow : field.2 < recordBatch.rows[value.rowIdx].length := by
    rw [← (recordBatch.conforms _ inRows).length_eq, Schema.types, List.length_map]
    exact (List.getElem?_eq_some_iff.mp placed).1
  rw [List.getD_eq_getElem _ _ inRow] at same
  have notNull := full recordBatch (List.mem_of_getElem? present) _ inRows _
    (List.getElem_mem inRow)
  rw [same.2] at notNull
  exact Option.ne_none_iff_exists'.mp notNull

theorem mem_all_names {recordBatches : List RecordBatch} {name : String} :
    name ∈ (allFields recordBatches).map Field.name ↔
      ∃ recordBatch ∈ recordBatches, name ∈ recordBatch.schema.fieldNames := by
  unfold allFields
  rw [List.map_flatMap, List.mem_flatMap]
  rfl

theorem earliest_cell_none_iff {recordBatches : List RecordBatch} (full : Full recordBatches)
    {cluster : List JoinValue} (inRange : ∀ value ∈ cluster, InRange recordBatches value)
    {name : String} : earliestCell recordBatches name cluster = none ↔
      ∀ value ∈ cluster, sourceCell recordBatches name value = none := by
  unfold earliestCell
  cases source : clusterSource recordBatches name cluster with
  | none => exact ⟨fun _ => List.findSome?_eq_none_iff.mp source, fun _ => rfl⟩
  | some own =>
      obtain ⟨rowType, scalar⟩ := own
      obtain ⟨value, member, found⟩ := List.exists_of_findSome?_eq_some source
      obtain ⟨own, rfl⟩ := source_of_full full (inRange value member) found
      constructor
      · intro null
        cases null
      · intro missing
        rw [missing value member] at found
        cases found

section Cells

variable {recordBatches : List RecordBatch} {columns : List (String × DataType)}

theorem row_of_cells {cluster : List JoinValue} {row : Row} {cellOf : String → Scalar}
    (own : RowOf recordBatches columns cluster row)
    (each : ∀ column ∈ columns,
      clusterCell recordBatches column.1 column.2 cluster = .ok (cellOf column.1)) :
    row = columns.map fun column => cellOf column.1 := by
  unfold RowOf at own
  induction own with
  | nil => rfl
  | cons first _ induction =>
      rw [List.forall_mem_cons] at each
      rw [each.1, Except.ok.injEq] at first
      rw [List.map_cons, ← induction each.2, first]

theorem rows_of_cells {clusters : List (List JoinValue)} {rows : List Row}
    {cellOf : List JoinValue → String → Scalar}
    (cells : List.Forall₂ (RowOf recordBatches columns) clusters rows)
    (each : ∀ cluster ∈ clusters, ∀ column ∈ columns,
      clusterCell recordBatches column.1 column.2 cluster = .ok (cellOf cluster column.1)) :
    rows = clusters.map fun cluster => columns.map fun column => cellOf cluster column.1 := by
  induction cells with
  | nil => rfl
  | cons own _ induction =>
      rw [List.forall_mem_cons] at each
      rw [List.map_cons, ← induction each.2, ← row_of_cells own each.1]

end Cells

section Joinable

variable {renderScalar : DataType → Value → String} {joinOnColumns : List String}
  {timeColumnName : String} {unit : Arrow.TimeUnit} {columnType : String → DataType}
  {recordBatches : List RecordBatch}
  (joinable : Joinable joinOnColumns timeColumnName unit columnType recordBatches)

include joinable

theorem first_type_of_joinable {name : String} {type : DataType}
    (found : firstType recordBatches name = some type) : type = columnType name := by
  obtain ⟨field, first, isType⟩ := Option.map_eq_some_iff.mp found
  obtain ⟨recordBatch, listed, member⟩ := List.mem_flatMap.mp (List.mem_of_find?_eq_some first)
  rw [← isType, joinable.typed recordBatch listed field member,
    show field.name = name by simpa using List.find?_some first]

theorem column_of_name {recordBatch : RecordBatch} (listed : recordBatch ∈ recordBatches)
    {name : String} (present : name ∈ recordBatch.schema.fieldNames) :
    ∃ column, recordBatch.getColumnByName name = some column ∧
      column.type = columnType name ∧ column.cells =
        recordBatch.rows.map (recordBatch.schema.cell name) := by
  obtain ⟨field, member, isNamed⟩ := List.mem_map.mp present
  obtain ⟨index, found⟩ := List.mem_iff_getElem?.mp member
  have located := field_index_of_nodup (joinable.distinct recordBatch listed) found
  have typed : recordBatch.schema.types[index]? = some field.type := by
    rw [Schema.types, List.getElem?_map, found, Option.map_some]
  rw [isNamed] at located
  have column := get_column_by_name_eq recordBatch located typed
  refine ⟨_, column, ?_, (get_column_by_name_cells column).1⟩
  rw [← isNamed]
  exact joinable.typed recordBatch listed field member

theorem join_time_ok {recordBatch : RecordBatch} (listed : recordBatch ∈ recordBatches)
    {rowIdx : Nat} {row : Row} (read : recordBatch.rows[rowIdx]? = some row) :
    joinTime recordBatch rowIdx timeColumnName =
      .ok (convertTimestamp unit .second
        (integerValue (recordBatch.schema.cell timeColumnName row))) := by
  obtain ⟨column, found, typed, cells⟩ :=
    column_of_name joinable listed (joinable.timed recordBatch listed)
  rw [joinable.stamped] at typed
  have scalar := scalar_of_column read cells
  have admits : (DataType.timestamp unit).admits (recordBatch.schema.cell timeColumnName row) =
      true := by
    rw [← typed]
    apply column.conforms
    rw [cells]
    exact List.mem_map_of_mem (List.mem_of_getElem? read)
  obtain ⟨cast, casts, value⟩ := @cast_timestamp_ok unit .second _ admits
  unfold joinTime
  rw [found]
  simp only [scalar, typed, casts, value, bind, Except.bind]
  rfl

theorem join_key_ok {recordBatch : RecordBatch} (listed : recordBatch ∈ recordBatches)
    {rowIdx : Nat} {row : Row} (read : recordBatch.rows[rowIdx]? = some row) :
    ∃ keyString, getJoinKey renderScalar joinOnColumns recordBatch rowIdx timeColumnName =
      .ok ⟨keyString, convertTimestamp unit .second
        (integerValue (recordBatch.schema.cell timeColumnName row))⟩ := by
  have texts : ∀ name ∈ joinOnColumns, ∃ text,
      joinScalarText renderScalar recordBatch rowIdx name = .ok text := by
    intro name member
    obtain ⟨column, found, _, cells⟩ :=
      column_of_name joinable listed (joinable.joined recordBatch listed name member)
    unfold joinScalarText
    rw [found]
    simp only [scalar_of_column read cells, bind, Except.bind]
    exact ⟨_, rfl⟩
  obtain ⟨texts, converted⟩ := map_m_returns texts
  refine ⟨String.join texts, ?_⟩
  unfold getJoinKey
  rw [converted, join_time_ok joinable listed read]
  rfl

theorem keyed_rows_ok :
    ∃ keyed, keyedRows renderScalar joinOnColumns timeColumnName recordBatches = .ok keyed ∧
      ∀ entry ∈ keyed, InSeconds recordBatches timeColumnName unit entry.2 := by
  have each : ∀ row ∈ indexedRows recordBatches, ∃ entry,
      keyedRow renderScalar joinOnColumns timeColumnName row = .ok entry ∧
        InSeconds recordBatches timeColumnName unit entry.2 := by
    rintro ⟨recordBatch, index, rowIdx⟩ member
    obtain ⟨found, bound⟩ := mem_indexed_rows.mp member
    have listed := List.mem_of_getElem? found
    have read := List.getElem?_eq_getElem bound
    obtain ⟨keyString, key⟩ := @join_key_ok renderScalar _ _ _ _ _ joinable _ listed _ _ read
    refine ⟨(keyString, ⟨index, rowIdx, _⟩), ?_, recordBatch, _, found, read, rfl⟩
    simp only [keyedRow, key, bind, Except.bind]
    rfl
  obtain ⟨keyed, rows⟩ := map_m_returns fun row member =>
    (each row member).imp fun _ both => both.1
  refine ⟨keyed, rows, ?_⟩
  intro entry member
  obtain ⟨row, listed, converted⟩ := mem_of_map_m rows member
  obtain ⟨own, same, inSeconds⟩ := each row listed
  rw [same, Except.ok.injEq] at converted
  rwa [← converted]

theorem source_type {name : String} {value : JoinValue} {rowType : DataType} {scalar : Scalar}
    (found : sourceCell recordBatches name value = some (rowType, scalar)) :
    rowType = columnType name ∧ buildable rowType = true := by
  obtain ⟨recordBatch, present, located⟩ := Option.bind_eq_some_iff.mp found
  obtain ⟨field, first, same⟩ := Option.map_eq_some_iff.mp located
  have listed := List.mem_of_getElem? present
  have member : field.1 ∈ recordBatch.schema.fields :=
    List.mem_of_getElem? (List.mk_mem_zipIdx_iff_getElem?.mp (List.mem_of_find?_eq_some first))
  have isNamed : field.1.name = name := by simpa using List.find?_some first
  rw [Prod.mk.injEq] at same
  rw [← same.1, ← isNamed]
  exact ⟨joinable.typed _ listed _ member, joinable.supported _ listed _ member⟩

theorem first_type_of_name {recordBatch : RecordBatch} (listed : recordBatch ∈ recordBatches)
    {name : String} (present : name ∈ recordBatch.schema.fieldNames) :
    firstType recordBatches name = some (columnType name) := by
  obtain ⟨field, member, isNamed⟩ := List.mem_map.mp present
  have found : ((allFields recordBatches).find? fun field => field.name = name).isSome := by
    apply List.find?_isSome.mpr
    exact ⟨field, List.mem_flatMap.mpr ⟨recordBatch, listed, member⟩, decide_eq_true isNamed⟩
  obtain ⟨first, isFirst⟩ := Option.isSome_iff_exists.mp found
  have typed : firstType recordBatches name = some first.type := by
    rw [firstType, isFirst, Option.map_some]
  rw [typed, first_type_of_joinable joinable typed]

theorem front_of_joinable : ∃ front, recordBatches.head? = some front ∧ front ∈ recordBatches ∧
    getTimeColumnNameMetadata front = .ok timeColumnName := by
  cases recordBatches with
  | nil => exact absurd rfl joinable.nonempty
  | cons front others =>
      have named := joinable.named front rfl
      have present : front.schema.metadata ≠ {} := by
        intro empty
        rw [empty] at named
        cases named
      refine ⟨front, rfl, List.mem_cons_self, ?_⟩
      simp only [getTimeColumnNameMetadata, getColumnNameMetadata, if_neg present, named]

variable {visitKeys : KeysToRows → KeysToRows}
  {visitColumns : List ColumnBuilder → List ColumnBuilder} {tolerance : Int}

/-- A call joins batches that can be joined, if every cluster has a cell for every column. -/
theorem joinable_returns (visits : ∀ keysToRows, (visitKeys keysToRows).Perm keysToRows)
    (arranges : ∀ builders, (visitColumns builders).Perm builders)
    {keyed : List (String × JoinValue)}
    (rows : keyedRows renderScalar joinOnColumns timeColumnName recordBatches = .ok keyed)
    (cells : ∀ cluster ∈ joinClusters tolerance keyed, ∀ name,
      ∃ cell, clusterCell recordBatches name (columnType name) cluster = .ok cell) :
    ∃ result joinedRows, handle renderScalar visitKeys visitColumns joinOnColumns tolerance
        recordBatches = .ok [result] ∧
      Joins recordBatches timeColumnName (joinClusters tolerance keyed) result joinedRows := by
  obtain ⟨front, first, listed, named⟩ := front_of_joinable joinable
  have typed : firstType recordBatches timeColumnName = some (.timestamp unit) := by
    rw [first_type_of_name joinable listed (joinable.timed front listed), joinable.stamped]
  obtain ⟨result, returned⟩ := @handle_returns renderScalar _ _ _ tolerance _ _ _ _ _ visits
    arranges first named rows joinable.supported typed (by
      intro cluster member name type found
      rw [first_type_of_joinable joinable found]
      exact cells cluster member name)
  obtain ⟨own, ownName, ownKeyed, ownResult, joinedRows, isFirst, isNamed, isKeyed, same, joins⟩ :=
    handle_ok visits arranges joinable.nonempty returned
  rw [first, Option.some.injEq] at isFirst
  subst isFirst
  rw [named, Except.ok.injEq] at isNamed
  subst isNamed
  rw [rows, Except.ok.injEq] at isKeyed
  subst isKeyed
  rw [same] at returned
  exact ⟨ownResult, joinedRows, returned, joins⟩

theorem column_type_of_joins {timeColumnName : String} {clusters : List (List JoinValue)}
    {result : RecordBatch} {rows : List Row}
    (joins : Joins recordBatches timeColumnName clusters result rows) :
    ∀ column ∈ columnsOf result.schema, column.2 = columnType column.1 :=
  fun column member => first_type_of_joinable joinable (joins.first column member)

theorem cluster_cell_of_full (full : Full recordBatches) {cluster : List JoinValue}
    (inRange : ∀ value ∈ cluster, InRange recordBatches value) (name : String) :
    clusterCell recordBatches name (columnType name) cluster =
      .ok (earliestCell recordBatches name cluster) := by
  unfold clusterCell earliestCell
  cases source : clusterSource recordBatches name cluster with
  | none => rfl
  | some own =>
      obtain ⟨rowType, scalar⟩ := own
      obtain ⟨value, member, found⟩ := List.exists_of_findSome?_eq_some source
      obtain ⟨typed, able⟩ := source_type joinable found
      obtain ⟨own, rfl⟩ := source_of_full full (inRange value member) found
      subst typed
      exact append_value able (.inl rfl) (source_admits found)

end Joinable

def cpuBatch : RecordBatch where
  schema := {
    fields := [⟨"time", .timestamp .second, true, {}⟩, ⟨"host", .utf8, true, {}⟩,
      ⟨"cpu", .int64, true, {}⟩]
    metadata := { timeColumnName := some "time" } }
  rows := [[some (.integer 1), some (.string "a"), some (.integer 10)],
    [some (.integer 20), some (.string "a"), some (.integer 11)]]
  conforms := by
    rw [List.forall_mem_cons, List.forall_mem_singleton]
    exact ⟨.cons rfl (.cons rfl (.cons rfl .nil)), .cons rfl (.cons rfl (.cons rfl .nil))⟩

def memoryBatch : RecordBatch where
  schema := {
    fields := [⟨"host", .utf8, true, {}⟩, ⟨"time", .timestamp .second, true, {}⟩,
      ⟨"memory", .int64, true, {}⟩] }
  rows := [[some (.string "a"), some (.integer 3), some (.integer 7)]]
  conforms := by
    rw [List.forall_mem_singleton]
    exact .cons rfl (.cons rfl (.cons rfl .nil))

def usageType (name : String) : DataType :=
  if name = "time" then .timestamp .second else if name = "host" then .utf8 else .int64

example : (match handle (fun _ _ => "") id id ["host"] 5 [cpuBatch, memoryBatch] with
    | .ok results => some (results.map RecordBatch.rows)
    | .error _ => none) =
      some [[[some (.integer 1), some (.string "a"), some (.integer 10), some (.integer 7)],
        [some (.integer 20), some (.string "a"), some (.integer 11), none]]] := by
  decide +kernel

theorem usage_joinable :
    Joinable ["host"] "time" .second usageType [cpuBatch, memoryBatch] where
  nonempty := List.cons_ne_nil _ _
  named := by
    intro front first
    cases first
    rfl
  timed := by decide
  stamped := rfl
  joined := by decide
  distinct := by decide
  typed := by decide
  supported := by decide

theorem usage_full : Full [cpuBatch, memoryBatch] := by
  unfold Full
  decide

def distantBatch : RecordBatch where
  schema := cpuBatch.schema
  rows := [[some (.integer (-2 ^ 63)), some (.string "a"), some (.integer 10)],
    [some (.integer (2 ^ 63 - 1)), some (.string "a"), some (.integer 11)]]
  conforms := by
    rw [List.forall_mem_cons, List.forall_mem_singleton]
    exact ⟨.cons rfl (.cons rfl (.cons rfl .nil)), .cons rfl (.cons rfl (.cons rfl .nil))⟩

theorem distant_joinable : Joinable ["host"] "time" .second usageType [distantBatch] where
  nonempty := List.cons_ne_nil _ _
  named := by
    intro front first
    cases first
    rfl
  timed := by decide
  stamped := rfl
  joined := by decide
  distinct := by decide
  typed := by decide
  supported := by decide

end StreamDataProcessor.Handlers.Join
