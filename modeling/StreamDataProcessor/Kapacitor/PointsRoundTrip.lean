import StreamDataProcessor.Kapacitor.PointsConverter
import Mathlib.Data.List.Dedup

/-!
# What the round trip of points keeps

Points become one batch per group, whose rows are read back into points. A point
comes back as it was exactly when its group string does and every name that
another point of its group has is also a name of its own.
-/

namespace StreamDataProcessor.Kapacitor.PointsConverter

open Foundation.Binary64 Arrow Metadata

set_option autoImplicit false

def nameLists : List (Point → List String) :=
  [fun point => point.tags.keys, fun point => point.fieldsInt.keys,
    fun point => point.fieldsDouble.keys, fun point => point.fieldsString.keys,
    fun point => point.fieldsBool.keys]

structure DistinctNames (options : ConversionOptions) (points : List Point) : Prop where
  kinds : nameLists.Pairwise fun first second => ∀ left ∈ points, ∀ right ∈ points,
    left.group = right.group → ∀ name ∈ first left, name ∉ second right
  time : ∀ names ∈ nameLists, ∀ point ∈ points, options.timeColumnName ∉ names point
  measurement : ∀ names ∈ nameLists, ∀ point ∈ points,
    options.measurementColumnName ∉ names point
  columns : options.timeColumnName ≠ options.measurementColumnName

theorem sorted_names_mem (names : Point → List String) (points : List Point) (name : String) :
    name ∈ sortedNames names points ↔ ∃ point ∈ points, name ∈ names point := by
  simp [sortedNames, List.mem_insertionSort]

theorem sorted_names_nodup (names : Point → List String) (points : List Point) :
    (sortedNames names points).Nodup :=
  (List.perm_insertionSort _ _).nodup_iff.mpr (List.nodup_dedup _)

theorem builder_rows (builders : List ColumnBuilder) (points : List Point) :
    (RecordBatch.make { fields := builders.map ColumnBuilder.field } points.length
        (builders.map fun builder => builder.finish points)).rows =
      points.map fun point => builders.map fun builder => builder.append point := by
  simp only [RecordBatch.make]
  apply List.ext_getElem
  · simp
  · intro row inRange inPoints
    simp only [List.length_map, List.length_range] at inRange inPoints
    simp only [List.getElem_map, List.getElem_range]
    apply List.ext_getElem
    · simp
    · intro index inFields inBuilders
      simp only [List.length_map] at inBuilders
      simp only [List.getElem_map, List.getElem_zipIdx, Nat.zero_add, List.getElem?_map,
        List.getElem?_eq_getElem inBuilders, Option.map_some, Option.bind_some,
        ColumnBuilder.finish, List.getElem?_eq_getElem inPoints, Option.getD_some,
        builders[index].admitted, if_true]

def columnNames (options : ConversionOptions) (points : List Point) : List String :=
  options.timeColumnName :: options.measurementColumnName ::
    (tagsKind.builderNames points ++ intsKind.builderNames points ++
      doublesKind.builderNames points ++ stringsKind.builderNames points ++
      boolsKind.builderNames points)

theorem column_builder_names (options : ConversionOptions) (points : List Point) :
    (columnBuilders options points).map (fun builder => builder.field.name) =
      columnNames options points := by
  simp [columnBuilders, columnNames, FieldKind.builders, columnField, Function.comp_def]

theorem column_names_nodup {options : ConversionOptions} {points : List Point}
    (distinct : DistinctNames options points)
    (single : ∀ left ∈ points, ∀ right ∈ points, left.group = right.group) :
    (columnNames options points).Nodup := by
  have flattened : columnNames options points = options.timeColumnName ::
      options.measurementColumnName ::
        (nameLists.map fun names => sortedNames names points).flatten := by
    simp [columnNames, nameLists, FieldKind.builderNames, tagsKind, intsKind, doublesKind,
      stringsKind, boolsKind]
  have absent : ∀ name, (∀ names ∈ nameLists, ∀ point ∈ points, name ∉ names point) →
      name ∉ (nameLists.map fun names => sortedNames names points).flatten := by
    intro name none member
    obtain ⟨_, isList, isName⟩ := List.mem_flatten.mp member
    obtain ⟨names, inLists, rfl⟩ := List.mem_map.mp isList
    obtain ⟨point, inPoints, inNames⟩ := (sorted_names_mem names points name).mp isName
    exact none names inLists point inPoints inNames
  rw [flattened, List.nodup_cons, List.nodup_cons, List.mem_cons, not_or]
  refine ⟨⟨distinct.columns, absent _ distinct.time⟩, absent _ distinct.measurement, ?_⟩
  rw [List.nodup_flatten]
  refine ⟨?_, ?_⟩
  · intro list member
    obtain ⟨names, _, rfl⟩ := List.mem_map.mp member
    exact sorted_names_nodup names points
  · rw [List.pairwise_map]
    refine distinct.kinds.imp ?_
    intro first second apart name inFirst inSecond
    obtain ⟨left, inLeft, isFirst⟩ := (sorted_names_mem first points name).mp inFirst
    obtain ⟨right, inRight, isSecond⟩ := (sorted_names_mem second points name).mp inSecond
    exact apart left inLeft right inRight (single left inLeft right inRight) name isFirst isSecond

section Group

variable {options : ConversionOptions} {points : List Point} {groupString : String}
  {group : RecordBatchGroup}

def groupSchema (options : ConversionOptions) (points : List Point) (metadata : SchemaMetadata) :
    Schema :=
  ⟨(columnBuilders options points).map ColumnBuilder.field, metadata⟩

theorem group_schema_names (metadata : SchemaMetadata) :
    (groupSchema options points metadata).fieldNames = columnNames options points := by
  simp only [groupSchema, Schema.fieldNames, List.map_map, Function.comp_def, column_builder_names]

def groupColumns (options : ConversionOptions) (points : List Point) : RecordBatch :=
  RecordBatch.make (groupSchema options points {}) points.length
    ((columnBuilders options points).map fun builder => builder.finish points)

def timedColumns (options : ConversionOptions) (points : List Point) (group : RecordBatchGroup) :
    RecordBatch :=
  updateSchemaMetadata (setGroupMetadata (groupColumns options points) group) fun metadata =>
    { metadata with timeColumnName := some options.timeColumnName }

def measuredColumns (options : ConversionOptions) (points : List Point)
    (group : RecordBatchGroup) : RecordBatch :=
  updateSchemaMetadata (timedColumns options points group) fun metadata =>
    { metadata with measurementColumnName := some options.measurementColumnName }

theorem group_timed (timeAt : ∀ metadata,
      (groupSchema options points metadata).fieldIndex options.timeColumnName = some 0) :
    setTimeColumnNameMetadata (setGroupMetadata (groupColumns options points) group)
      options.timeColumnName = .ok (timedColumns options points group) :=
  (@set_column_name_metadata_typed _ 0
    (columnField options.timeColumnName (.timestamp .nano) .time)) (timeAt _) rfl rfl rfl

theorem group_measured (measurementAt : ∀ metadata,
      (groupSchema options points metadata).fieldIndex options.measurementColumnName = some 1) :
    setMeasurementColumnNameMetadata (timedColumns options points group)
      options.measurementColumnName = .ok (measuredColumns options points group) :=
  (@set_column_name_metadata_typed _ 1
    (columnField options.measurementColumnName .utf8 .measurement)) (measurementAt _) rfl rfl rfl

theorem convert_points_group_ok (nodup : (columnNames options points).Nodup)
    (parsed : GroupingUtils.parse groupString options.measurementColumnName = some group) :
    ∃ recordBatch, convertPointsGroup options groupString points = .ok recordBatch ∧
      recordBatch.schema = {
        fields := (columnBuilders options points).map ColumnBuilder.field
        metadata := {
          group := some group
          timeColumnName := some options.timeColumnName
          measurementColumnName := some options.measurementColumnName } } ∧
      recordBatch.rows = points.map fun point =>
        (columnBuilders options points).map fun builder => builder.append point := by
  have distinct : ∀ metadata, (groupSchema options points metadata).fieldNames.Nodup := by
    intro metadata
    rw [group_schema_names]
    exact nodup
  have timed := @group_timed options points group fun metadata =>
    (@field_index_of_nodup _ 0 (columnField options.timeColumnName (.timestamp .nano) .time))
      (distinct metadata) rfl
  have measured := @group_measured options points group fun metadata =>
    (@field_index_of_nodup _ 1 (columnField options.measurementColumnName .utf8 .measurement))
      (distinct metadata) rfl
  refine ⟨measuredColumns options points group, ?_, rfl, builder_rows _ points⟩
  simp only [convertPointsGroup, parsed]
  exact (congrArg (· >>= fun timed =>
    setMeasurementColumnNameMetadata timed options.measurementColumnName) timed).trans measured

theorem convert_points_group_result {recordBatch : RecordBatch}
    (converted : convertPointsGroup options groupString points = .ok recordBatch) :
    ∃ group, GroupingUtils.parse groupString options.measurementColumnName = some group ∧
      recordBatch.schema = {
        fields := (columnBuilders options points).map ColumnBuilder.field
        metadata := {
          group := some group
          timeColumnName := some options.timeColumnName
          measurementColumnName := some options.measurementColumnName } } ∧
      recordBatch.rows = points.map fun point =>
        (columnBuilders options points).map fun builder => builder.append point := by
  unfold convertPointsGroup at converted
  dsimp only at converted
  split at converted
  · cases converted
  · next group parsed =>
    obtain ⟨timedBatch, timed, measured⟩ := Foundation.Effect.except_bind_ok_cases converted
    have onlyTime : (columnNames options points).count options.timeColumnName = 1 := by
      rw [← group_schema_names]
      exact column_located_of_set timed
    have isTimed := @group_timed options points group fun metadata => by
      rw [Schema.fieldIndex, group_schema_names, if_pos onlyTime, columnNames,
        List.idxOf_cons_self]
    have same : timedBatch = timedColumns options points group :=
      Except.ok.inj (timed.symm.trans isTimed)
    rw [same] at measured
    have onlyMeasurement :
        (columnNames options points).count options.measurementColumnName = 1 := by
      rw [← group_schema_names]
      exact column_located_of_set measured
    have apart : options.timeColumnName ≠ options.measurementColumnName := by
      intro same
      rw [columnNames, same, List.count_cons_self, List.count_cons_self] at onlyMeasurement
      omega
    have isMeasured := @group_measured options points group fun metadata => by
      rw [Schema.fieldIndex, group_schema_names, if_pos onlyMeasurement, columnNames,
        List.idxOf_cons_ne _ apart, List.idxOf_cons_self]
    have isResult := Except.ok.inj (measured.symm.trans isMeasured)
    rw [isResult]
    exact ⟨group, parsed, rfl, builder_rows _ points⟩

end Group

section Restoring

variable (renderScalar : DataType → Value → String)

/-- A column of a group with what reading it back does to the point of a row, for the
point that the row was made from. -/
structure Restoration where
  builder : ColumnBuilder
  restore : Point → Point → Point
  restores : ∀ source point, setCell renderScalar builder.field.name
    (getColumnType builder.field) builder.field.type (builder.append source) point =
      .ok (some (restore source point))

variable {renderScalar}

theorem convert_cells_first (restoration : Restoration renderScalar) (fresh : Point)
    (earlier done sources : List Point) :
    convertCells renderScalar fresh restoration.builder.field.name
        (getColumnType restoration.builder.field) restoration.builder.field.type earlier.length 0
        (earlier ++ done) done.length (sources.map restoration.builder.append) =
      .ok (earlier ++ done ++ sources.map fun source => restoration.restore source fresh) := by
  induction sources generalizing done with
  | nil => simp [convertCells]
  | cons source rest induction =>
      have added : (earlier ++ done ++ [fresh])[earlier.length + done.length]? = some fresh := by
        rw [← List.length_append, List.getElem?_concat_length]
      have written : (earlier ++ done ++ [fresh]).set (earlier.length + done.length)
          (restoration.restore source fresh) =
            earlier ++ (done ++ [restoration.restore source fresh]) := by
        rw [← List.length_append, List.set_append_right _ _ (le_refl _), Nat.sub_self,
          List.set_cons_zero, List.append_assoc]
      have later := induction (done ++ [restoration.restore source fresh])
      rw [List.length_append, List.length_singleton] at later
      simp only [List.map_cons, convertCells, if_true, added, restoration.restores, bind,
        Except.bind, written, later]
      simp

theorem convert_cells_later (restoration : Restoration renderScalar) (fresh : Point)
    {index : Nat} (later : index ≠ 0) (earlier done sources : List Point)
    (partway : Point → Point) :
    convertCells renderScalar fresh restoration.builder.field.name
        (getColumnType restoration.builder.field) restoration.builder.field.type earlier.length
        index (earlier ++ done ++ sources.map partway) done.length
        (sources.map restoration.builder.append) =
      .ok (earlier ++ done ++
        sources.map fun source => restoration.restore source (partway source)) := by
  induction sources generalizing done with
  | nil => simp [convertCells]
  | cons source rest induction =>
      have read : (earlier ++ done ++ (source :: rest).map partway)[earlier.length +
          done.length]? = some (partway source) := by
        rw [← List.length_append, List.map_cons, List.getElem?_append_right (le_refl _)]
        simp
      have written : (earlier ++ done ++ (source :: rest).map partway).set
          (earlier.length + done.length) (restoration.restore source (partway source)) =
            earlier ++ (done ++ [restoration.restore source (partway source)]) ++
              rest.map partway := by
        rw [← List.length_append, List.set_append_right _ _ (le_refl _), Nat.sub_self,
          List.map_cons, List.set_cons_zero]
        simp
      have others := induction (done ++ [restoration.restore source (partway source)])
      rw [List.length_append, List.length_singleton] at others
      rw [show (source :: rest).map restoration.builder.append =
        restoration.builder.append source :: rest.map restoration.builder.append from rfl,
        convertCells, if_neg later]
      simp only [read, restoration.restores, bind, Except.bind, written, others]
      simp

def restored (restorations : List (Restoration renderScalar)) (fresh source : Point) : Point :=
  restorations.foldl (fun point restoration => restoration.restore source point) fresh

theorem convert_columns_later {recordBatch : RecordBatch} (fresh : Point)
    (columnTypes : List (String × ColumnType)) (earlier sources : List Point)
    (start rest : List (Restoration renderScalar)) (begun : start ≠ [])
    (typed : ∀ restoration ∈ rest,
      (columnTypes.lookup restoration.builder.field.name).getD .unknown =
        getColumnType restoration.builder.field)
    (rows : recordBatch.rows = sources.map fun source =>
      (start ++ rest).map fun restoration => restoration.builder.append source) :
    convertColumns renderScalar fresh columnTypes recordBatch earlier.length
        (earlier ++ sources.map (restored start fresh)) start.length
        (rest.map fun restoration => restoration.builder.field) =
      .ok (earlier ++ sources.map (restored (start ++ rest) fresh)) := by
  induction rest generalizing start with
  | nil => simp [convertColumns]
  | cons restoration rest induction =>
      have cells : recordBatch.rows.map (fun row => row.getD start.length none) =
          sources.map restoration.builder.append := by
        rw [rows, List.map_map]
        apply List.map_congr_left
        intro source _
        simp [List.getD_eq_getElem?_getD]
      have advance : (fun source => restoration.restore source (restored start fresh source)) =
          restored (start ++ [restoration]) fresh := by
        funext source
        simp [restored]
      have column := convert_cells_later restoration fresh
        (fun empty => begun (List.eq_nil_of_length_eq_zero empty)) earlier [] sources
        (restored start fresh)
      have others := induction (start ++ [restoration]) (by simp)
        (fun other member => typed other (by simp [member])) (by simpa using rows)
      simp only [List.append_nil, List.length_nil, advance] at column
      rw [List.length_append, List.length_singleton, List.append_assoc, List.singleton_append]
        at others
      simp only [List.map_cons, convertColumns, typed restoration (by simp), cells, column, bind,
        Except.bind]
      exact others

theorem convert_columns_restores {recordBatch : RecordBatch} (fresh : Point)
    (columnTypes : List (String × ColumnType)) (earlier sources : List Point)
    (first : Restoration renderScalar) (rest : List (Restoration renderScalar))
    (typed : ∀ restoration ∈ first :: rest,
      (columnTypes.lookup restoration.builder.field.name).getD .unknown =
        getColumnType restoration.builder.field)
    (rows : recordBatch.rows = sources.map fun source =>
      (first :: rest).map fun restoration => restoration.builder.append source) :
    convertColumns renderScalar fresh columnTypes recordBatch earlier.length earlier 0
        ((first :: rest).map fun restoration => restoration.builder.field) =
      .ok (earlier ++ sources.map (restored (first :: rest) fresh)) := by
  have cells : recordBatch.rows.map (fun row => row.getD 0 none) =
      sources.map first.builder.append := by
    rw [rows, List.map_map]
    rfl
  have column := convert_cells_first first fresh earlier [] sources
  have others := convert_columns_later fresh columnTypes earlier sources [first] rest (by simp)
    (fun other member => typed other (by simp [member])) rows
  simp only [List.append_nil, List.length_nil] at column
  simp only [List.map_cons, convertColumns, typed first (by simp), cells, column, bind,
    Except.bind]
  exact others

theorem restored_append (first second : List (Restoration renderScalar)) (fresh source : Point) :
    restored (first ++ second) fresh source =
      restored second (restored first fresh source) source :=
  List.foldl_append

/-- How the columns of a kind are read back, an absent entry as a default one. -/
structure KindReader (renderScalar : DataType → Value → String) (T : Type) where
  kind : FieldKind T
  absent : T
  put : FieldMap T → Point → Point
  entries_put : ∀ map point, kind.entries (put map point) = map
  put_put : ∀ first second point, put second (put first point) = put second point
  put_entries : ∀ point, put (kind.entries point) point = point
  reads : ∀ name source point,
    setCell renderScalar name kind.columnType kind.type (kind.cell name source) point =
      .ok (some (put ((kind.entries point).insert name ((kind.entries source)[name]?.getD absent))
        point))

def filled {T : Type} (absent : T) (entries : FieldMap T) (names : List String)
    (start : FieldMap T) : FieldMap T :=
  names.foldl (fun map name => map.insert name (entries[name]?.getD absent)) start

section Readers

variable {T : Type} (reader : KindReader renderScalar T)

def KindReader.restorations (points : List Point) : List (Restoration renderScalar) :=
  (reader.kind.builderNames points).map fun name => {
    builder := ⟨columnField name reader.kind.type reader.kind.columnType, reader.kind.cell name,
      reader.kind.cell_admitted name⟩
    restore := fun source point => reader.put ((reader.kind.entries point).insert name
      ((reader.kind.entries source)[name]?.getD reader.absent)) point
    restores := reader.reads name }

theorem reader_builders (points : List Point) :
    (reader.restorations points).map Restoration.builder = reader.kind.builders points := by
  simp [KindReader.restorations, FieldKind.builders, Function.comp_def]

theorem reader_restored (points : List Point) (fresh source : Point) :
    restored (reader.restorations points) fresh source =
      reader.put (filled reader.absent (reader.kind.entries source)
        (reader.kind.builderNames points) (reader.kind.entries fresh)) fresh := by
  unfold restored KindReader.restorations filled
  rw [List.foldl_map]
  generalize reader.kind.builderNames points = names
  induction names generalizing fresh with
  | nil => exact (reader.put_entries fresh).symm
  | cons name rest induction =>
      rw [List.foldl_cons, induction, reader.entries_put, reader.put_put, List.foldl_cons]

end Readers

def tagsReader : KindReader renderScalar String where
  kind := tagsKind
  absent := "null"
  put := fun map point => { point with tags := map }
  entries_put := fun _ _ => rfl
  put_put := fun _ _ _ => rfl
  put_entries := fun _ => rfl
  reads := by
    intro name source point
    simp only [FieldKind.cell, tagsKind]
    cases source.tags[name]? <;> rfl

def intsReader : KindReader renderScalar Int where
  kind := intsKind
  absent := 0
  put := fun map point => { point with fieldsInt := map }
  entries_put := fun _ _ => rfl
  put_put := fun _ _ _ => rfl
  put_entries := fun _ => rfl
  reads := by
    intro name source point
    simp only [FieldKind.cell, intsKind]
    cases source.fieldsInt[name]? <;> rfl

def doublesReader : KindReader renderScalar Double where
  kind := doublesKind
  absent := .finite 0
  put := fun map point => { point with fieldsDouble := map }
  entries_put := fun _ _ => rfl
  put_put := fun _ _ _ => rfl
  put_entries := fun _ => rfl
  reads := by
    intro name source point
    simp only [FieldKind.cell, doublesKind]
    cases source.fieldsDouble[name]? <;> rfl

def stringsReader : KindReader renderScalar String where
  kind := stringsKind
  absent := "null"
  put := fun map point => { point with fieldsString := map }
  entries_put := fun _ _ => rfl
  put_put := fun _ _ _ => rfl
  put_entries := fun _ => rfl
  reads := by
    intro name source point
    simp only [FieldKind.cell, stringsKind]
    cases source.fieldsString[name]? <;> rfl

def boolsReader : KindReader renderScalar Bool where
  kind := boolsKind
  absent := false
  put := fun map point => { point with fieldsBool := map }
  entries_put := fun _ _ => rfl
  put_put := fun _ _ _ => rfl
  put_entries := fun _ => rfl
  reads := by
    intro name source point
    simp only [FieldKind.cell, boolsKind]
    cases source.fieldsBool[name]? <;> rfl

def timeRestoration (columnName : String) : Restoration renderScalar where
  builder := ⟨columnField columnName (.timestamp .nano) .time,
    fun point => some (.integer point.time), fun _ => rfl⟩
  restore := fun source point => { point with time := source.time }
  restores := by
    intro source point
    simp [setCell, columnField, getColumnType, castTimestampScalar, convertTimestamp,
      TimeUnit.perSecond, integerValue, bind, Except.bind, pure, Except.pure]

def measurementRestoration (columnName : String) : Restoration renderScalar where
  builder := ⟨columnField columnName .utf8 .measurement,
    fun point => some (.string point.name), fun _ => rfl⟩
  restore := fun source point => { point with name := source.name }
  restores := fun _ _ => rfl

def restorations (options : ConversionOptions) (points : List Point) :
    List (Restoration renderScalar) :=
  timeRestoration options.timeColumnName ::
    measurementRestoration options.measurementColumnName ::
    (tagsReader.restorations points ++ intsReader.restorations points ++
      doublesReader.restorations points ++ stringsReader.restorations points ++
      boolsReader.restorations points)

theorem restorations_builders (options : ConversionOptions) (points : List Point) :
    (restorations options points : List (Restoration renderScalar)).map Restoration.builder =
      columnBuilders options points := by
  simp only [restorations, columnBuilders, List.map_cons, List.map_append, reader_builders]
  rfl

def readBack (points : List Point) (fresh source : Point) : Point :=
  { fresh with
    time := source.time
    name := source.name
    tags := filled "null" source.tags (tagsKind.builderNames points) fresh.tags
    fieldsInt := filled 0 source.fieldsInt (intsKind.builderNames points) fresh.fieldsInt
    fieldsDouble := filled (.finite 0) source.fieldsDouble (doublesKind.builderNames points)
      fresh.fieldsDouble
    fieldsString := filled "null" source.fieldsString (stringsKind.builderNames points)
      fresh.fieldsString
    fieldsBool := filled false source.fieldsBool (boolsKind.builderNames points)
      fresh.fieldsBool }

theorem restored_eq_read_back (options : ConversionOptions) (points : List Point)
    (fresh source : Point) :
    restored (restorations options points : List (Restoration renderScalar)) fresh source =
      readBack points fresh source := by
  unfold restorations
  rw [restored, List.foldl_cons, List.foldl_cons, ← restored, restored_append, restored_append,
    restored_append, restored_append, reader_restored, reader_restored, reader_restored,
    reader_restored, reader_restored]
  rfl

theorem lookup_of_nodup {Key Entry : Type} [DecidableEq Key] (keys : Entry → Key)
    {Result : Type} (value : Entry → Result) {entries : List Entry}
    (nodup : (entries.map keys).Nodup) {entry : Entry} (member : entry ∈ entries) :
    (entries.map fun other => (keys other, value other)).lookup (keys entry) =
      some (value entry) := by
  induction entries with
  | nil => cases member
  | cons first rest induction =>
      rw [List.map_cons, List.nodup_cons] at nodup
      rw [List.map_cons, List.lookup_cons]
      rcases List.mem_cons.mp member with rfl | inRest
      · simp
      · have apart : keys entry ≠ keys first := by
          intro same
          exact nodup.1 (same ▸ List.mem_map_of_mem inRest)
        rw [beq_false_of_ne apart]
        exact induction nodup.2 inRest

def columnTypes (options : ConversionOptions) (points : List Point) :
    List (String × ColumnType) :=
  (columnBuilders options points).map fun builder =>
    (builder.field.name, getColumnType builder.field)

def recoded (options : ConversionOptions) (points : List Point) (group : RecordBatchGroup) :
    String :=
  GroupingUtils.encode group options.measurementColumnName (columnTypes options points)

def groupBack (options : ConversionOptions) (points : List Point) (group : RecordBatchGroup) :
    List Point :=
  points.map (readBack points
    (newPoint group (recoded options points group) options.measurementColumnName))

theorem convert_record_batch_restores {options : ConversionOptions} {points : List Point}
    {groupString : String} {group : RecordBatchGroup} {recordBatch : RecordBatch}
    (nodup : (columnNames options points).Nodup)
    (parsed : GroupingUtils.parse groupString options.measurementColumnName = some group)
    (converted : convertPointsGroup options groupString points = .ok recordBatch)
    (earlier : List Point) :
    convertRecordBatch renderScalar earlier earlier.length recordBatch =
        .ok (earlier ++ groupBack options points group) ∧
      recordBatch.numRows = points.length := by
  obtain ⟨own, same, schema, rows⟩ := convert_points_group_ok nodup parsed
  rw [converted, Except.ok.injEq] at same
  subst same
  have names : ((columnBuilders options points).map fun builder => builder.field.name).Nodup := by
    rw [column_builder_names]
    exact nodup
  have types : getColumnTypes recordBatch = .ok (columnTypes options points) := by
    rw [getColumnTypes, get_column_types_from_nodup _ _ _ (by simp), schema, columnTypes,
      List.map_map]
    · rfl
    · rw [schema, List.map_map]
      exact names
  have builders := @restorations_builders renderScalar options points
  have columns := @convert_columns_restores _ recordBatch
      (newPoint group (recoded options points group) options.measurementColumnName)
      (columnTypes options points) earlier points
      (@timeRestoration renderScalar options.timeColumnName)
      (restorations options points).tail (by
      intro restoration member
      have isBuilder : restoration.builder ∈ columnBuilders options points := by
        rw [← builders]
        exact List.mem_map_of_mem member
      rw [columnTypes, lookup_of_nodup (fun builder => builder.field.name)
        (fun builder => getColumnType builder.field) names isBuilder]
      rfl) (by
      rw [rows, ← builders]
      apply List.map_congr_left
      intro point _
      rw [List.map_map]
      rfl)
  have fields : recordBatch.schema.fields =
      (restorations options points : List (Restoration renderScalar)).map
        fun restoration => restoration.builder.field := by
    rw [schema, ← builders, List.map_map]
    rfl
  have time : getTimeColumnNameMetadata recordBatch = .ok options.timeColumnName := by
    rw [getTimeColumnNameMetadata, getColumnNameMetadata, schema, if_neg (by simp)]
  have measurement : getMeasurementColumnNameMetadata recordBatch =
      .ok options.measurementColumnName := by
    rw [getMeasurementColumnNameMetadata, getColumnNameMetadata, schema, if_neg (by simp)]
  have grouped : extractGroup recordBatch = group := by
    rw [extractGroup, schema]
    rfl
  refine ⟨?_, by rw [RecordBatch.numRows, rows, List.length_map]⟩
  simp only [convertRecordBatch, time, measurement, types, grouped, bind, Except.bind, fields]
  refine columns.trans (congrArg (fun back => Except.ok (earlier ++ back)) ?_)
  exact List.map_congr_left fun point _ =>
    restored_eq_read_back options points _ point

theorem points_of_group {groupString : String} {points : List Point} {point : Point}
    (member : point ∈ pointsOf groupString points) :
    point ∈ points ∧ point.group = groupString := by
  simpa [pointsOf] using member

theorem points_of_distinct {options : ConversionOptions} {points : List Point}
    (distinct : DistinctNames options points) (groupString : String) :
    (columnNames options (pointsOf groupString points)).Nodup := by
  apply column_names_nodup
  · have within : ∀ point ∈ pointsOf groupString points, point ∈ points :=
      fun point member => (points_of_group member).1
    exact {
      kinds := distinct.kinds.imp fun apart left inLeft right inRight =>
        apart left (within left inLeft) right (within right inRight)
      time := fun names inLists point member =>
        distinct.time names inLists point (within point member)
      measurement := fun names inLists point member =>
        distinct.measurement names inLists point (within point member)
      columns := distinct.columns }
  · intro left inLeft right inRight
    rw [(points_of_group inLeft).2, (points_of_group inRight).2]

def parsedGroup (options : ConversionOptions) (groupString : String) : RecordBatchGroup :=
  (GroupingUtils.parse groupString options.measurementColumnName).getD {}

def allBack (options : ConversionOptions) (order : List String) (points : List Point) :
    List Point :=
  order.flatMap fun groupString =>
    groupBack options (pointsOf groupString points) (parsedGroup options groupString)

theorem convert_to_record_batches_restores {options : ConversionOptions} {points : List Point}
    (distinct : DistinctNames options points) {order : List String}
    (parses : ∀ groupString ∈ order,
      (GroupingUtils.parse groupString options.measurementColumnName).isSome) :
    ∃ recordBatches, convertToRecordBatches options order points = .ok recordBatches ∧
      ∀ earlier, convertBatches renderScalar earlier earlier.length recordBatches =
        .ok (earlier ++ allBack options order points) := by
  induction order with
  | nil => exact ⟨[], rfl, fun earlier => by simp [convertBatches, allBack]⟩
  | cons groupString rest induction =>
      obtain ⟨group, parsed⟩ := Option.isSome_iff_exists.mp (parses groupString (by simp))
      obtain ⟨others, othersOk, restored⟩ :=
        induction fun other member => parses other (by simp [member])
      have nodup := points_of_distinct distinct groupString
      obtain ⟨recordBatch, converted, _⟩ := convert_points_group_ok nodup parsed
      refine ⟨recordBatch :: others, ?_, fun earlier => ?_⟩
      · rw [convertToRecordBatches] at othersOk ⊢
        rw [List.mapM_cons, converted, othersOk]
        rfl
      · obtain ⟨first, size⟩ := (@convert_record_batch_restores renderScalar) nodup
          parsed converted earlier
        have length : earlier.length + (pointsOf groupString points).length =
            (earlier ++ groupBack options (pointsOf groupString points) group).length := by
          rw [List.length_append, groupBack, List.length_map]
        have own : parsedGroup options groupString = group := by
          rw [parsedGroup, parsed, Option.getD_some]
        simp only [convertBatches, first, size, bind, Except.bind]
        rw [length, restored, List.append_assoc, allBack, allBack, List.flatMap_cons, own]

theorem convert_to_record_batches_parses {options : ConversionOptions} {points : List Point}
    {order : List String} {recordBatches : List RecordBatch}
    (converted : convertToRecordBatches options order points = .ok recordBatches) :
    ∀ groupString ∈ order,
      (GroupingUtils.parse groupString options.measurementColumnName).isSome := by
  induction order generalizing recordBatches with
  | nil => simp
  | cons groupString rest induction =>
      rw [convertToRecordBatches, List.mapM_cons] at converted
      have parses : (GroupingUtils.parse groupString options.measurementColumnName).isSome := by
        cases parsed : GroupingUtils.parse groupString options.measurementColumnName with
        | none =>
            rw [convertPointsGroup, parsed] at converted
            cases converted
        | some group => rfl
      intro other member
      rcases List.mem_cons.mp member with rfl | inRest
      · exact parses
      · cases first : convertPointsGroup options groupString (pointsOf groupString points) with
        | error fault =>
            rw [first] at converted
            cases converted
        | ok recordBatch =>
            cases later : convertToRecordBatches options rest points with
            | error fault =>
                rw [convertToRecordBatches] at later
                rw [first, later] at converted
                cases converted
            | ok others => exact induction later other inRest

end Restoring

def carried (point : Point) : Point :=
  { point with database := "", retentionPolicy := "", dimensions := [], byName := false }

/-- The points of the groups in the order in which these are visited. -/
def arranged (order : List String) (points : List Point) : List Point :=
  order.flatMap fun groupString => pointsOf groupString points

/-- Both conversions succeed, and every point comes back as it was. -/
def RoundTrips (renderScalar : DataType → Value → String) (options : ConversionOptions)
    (order : List String) (points : List Point) : Prop :=
  ∃ recordBatches output,
    convertToRecordBatches options order points = .ok recordBatches ∧
    convertToPoints renderScalar recordBatches = .ok output ∧
    output.map carried = (arranged order points).map carried

/-- The points of a group have the same names in each of their maps. -/
def SameNames (points : List Point) : Prop :=
  ∀ left ∈ points, ∀ right ∈ points, left.group = right.group →
    ∀ names ∈ nameLists, ∀ name ∈ names left, name ∈ names right

/-- The group string of the point can be parsed, and is what `encode` makes of the result
under the tags of the point. -/
def GroupStringSurvives (options : ConversionOptions) (point : Point) : Prop :=
  ∃ group, GroupingUtils.parse point.group options.measurementColumnName = some group ∧
    GroupingUtils.encode group options.measurementColumnName
      (point.tags.keys.map fun tag => (tag, .tag)) = point.group

theorem new_point_carried (group : RecordBatchGroup) (groupString measurementColumnName : String) :
    carried (newPoint group groupString measurementColumnName) = { group := groupString } := by
  unfold newPoint
  suffices fold : ∀ start : Point, carried (group.groupColumnsNames.foldl
      (fun point groupingColumn =>
        if groupingColumn = measurementColumnName then { point with byName := true }
        else { point with dimensions := point.dimensions ++ [groupingColumn] }) start) =
        carried start from fold _
  intro start
  induction group.groupColumnsNames generalizing start with
  | nil => rfl
  | cons groupingColumn rest induction =>
      rw [List.foldl_cons, induction]
      split <;> rfl

theorem filled_get {T : Type} (absent : T) (entries : FieldMap T) (names : List String)
    (start : FieldMap T) (name : String) :
    (filled absent entries names start)[name]? =
      if name ∈ names then some (entries[name]?.getD absent) else start[name]? := by
  unfold filled
  induction names generalizing start with
  | nil => simp
  | cons first rest induction =>
      rw [List.foldl_cons, induction]
      by_cases inRest : name ∈ rest
      · simp [inRest]
      · by_cases same : first = name
        · subst same
          simp [inRest]
        · simp [inRest, same, Ne.symm same, Std.ExtTreeMap.getElem?_insert]

/-- A map is read back as it was exactly when it has all the names. -/
theorem filled_eq_iff {T : Type} (absent : T) (entries : FieldMap T) (names : List String)
    (covers : ∀ name ∈ entries, name ∈ names) :
    filled absent entries names ∅ = entries ↔ ∀ name ∈ names, name ∈ entries := by
  constructor
  · intro same name member
    rw [Std.ExtTreeMap.mem_iff_isSome_getElem?, ← same, filled_get, if_pos member]
    rfl
  · intro complete
    apply Std.ExtTreeMap.ext_getElem?
    intro name
    rw [filled_get]
    by_cases member : name ∈ names
    · obtain ⟨entry, found⟩ := Option.isSome_iff_exists.mp
        (Std.ExtTreeMap.mem_iff_isSome_getElem?.mp (complete name member))
      rw [if_pos member, found, Option.getD_some]
    · rw [if_neg member]
      cases found : entries[name]? with
      | none => simp
      | some entry =>
          exact absurd (covers name (Std.ExtTreeMap.mem_iff_isSome_getElem?.mpr (by simp [found])))
            member

theorem read_back_carried_iff {points : List Point} {point : Point} (member : point ∈ points)
    (group : RecordBatchGroup) (groupString measurementColumnName : String) :
    carried (readBack points (newPoint group groupString measurementColumnName) point) =
        carried point ↔
      groupString = point.group ∧
        ∀ names ∈ nameLists, ∀ other ∈ points, ∀ name ∈ names other, name ∈ names point := by
  have fresh := new_point_carried group groupString measurementColumnName
  generalize newPoint group groupString measurementColumnName = start at fresh
  have complete : ∀ {T : Type} (kind : FieldKind T) (absent : T),
      filled absent (kind.entries point) (kind.builderNames points) ∅ = kind.entries point ↔
        ∀ other ∈ points, ∀ name ∈ (kind.entries other).keys,
          name ∈ (kind.entries point).keys := by
    intro T kind absent
    have covers : ∀ name ∈ kind.entries point, name ∈ kind.builderNames points :=
      fun name isName => (sorted_names_mem _ points name).mpr
        ⟨point, member, Std.ExtTreeMap.mem_keys.mpr isName⟩
    rw [filled_eq_iff absent _ _ covers]
    constructor
    · intro all other inPoints name isName
      exact Std.ExtTreeMap.mem_keys.mpr
        (all name ((sorted_names_mem _ points name).mpr ⟨other, inPoints, isName⟩))
    · intro all name isName
      obtain ⟨other, inPoints, isOther⟩ := (sorted_names_mem _ points name).mp isName
      exact Std.ExtTreeMap.mem_keys.mp (all other inPoints name isOther)
  rw [carried, Point.mk.injEq] at fresh
  obtain ⟨_, _, _, _, grouped, _, tags, doubles, ints, strings, bools, _⟩ := fresh
  have shape : carried (readBack points start point) = carried point ↔
      groupString = point.group ∧
        filled "null" point.tags (tagsKind.builderNames points) ∅ = point.tags ∧
        filled (.finite 0) point.fieldsDouble (doublesKind.builderNames points) ∅ =
          point.fieldsDouble ∧
        filled 0 point.fieldsInt (intsKind.builderNames points) ∅ = point.fieldsInt ∧
        filled "null" point.fieldsString (stringsKind.builderNames points) ∅ =
          point.fieldsString ∧
        filled false point.fieldsBool (boolsKind.builderNames points) ∅ = point.fieldsBool := by
    simp only [carried, readBack, tags, doubles, ints, strings, bools, grouped, Point.mk.injEq,
      true_and, and_true]
  have kinds := (complete tagsKind "null").and ((complete doublesKind (.finite 0)).and
    ((complete intsKind 0).and ((complete stringsKind "null").and (complete boolsKind false))))
  refine shape.trans (and_congr_right fun _ => kinds.trans ?_)
  simp only [nameLists, List.mem_cons, List.not_mem_nil, or_false, forall_eq_or_imp, forall_eq,
    tagsKind, doublesKind, intsKind, stringsKind, boolsKind]
  constructor
  · rintro ⟨tag, double, int, string, bool⟩
    exact ⟨tag, int, double, string, bool⟩
  · rintro ⟨tag, int, double, string, bool⟩
    exact ⟨tag, double, int, string, bool⟩

theorem column_types_tag_iff {options : ConversionOptions} {points : List Point}
    (nodup : (columnNames options points).Nodup) (name : String) :
    (columnTypes options points).lookup name = some .tag ↔
      name ∈ tagsKind.builderNames points := by
  rw [← column_builder_names] at nodup
  constructor
  · intro found
    obtain ⟨before, after, split, _⟩ := List.lookup_eq_some_iff.mp found
    have member : (name, ColumnType.tag) ∈ columnTypes options points := by
      rw [split]
      simp
    simpa [columnTypes, columnBuilders, FieldKind.builders, columnField, getColumnType, tagsKind,
      intsKind, doublesKind, stringsKind, boolsKind] using member
  · intro member
    have isBuilder : (⟨columnField name .utf8 .tag, tagsKind.cell name,
        tagsKind.cell_admitted name⟩ : ColumnBuilder) ∈ columnBuilders options points := by
      simp only [columnBuilders, List.mem_cons, List.mem_append]
      refine .inr (.inr (.inl (.inl (.inl (.inl ?_)))))
      exact List.mem_map.mpr ⟨name, member, rfl⟩
    exact lookup_of_nodup (fun builder => builder.field.name)
      (fun builder => getColumnType builder.field) nodup isBuilder

theorem tag_lookup_iff (point : Point) (name : String) :
    (point.tags.keys.map fun tag => (tag, ColumnType.tag)).lookup name = some .tag ↔
      name ∈ point.tags.keys := by
  induction point.tags.keys with
  | nil => simp
  | cons first rest induction =>
      rw [List.map_cons, List.lookup_cons, List.mem_cons]
      by_cases same : name = first
      · simp [same]
      · simp [same, beq_false_of_ne same, induction]

/-- Where the points of a group have the same names, its group string is recoded under
the tags of any of them. -/
theorem recoded_eq {options : ConversionOptions} {points : List Point}
    (nodup : (columnNames options points).Nodup) {point : Point} (member : point ∈ points)
    (complete : ∀ names ∈ nameLists, ∀ other ∈ points, ∀ name ∈ names other, name ∈ names point)
    (group : RecordBatchGroup) :
    recoded options points group = GroupingUtils.encode group options.measurementColumnName
      (point.tags.keys.map fun tag => (tag, .tag)) := by
  apply GroupingUtils.encode_congr
  intro name _
  rw [column_types_tag_iff nodup, tag_lookup_iff]
  constructor
  · intro isName
    obtain ⟨other, inPoints, isOther⟩ := (sorted_names_mem _ points name).mp isName
    exact complete (fun point => point.tags.keys) (by simp [nameLists]) other inPoints name isOther
  · intro isTag
    exact (sorted_names_mem _ points name).mpr ⟨point, member, isTag⟩

theorem flat_map_segments {Item Result : Type} {items : List Item}
    {first second : Item → List Result}
    (lengths : ∀ item ∈ items, (first item).length = (second item).length)
    (same : items.flatMap first = items.flatMap second) :
    ∀ item ∈ items, first item = second item := by
  induction items with
  | nil => simp
  | cons head rest induction =>
      rw [List.flatMap_cons, List.flatMap_cons] at same
      obtain ⟨own, others⟩ := List.append_inj same (lengths head (by simp))
      intro item member
      rcases List.mem_cons.mp member with rfl | inRest
      · exact own
      · exact induction (fun other inRest => lengths other (by simp [inRest])) others item inRest

/-- The map of groups is visited once at each group string of the points. -/
structure Visits (order : List String) (points : List Point) : Prop where
  nodup : order.Nodup
  covers : ∀ groupString, groupString ∈ order ↔ ∃ point ∈ points, point.group = groupString

theorem arranged_perm_filter {order : List String} (nodup : order.Nodup) (points : List Point) :
    (arranged order points).Perm (points.filter fun point => point.group ∈ order) := by
  induction order with
  | nil => simp [arranged]
  | cons groupString rest induction =>
      rw [List.nodup_cons] at nodup
      have own : pointsOf groupString points =
          (points.filter fun point => point.group ∈ groupString :: rest).filter
            fun point => point.group = groupString := by
        rw [pointsOf, List.filter_filter]
        apply List.filter_congr
        intro point _
        simp +contextual
      have others : (points.filter fun point => point.group ∈ rest) =
          (points.filter fun point => point.group ∈ groupString :: rest).filter
            fun point => ¬point.group = groupString := by
        rw [List.filter_filter]
        apply List.filter_congr
        intro point _
        by_cases same : point.group = groupString
        · simp [same, nodup.1]
        · simp [same]
      rw [arranged, List.flatMap_cons, own]
      refine ((induction nodup.2).append_left _).trans ?_
      rw [others]
      simpa using List.filter_append_perm (fun point : Point => decide (point.group = groupString))
        (points.filter fun point => point.group ∈ groupString :: rest)

theorem arranged_perm {order : List String} {points : List Point}
    (visits : Visits order points) : (arranged order points).Perm points := by
  have all : (points.filter fun point => point.group ∈ order) = points := by
    rw [List.filter_eq_self]
    intro point member
    simpa using (visits.covers point.group).mpr ⟨point, member, rfl⟩
  have perm := arranged_perm_filter visits.nodup points
  rwa [all] at perm

theorem round_trips_cases (renderScalar : DataType → Value → String)
    {options : ConversionOptions} {points : List Point} {order : List String}
    (distinct : DistinctNames options points) (visits : Visits order points) :
    RoundTrips renderScalar options order points ↔
      SameNames points ∧ ∀ point ∈ points, GroupStringSurvives options point := by
  have visited : ∀ point ∈ points, point.group ∈ order ∧ point ∈ pointsOf point.group points :=
    fun point member => ⟨(visits.covers point.group).mpr ⟨point, member, rfl⟩, by
      simpa [pointsOf] using member⟩
  constructor
  · rintro ⟨recordBatches, output, converted, back, same⟩
    have parses := convert_to_record_batches_parses converted
    obtain ⟨_, own, restores⟩ := (@convert_to_record_batches_restores renderScalar) distinct parses
    rw [converted, Except.ok.injEq] at own
    subst own
    have whole : convertToPoints renderScalar recordBatches =
        .ok (allBack options order points) := restores []
    rw [back, Except.ok.injEq] at whole
    rw [whole, allBack, arranged, List.map_flatMap, List.map_flatMap] at same
    have groups := flat_map_segments (by simp [groupBack]) same
    have each : ∀ point ∈ points, recoded options (pointsOf point.group points)
        (parsedGroup options point.group) = point.group ∧
        ∀ names ∈ nameLists, ∀ other ∈ pointsOf point.group points, ∀ name ∈ names other,
          name ∈ names point := by
      intro point member
      obtain ⟨inOrder, inGroup⟩ := visited point member
      have group := groups point.group inOrder
      rw [groupBack, List.map_map, List.map_inj_left] at group
      exact (read_back_carried_iff inGroup _ _ _).mp (group point inGroup)
    refine ⟨?_, ?_⟩
    · intro left inLeft right inRight together names inLists name isName
      refine (each right inRight).2 names inLists left ?_ name isName
      simpa [pointsOf, together] using inLeft
    · intro point member
      obtain ⟨inOrder, inGroup⟩ := visited point member
      obtain ⟨group, parsed⟩ := Option.isSome_iff_exists.mp (parses point.group inOrder)
      obtain ⟨survives, complete⟩ := each point member
      refine ⟨group, parsed, ?_⟩
      rw [← recoded_eq (points_of_distinct distinct point.group) inGroup complete]
      rwa [parsedGroup, parsed, Option.getD_some] at survives
  · rintro ⟨sameNames, survive⟩
    have parses : ∀ groupString ∈ order,
        (GroupingUtils.parse groupString options.measurementColumnName).isSome := by
      intro groupString inOrder
      obtain ⟨point, member, rfl⟩ := (visits.covers groupString).mp inOrder
      obtain ⟨group, parsed, _⟩ := survive point member
      rw [parsed]
      rfl
    obtain ⟨recordBatches, converted, restores⟩ := (@convert_to_record_batches_restores
        renderScalar) distinct parses
    refine ⟨recordBatches, _, converted, restores [], ?_⟩
    rw [List.nil_append, allBack, arranged, List.map_flatMap, List.map_flatMap]
    apply List.flatMap_congr
    intro groupString inOrder
    rw [groupBack, List.map_map, List.map_inj_left]
    intro point inGroup
    obtain ⟨member, rfl⟩ := points_of_group inGroup
    have complete : ∀ names ∈ nameLists, ∀ other ∈ pointsOf point.group points,
        ∀ name ∈ names other, name ∈ names point := by
      intro names inLists other inOther name isName
      obtain ⟨inPoints, together⟩ := points_of_group inOther
      exact sameNames other inPoints point member together names inLists name isName
    obtain ⟨group, parsed, survives⟩ := survive point member
    refine (read_back_carried_iff inGroup _ _ _).mpr ⟨?_, complete⟩
    rw [parsedGroup, parsed, Option.getD_some,
      recoded_eq (points_of_distinct distinct point.group) inGroup complete]
    exact survives

/-- The points come back group after group, each as it was, exactly when the points of a
group have the same names and their group strings survive. -/
theorem points_round_trip_iff (renderScalar : DataType → Value → String)
    (options : ConversionOptions) (points : List Point) (order : List String)
    (distinct : DistinctNames options points) (visits : Visits order points) :
    (arranged order points).Perm points ∧
      (RoundTrips renderScalar options order points ↔
        SameNames points ∧ ∀ point ∈ points, GroupStringSurvives options point) :=
  ⟨arranged_perm visits, round_trips_cases renderScalar distinct visits⟩

def hostPoint (time : Int) (group : String) : Point where
  time := time
  name := "cpu"
  group := group
  tags := (∅ : FieldMap String).insert "host" "a"

theorem host_points_round_trip :
    (arranged ["host=a"] [hostPoint 1 "host=a", hostPoint 2 "host=a"]).Perm
        [hostPoint 1 "host=a", hostPoint 2 "host=a"] ∧
      (RoundTrips (fun _ _ => "") defaultToRecordBatchesOptions ["host=a"]
          [hostPoint 1 "host=a", hostPoint 2 "host=a"] ↔
        SameNames [hostPoint 1 "host=a", hostPoint 2 "host=a"] ∧
          ∀ point ∈ [hostPoint 1 "host=a", hostPoint 2 "host=a"],
            GroupStringSurvives defaultToRecordBatchesOptions point) :=
  points_round_trip_iff _ _ _ _
    { kinds := by decide
      time := by decide
      measurement := by decide
      columns := by decide }
    { nodup := by decide
      covers := by simp [hostPoint, eq_comm] }

/-- The group string is what `encode` produces for some of the tags of the point, and for
its measurement where that belongs to the group. -/
def EncodedGroup (options : ConversionOptions) (point : Point) : Prop :=
  ∃ groupMap : Std.ExtTreeMap String String,
    (∀ name value, groupMap[name]? = some value → point.tags[name]? = some value ∨
      name = options.measurementColumnName ∧ value = point.name) ∧
    point.group = GroupingUtils.encode (constructGroupFromOrderedMap groupMap)
      options.measurementColumnName (point.tags.keys.map fun tag => (tag, .tag))

/-- A point without the tag of its neighbour comes back with the tag `null`. -/
theorem absent_tag_is_invented :
    ¬∀ (renderScalar : DataType → Value → String) (options : ConversionOptions)
      (points : List Point) (order : List String), DistinctNames options points →
      (∀ point ∈ points, EncodedGroup options point) → Visits order points →
      RoundTrips renderScalar options order points := by
  intro claim
  have distinct : DistinctNames defaultToRecordBatchesOptions
      [hostPoint 1 "", { time := 2, name := "cpu" }] := {
    kinds := by decide
    time := by decide
    measurement := by decide
    columns := by decide }
  have visits : Visits [""] [hostPoint 1 "", { time := 2, name := "cpu" }] := {
    nodup := by decide
    covers := by simp [hostPoint] }
  have encoded : ∀ point ∈ [hostPoint 1 "", { time := 2, name := "cpu" }],
      EncodedGroup defaultToRecordBatchesOptions point := by
    intro point member
    refine ⟨∅, by simp, ?_⟩
    simp only [List.mem_cons, List.not_mem_nil, or_false] at member
    rcases member with rfl | rfl <;> rfl
  obtain ⟨sameNames, _⟩ := (round_trips_cases (fun _ _ => "") distinct visits).mp
    (claim _ _ _ _ distinct encoded visits)
  exact absurd sameNames (by unfold SameNames; decide)

end StreamDataProcessor.Kapacitor.PointsConverter
