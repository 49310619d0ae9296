import StreamDataProcessor.Kapacitor.PointsRoundTrip
import StreamDataProcessor.Kapacitor.PointsStorage
import Mathlib.Order.Bounds.Defs

/-!
# Batch output in blocks

The result batches of a handler, in the layout of `convertToRecordBatches`, become
blocks of a BeginBatch, its points and an EndBatch.
-/

namespace StreamDataProcessor.Kapacitor

open Foundation.Effect Foundation.Binary64 Arrow Metadata PointsConverter

set_option autoImplicit false

/-- Timestamps without nulls come first, and no other column is a time column. -/
structure PointsLayout (timeField : Field) (others : List Field) (unit : Arrow.TimeUnit)
    (times : List Int) (recordBatch : RecordBatch) : Prop where
  fields : recordBatch.schema.fields = timeField :: others
  type : timeField.type = .timestamp unit
  columnType : getColumnType timeField = .time
  single : ∀ other ∈ others, getColumnType other ≠ .time
  named : ∀ name, recordBatch.schema.metadata.timeColumnName = some name → name = timeField.name
  full : recordBatch.rows.map (fun row => row.getD 0 none) =
    times.map fun time => some (.integer time)

def InPointsLayout (recordBatch : RecordBatch) : Prop :=
  ∃ timeField others unit times, PointsLayout timeField others unit times recordBatch

structure Block where
  beginBatch : BeginBatch
  points : List Point
  endBatch : EndBatch

namespace Block

def responses (block : Block) : List Response :=
  .beginBatch block.beginBatch :: (block.points.map .point ++ [.endBatch block.endBatch])

structure WellBracketed (block : Block) : Prop where
  size : block.beginBatch.size = block.points.length
  name : block.beginBatch.name = block.endBatch.name
  group : block.beginBatch.group = block.endBatch.group
  tags : block.beginBatch.tags = block.endBatch.tags
  byName : block.beginBatch.byName = block.endBatch.byName
  pointGroups : ∀ point ∈ block.points, point.group = block.beginBatch.group
  tmax : IsGreatest {time | ∃ point ∈ block.points, point.time = time} block.endBatch.tmax

end Block

theorem convert_points_group_layout {options : ConversionOptions} {groupString : String}
    {points : List Point} {recordBatch : RecordBatch}
    (converted : convertPointsGroup options groupString points = .ok recordBatch) :
    InPointsLayout recordBatch := by
  obtain ⟨group, _, schema, rows⟩ := convert_points_group_result converted
  refine ⟨columnField options.timeColumnName (.timestamp .nano) .time,
    (columnBuilders options points).tail.map ColumnBuilder.field, .nano, points.map Point.time, ?_⟩
  exact {
    fields := by rw [schema]; rfl
    type := rfl
    columnType := rfl
    single := by
      intro other member
      simp only [columnBuilders, List.tail_cons, FieldKind.builders, List.map_cons, List.map_append,
        List.map_map, List.mem_cons, List.mem_append, List.mem_map, Function.comp_apply] at member
      rcases member with rfl | (((named | named) | named) | named) | named
      · simp [getColumnType, columnField]
      all_goals
        obtain ⟨name, _, rfl⟩ := named
        simp [getColumnType, columnField, tagsKind, intsKind, doublesKind, stringsKind, boolsKind]
    named := by
      intro name isName
      rw [schema, Option.some.injEq] at isName
      exact isName.symm
    full := by
      rw [rows, List.map_map, List.map_map]
      rfl }

section Blocks

variable (renderScalar : DataType → Value → String)

def converts (recordBatch : RecordBatch) : Bool :=
  (convertToPoints renderScalar [recordBatch]).isOk

/-- The block of a result batch whose begin and end can both be built. -/
def blockOf (recordBatch : RecordBatch) : Option Block := do
  let points ← (convertToPoints renderScalar [recordBatch]).toOption
  let beginBatch ← (getBeginBatchResponse renderScalar recordBatch).toOption
  let endBatch ← (getEndBatchResponse renderScalar recordBatch).toOption
  return ⟨beginBatch, points, endBatch⟩

def blocksOf (resultBatches : List RecordBatch) : List Block :=
  (resultBatches.takeWhile (converts renderScalar)).filterMap (blockOf renderScalar)

end Blocks

/-- A result that is a value meeting the postcondition, or a status. -/
def Settles {Value : Type} (post : Value → Prop) : Outcome Value → Prop
  | .ok value => post value
  | .error (.status _) => True
  | .error _ => False

section Settles

variable {Value Result : Type} {post : Value → Prop}

theorem settles_fail (code : StatusCode) (message : String) :
    Settles post (fail code message) := trivial

theorem settles_mono {weaker : Value → Prop} {outcome : Outcome Value}
    (settles : Settles post outcome) (implies : ∀ value, post value → weaker value) :
    Settles weaker outcome := by
  cases outcome with
  | ok value => exact implies value settles
  | error fault => cases fault <;> exact settles

theorem settles_of_ok {outcome : Outcome Value} {value : Value} (settles : Settles post outcome)
    (returned : outcome = .ok value) : post value := by
  rw [returned] at settles
  exact settles

theorem settles_bind {outcome : Outcome Value} {next : Value → Outcome Result}
    {later : Result → Prop} (settles : Settles post outcome)
    (rest : ∀ value, outcome = .ok value → post value → Settles later (next value)) :
    Settles later (outcome >>= next) := by
  cases outcome with
  | ok value => exact rest value rfl settles
  | error fault => cases fault <;> exact settles

theorem settles_with {outcome : Outcome Value} (settles : Settles (fun _ => True) outcome)
    (returned : ∀ value, outcome = .ok value → post value) : Settles post outcome := by
  cases outcome with
  | ok value => exact returned value rfl
  | error fault => cases fault <;> exact settles

theorem settles_column_name (metadata : SchemaMetadata) (key : String)
    (entry : SchemaMetadata → Option String) :
    Settles (fun name => entry metadata = some name) (getColumnNameMetadata metadata key entry) := by
  apply settles_with _ fun name => column_name_of_ok
  unfold getColumnNameMetadata
  split
  · exact settles_fail _ _
  · cases entry metadata with
    | none => exact settles_fail _ _
    | some name => trivial

theorem settles_column_types (recordBatch : RecordBatch) :
    Settles (fun columnTypes => recordBatch.schema.fieldNames.Nodup ∧
      columnTypes = recordBatch.schema.fields.map fun field => (field.name, getColumnType field))
      (getColumnTypes recordBatch) := by
  have settles : ∀ (fields : List Field) (seen : List String),
      Settles (fun _ => True) (getColumnTypesFrom seen fields) := by
    intro fields
    induction fields with
    | nil => exact fun _ => trivial
    | cons field rest induction =>
        intro seen
        rw [getColumnTypesFrom]
        split
        · exact settles_fail _ _
        · exact settles_bind (induction _) fun _ _ _ => trivial
  apply settles_with (settles _ _)
  intro columnTypes returned
  obtain ⟨nodup, _, same⟩ := column_types_from_of_ok returned
  exact ⟨nodup, same⟩

end Settles

section Conversion

variable (renderScalar : DataType → Value → String)

def stamp (point : Point) : String × Int := (point.group, point.time)

theorem set_cell_keeps (columnName : String) {columnType : ColumnType} (type : DataType)
    (cell : Scalar) (point : Point) (untimed : columnType ≠ .time) :
    Settles (fun changed => ∀ after, changed = some after → stamp after = stamp point)
      (setCell renderScalar columnName columnType type cell point) := by
  have same : ∀ changed : Point, stamp changed = stamp point →
      ∀ after, some changed = some after → stamp after = stamp point := by
    intro changed stamped after isAfter
    cases isAfter
    exact stamped
  cases columnType with
  | unknown => exact settles_fail _ _
  | time => exact absurd rfl untimed
  | measurement => exact same _ rfl
  | tag => exact same _ rfl
  | field =>
      cases type with
      | na | boolean | int64 | double | utf8 => exact same _ rfl
      | _ =>
          intro after isAfter
          cases isAfter

theorem convert_cells_keep (fresh : Point) (columnName : String) {columnType : ColumnType}
    (type : DataType) (untimed : columnType ≠ .time) {index : Nat} (later : index ≠ 0)
    (points : List Point) (row : Nat) (cells : List Scalar)
    (bound : row + cells.length ≤ points.length) :
    Settles (fun after => after.map stamp = points.map stamp)
      (convertCells renderScalar fresh columnName columnType type 0 index points row cells) := by
  induction cells generalizing points row with
  | nil => exact rfl
  | cons cell rest induction =>
      rw [List.length_cons] at bound
      have inRange : row < points.length := by omega
      rw [convertCells, if_neg later]
      simp only [Nat.zero_add, List.getElem?_eq_getElem inRange]
      apply settles_bind (set_cell_keeps renderScalar columnName type cell points[row] untimed)
      intro changed _ keeps
      cases changed with
      | none => exact rfl
      | some changed =>
          have stamped := keeps changed rfl
          have settles := induction (points.set row changed) (row + 1)
            (by rw [List.length_set]; omega)
          apply settles_mono settles
          intro after same
          rw [same, List.map_set, stamped]
          apply List.ext_getElem?
          intro position
          rw [List.getElem?_set]
          split
          · next at_row =>
            subst at_row
            simp [inRange]
          · rfl

theorem convert_columns_keep (fresh : Point) (columnTypes : List (String × ColumnType))
    (recordBatch : RecordBatch) (points : List Point) (index : Nat) (fields : List Field)
    (untimed : ∀ field ∈ fields, (columnTypes.lookup field.name).getD .unknown ≠ .time)
    (later : index ≠ 0) (count : points.length = recordBatch.numRows) :
    Settles (fun after => after.map stamp = points.map stamp)
      (convertColumns renderScalar fresh columnTypes recordBatch 0 points index fields) := by
  induction fields generalizing points index with
  | nil => exact rfl
  | cons field rest induction =>
      rw [convertColumns]
      have cells := convert_cells_keep renderScalar fresh field.name field.type
        (untimed field (by simp)) later points 0
        (recordBatch.rows.map fun row => row.getD index none)
        (by rw [List.length_map, count, RecordBatch.numRows]; omega)
      apply settles_bind cells
      intro converted _ stamped
      have length : converted.length = recordBatch.numRows := by
        rw [← count]
        simpa using congrArg List.length stamped
      apply settles_mono (induction converted (index + 1)
        (fun other member => untimed other (by simp [member])) (by omega) length)
      intro after same
      rw [same, stamped]

theorem convert_times (fresh : Point) {field : Field} {unit : Arrow.TimeUnit}
    (type : field.type = .timestamp unit) (columnType : getColumnType field = .time)
    (times : List Int) :
    convertCells renderScalar fresh field.name .time field.type 0 0 [] 0
        (times.map fun time => some (.integer time)) =
      .ok (times.map fun time => { fresh with time := convertTimestamp unit .nano time }) := by
  let restoration : Restoration renderScalar := {
    builder := ⟨field, fun source => some (.integer source.time), by intro; rw [type]; rfl⟩
    restore := fun source point => { point with time := convertTimestamp unit .nano source.time }
    restores := by intro source point; simp only [columnType, type]; rfl }
  have column := convert_cells_first restoration fresh [] []
    (times.map fun time => { time := time })
  simp only [List.map_map, List.nil_append, List.length_nil, restoration, columnType] at column
  exact column

/-- The points of a batch have its group string, and the times of its rows in order. -/
theorem convert_to_points_stamps {timeField : Field} {others : List Field}
    {unit : Arrow.TimeUnit} {times : List Int} {recordBatch : RecordBatch}
    (layout : PointsLayout timeField others unit times recordBatch) :
    Settles (fun points => ∃ groupString,
      getGroupString recordBatch = .ok groupString ∧
      getTimeColumnNameMetadata recordBatch = .ok timeField.name ∧
      recordBatch.schema.fieldNames.Nodup ∧
      points.map stamp = times.map fun time => (groupString, convertTimestamp unit .nano time))
      (convertToPoints renderScalar [recordBatch]) := by
  have typed : ∀ columnTypes, recordBatch.schema.fieldNames.Nodup →
      columnTypes = recordBatch.schema.fields.map (fun field => (field.name, getColumnType field)) →
      ∀ field ∈ recordBatch.schema.fields,
        (columnTypes.lookup field.name).getD .unknown = getColumnType field := by
    intro columnTypes nodup same field member
    rw [same, lookup_of_nodup Field.name getColumnType nodup member, Option.getD_some]
  simp only [convertToPoints, convertBatches, convertRecordBatch, bind_assoc]
  apply settles_bind (settles_column_name _ _ _)
  intro timeColumnName timeFound timeNamed
  apply settles_bind (settles_column_name _ _ _)
  intro measurementColumnName measurementFound _
  apply settles_bind (settles_column_types recordBatch)
  intro columnTypes typesFound facts
  obtain ⟨nodup, isMap⟩ := facts
  have types := typed columnTypes nodup isMap
  have count : times.length = recordBatch.numRows := by
    simpa [RecordBatch.numRows] using (congrArg List.length layout.full).symm
  have timeName : timeColumnName = timeField.name := layout.named _ timeNamed
  have first : (columnTypes.lookup timeField.name).getD .unknown = .time := by
    rw [types timeField (by simp [layout.fields]), layout.columnType]
  rw [layout.fields]
  simp only [convertColumns, first, layout.full, convert_times _ _ layout.type layout.columnType]
  generalize isFresh : newPoint _ _ _ = fresh
  apply settles_bind (convert_columns_keep renderScalar fresh columnTypes recordBatch _ 1 others
    (fun other member => by
      rw [types other (by simp [layout.fields, member])]
      exact layout.single other member)
    (by simp) (by rw [List.length_map, count]))
  intro points _ stamped
  refine ⟨fresh.group, ?_, by rw [← timeName]; exact timeFound, nodup, ?_⟩
  · have group : fresh.group = GroupingUtils.encode (extractGroup recordBatch)
        measurementColumnName columnTypes := by
      rw [← isFresh]
      exact congrArg Point.group (new_point_carried _ _ _)
    have measurement : getMeasurementColumnNameMetadata recordBatch = .ok measurementColumnName :=
      measurementFound
    rw [getGroupString, measurement, typesFound, group]
    rfl
  · rw [stamped, List.map_map]
    rfl

end Conversion

section Messages

variable (renderScalar : DataType → Value → String)

/-- What the begin and the end message of a batch have in common. -/
def heading (recordBatch : RecordBatch) :
    Outcome (String × String × FieldMap String × Bool) := do
  let name ← getMeasurementAndValidate renderScalar recordBatch
  let group ← getGroupString recordBatch
  let (tags, byName) ← groupTagsAndByName recordBatch
  return (name, group, tags, byName)

theorem begin_batch_response_eq (recordBatch : RecordBatch) :
    getBeginBatchResponse renderScalar recordBatch =
      heading renderScalar recordBatch >>= fun (name, group, tags, byName) =>
        pure { name, group, tags, byName, size := recordBatch.numRows } := by
  simp only [getBeginBatchResponse, heading, bind_assoc, pure_bind]

theorem end_batch_response_eq (recordBatch : RecordBatch) :
    getEndBatchResponse renderScalar recordBatch =
      heading renderScalar recordBatch >>= fun (name, group, tags, byName) =>
        getTMax recordBatch >>= fun tmax => pure { name, group, tags, byName, tmax } := by
  simp only [getEndBatchResponse, heading, bind_assoc, pure_bind]

theorem settles_measurement (recordBatch : RecordBatch) :
    Settles (fun _ => recordBatch.rows ≠ [] ∧ ∃ name column,
      getMeasurementColumnNameMetadata recordBatch = .ok name ∧
        recordBatch.getColumnByName name = some column) (getMeasurement renderScalar recordBatch) := by
  rw [getMeasurement]
  apply settles_bind (settles_column_name _ _ _)
  intro name named _
  cases found : recordBatch.getColumnByName name with
  | none => exact settles_fail _ _
  | some column =>
      dsimp only
      split
      · exact settles_fail _ _
      · next rows =>
        have scalar : Settles (fun _ => True) (column.getScalar 0) := by
          unfold Column.getScalar
          split
          · trivial
          · exact settles_fail _ _
        apply settles_bind scalar
        intro _ _ _
        exact ⟨fun empty => rows (by rw [RecordBatch.numRows, empty]; rfl), name, column, named,
          found⟩

theorem settles_heading (recordBatch : RecordBatch) :
    Settles (fun (_, group, _) => recordBatch.rows ≠ [] ∧ getGroupString recordBatch = .ok group)
      (heading renderScalar recordBatch) := by
  have name : Settles (fun _ => recordBatch.rows ≠ [])
      (getMeasurementAndValidate renderScalar recordBatch) := by
    rw [getMeasurementAndValidate]
    apply settles_bind (settles_measurement renderScalar recordBatch)
    intro value _ facts
    obtain ⟨filled, name, column, named, found⟩ := facts
    simp only [named, bind, Except.bind, found]
    split
    · exact filled
    · exact settles_fail _ _
  have group : Settles (fun _ => True) (getGroupString recordBatch) := by
    rw [getGroupString]
    apply settles_bind (settles_column_name _ _ _)
    intro _ _ _
    exact settles_bind (settles_column_types recordBatch) fun _ _ _ => trivial
  have tags : Settles (fun _ => True) (groupTagsAndByName recordBatch) := by
    rw [groupTagsAndByName]
    exact settles_bind (settles_column_name _ _ _) fun _ _ _ => trivial
  rw [heading]
  apply settles_bind name
  intro _ _ filled
  apply settles_bind group
  intro _ grouped _
  apply settles_bind tags
  intro _ _ _
  exact ⟨filled, grouped⟩

theorem t_max_of_layout {timeField : Field} {others : List Field} {unit : Arrow.TimeUnit}
    {times : List Int} {recordBatch : RecordBatch}
    (layout : PointsLayout timeField others unit times recordBatch)
    (filled : recordBatch.rows ≠ [])
    (named : getTimeColumnNameMetadata recordBatch = .ok timeField.name)
    (nodup : recordBatch.schema.fieldNames.Nodup) :
    ∃ greatest, getTMax recordBatch = .ok (convertTimestamp unit .nano greatest) ∧
      IsGreatest {time | time ∈ times} greatest := by
  have some_time : times ≠ [] := by
    intro empty
    have count := congrArg List.length layout.full
    rw [empty, List.length_map, List.map_nil, List.length_nil] at count
    exact filled (List.eq_nil_of_length_eq_zero count)
  cases maximal : times.max? with
  | none => exact absurd (List.max?_eq_none_iff.mp maximal) some_time
  | some greatest =>
      have field : recordBatch.schema.fields[0]? = some timeField := by rw [layout.fields]; rfl
      have found := get_column_by_name_eq recordBatch (field_index_of_nodup nodup field)
        (show recordBatch.schema.types[0]? = some timeField.type by
          rw [Schema.types, List.getElem?_map, field, Option.map_some])
      have last := Handlers.last_of_full_times named found layout.type layout.full maximal
      refine ⟨greatest, ?_, List.max?_mem maximal, ?_⟩
      · simp only [getTMax, named, last, Handlers.aggregatedColumn, found, layout.type, bind,
          Except.bind, castTimestampScalar]
        rfl
      · intro time member
        exact (List.max?_eq_some_iff.mp maximal).2 time member

end Messages

section Blocks

variable {renderScalar : DataType → Value → String} {recordBatch : RecordBatch}
  {points : List Point}

/-- A batch that has converted has no begin message, or has both messages and they fit. -/
theorem messages_of_layout (layout : InPointsLayout recordBatch)
    (converted : convertToPoints renderScalar [recordBatch] = .ok points) :
    (∃ status, getBeginBatchResponse renderScalar recordBatch = .error (.status status)) ∨
      ∃ beginBatch endBatch, getBeginBatchResponse renderScalar recordBatch = .ok beginBatch ∧
        getEndBatchResponse renderScalar recordBatch = .ok endBatch ∧
        (Block.mk beginBatch points endBatch).WellBracketed := by
  obtain ⟨timeField, others, unit, times, layout⟩ := layout
  obtain ⟨groupString, grouped, named, nodup, stamps⟩ :=
    settles_of_ok (convert_to_points_stamps renderScalar layout) converted
  have settled := settles_heading renderScalar recordBatch
  rw [begin_batch_response_eq, end_batch_response_eq]
  cases outcome : heading renderScalar recordBatch with
  | error fault =>
      rw [outcome] at settled
      cases fault with
      | status status => exact .inl ⟨status, rfl⟩
      | _ => cases settled
  | ok parts =>
      obtain ⟨name, group, tags, byName⟩ := parts
      obtain ⟨filled, own⟩ := settles_of_ok settled outcome
      obtain ⟨greatest, tmax, member, bound⟩ := t_max_of_layout layout filled named nodup
      have sameGroup : groupString = group := by
        rw [grouped] at own
        exact Except.ok.inj own
      have pointTimes : points.map Point.time = times.map (convertTimestamp unit .nano) := by
        simpa [stamp, Function.comp_def] using congrArg (List.map Prod.snd) stamps
      have pointGroups : points.map Point.group = times.map fun _ => groupString := by
        simpa [stamp, Function.comp_def] using congrArg (List.map Prod.fst) stamps
      have count : times.length = recordBatch.numRows := by
        simpa [RecordBatch.numRows] using (congrArg List.length layout.full).symm
      refine .inr ⟨_, _, rfl, by rw [tmax]; rfl, ?_⟩
      exact {
        size := by simpa [count] using (congrArg List.length pointTimes).symm
        name := rfl
        group := rfl
        tags := rfl
        byName := rfl
        pointGroups := by
          intro point inPoints
          have occurs : point.group ∈ points.map Point.group := List.mem_map_of_mem inPoints
          rw [pointGroups, List.mem_map] at occurs
          obtain ⟨_, _, same⟩ := occurs
          rw [← same, sameGroup]
        tmax := by
          constructor
          · have occurs : convertTimestamp unit .nano greatest ∈ points.map Point.time := by
              rw [pointTimes]
              exact List.mem_map_of_mem member
            exact List.mem_map.mp occurs
          · intro time isTime
            obtain ⟨point, inPoints, rfl⟩ := isTime
            have occurs : point.time ∈ points.map Point.time := List.mem_map_of_mem inPoints
            rw [pointTimes] at occurs
            obtain ⟨own, inTimes, same⟩ := List.mem_map.mp occurs
            rw [← same]
            exact convert_timestamp_mono _ _ (bound inTimes) }

theorem block_of_layout {block : Block} (layout : InPointsLayout recordBatch)
    (built : blockOf renderScalar recordBatch = some block) : block.WellBracketed := by
  unfold blockOf at built
  cases converted : convertToPoints renderScalar [recordBatch] with
  | error fault =>
      rw [converted] at built
      cases built
  | ok points =>
      rw [converted] at built
      rcases messages_of_layout layout converted with failed | fitting
      · obtain ⟨status, failed⟩ := failed
        rw [failed] at built
        cases built
      · obtain ⟨beginBatch, endBatch, begun, ended, fits⟩ := fitting
        rw [begun, ended] at built
        cases built
        exact fits

end Blocks

section Storage

variable {State : Type} {storage : PointsStorage State} {pointsConverter : Converter}

/-- The responses for a batch are its block, or nothing; a batch that does not convert ends
the call with a status. -/
theorem result_responses_of_layout {recordBatch : RecordBatch}
    (provides : storage.providesBatch = true)
    (own : pointsConverter.convertToPoints = convertToPoints storage.renderScalar)
    (layout : InPointsLayout recordBatch) :
    storage.resultResponses pointsConverter recordBatch =
        .ok ((blockOf storage.renderScalar recordBatch).toList.flatMap Block.responses) ∧
        converts storage.renderScalar recordBatch = true ∨
      (∃ status, storage.resultResponses pointsConverter recordBatch = .error (.status status)) ∧
        converts storage.renderScalar recordBatch = false := by
  rw [PointsStorage.resultResponses, own, provides, blockOf, converts]
  cases converted : convertToPoints storage.renderScalar [recordBatch] with
  | error fault =>
      obtain ⟨timeField, others, unit, times, own⟩ := layout
      have settles := convert_to_points_stamps storage.renderScalar own
      rw [converted] at settles
      cases fault with
      | status status => exact .inr ⟨⟨status, rfl⟩, rfl⟩
      | _ => cases settles
  | ok points =>
      refine .inl ⟨?_, rfl⟩
      rcases messages_of_layout layout converted with failed | fitting
      · obtain ⟨status, failed⟩ := failed
        simp only [PointsStorage.bracket, failed]
        rfl
      · obtain ⟨beginBatch, endBatch, begun, ended, _⟩ := fitting
        simp only [PointsStorage.bracket, begun, ended]
        simp [bind, Except.bind, pure, Except.pure, Except.toOption, Block.responses]

/-- A run over result batches that ends having written some responses more, without a fault
if all the batches convert, and with a status otherwise. -/
def WritesUpToFailure (before : Contents State) (responses : List Response) (allConvert : Prop) :
    EStateM.Result Fault (Contents State) Unit → Prop :=
  Ends (fun fault after => after.written = before.written ++ responses ∧ ¬allConvert ∧
      ∃ status, fault = .status status)
    (fun _ after => after.written = before.written ++ responses ∧ allConvert)

theorem written_after (contents : Contents State) (responses : List Response) :
    Contents.written { contents with
      events := contents.events ++ responses.map Event.writes } =
      contents.written ++ responses := by
  simp only [Contents.written, List.filterMap_append, List.filterMap_map, List.append_cancel_left_eq]
  exact List.filterMap_some

theorem write_results_of_layout (storage : PointsStorage State) (pointsConverter : Converter)
    (provides : storage.providesBatch = true)
    (own : pointsConverter.convertToPoints = convertToPoints storage.renderScalar)
    (resultBatches : List RecordBatch)
    (layout : ∀ resultBatch ∈ resultBatches, InPointsLayout resultBatch)
    (contents : Contents State) :
    WritesUpToFailure contents
      ((blocksOf storage.renderScalar resultBatches).flatMap Block.responses)
      (∀ resultBatch ∈ resultBatches, converts storage.renderScalar resultBatch = true)
      (storage.writeResults pointsConverter resultBatches contents) := by
  induction resultBatches generalizing contents with
  | nil => exact ⟨(List.append_nil _).symm, by simp⟩
  | cons resultBatch rest induction =>
      rw [PointsStorage.writeResults]
      rcases result_responses_of_layout provides own (layout resultBatch (by simp)) with
        written | failed
      · obtain ⟨responses, converted⟩ := written
        rw [responses, bind_of_ok (of_except_ok _ contents),
          bind_of_ok (PointsStorage.write_responses_apply _ contents)]
        have others := induction (fun other member => layout other (by simp [member]))
          { contents with events := contents.events ++
            ((blockOf storage.renderScalar resultBatch).toList.flatMap
              Block.responses).map Event.writes }
        have blocks : (blocksOf storage.renderScalar (resultBatch :: rest)).flatMap
            Block.responses = (blockOf storage.renderScalar resultBatch).toList.flatMap
              Block.responses ++ (blocksOf storage.renderScalar rest).flatMap Block.responses := by
          rw [blocksOf, List.takeWhile_cons, if_pos converted, List.filterMap_cons]
          cases blockOf storage.renderScalar resultBatch <;> simp [blocksOf]
        apply ends_mono others
        · intro fault after ended
          obtain ⟨same, unfinished, isStatus⟩ := ended
          rw [written_after] at same
          refine ⟨by rw [same, blocks, List.append_assoc], ?_, isStatus⟩
          exact fun all => unfinished fun other member => all other (by simp [member])
        · intro _ after ended
          obtain ⟨same, all⟩ := ended
          rw [written_after] at same
          refine ⟨by rw [same, blocks, List.append_assoc], ?_⟩
          intro other member
          rcases List.mem_cons.mp member with rfl | inRest
          · exact converted
          · exact all other inRest
      · obtain ⟨raised, unconverted⟩ := failed
        obtain ⟨status, raised⟩ := raised
        rw [raised, bind_of_error (of_except_error _ contents)]
        have none : blocksOf storage.renderScalar (resultBatch :: rest) = [] := by
          rw [blocksOf, List.takeWhile_cons, if_neg (by simp [unconverted]), List.filterMap_nil]
        refine ⟨by rw [none, List.flatMap_nil, List.append_nil], ?_, status, rfl⟩
        intro all
        rw [all resultBatch (by simp)] at unconverted
        cases unconverted

/-- What a storage over the points converter writes for the result of its handler is a
sequence of well-bracketed blocks, one for each result batch before the first that does not
convert, less those whose messages cannot be built. -/
theorem batch_output_well_bracketed (renderScalar : DataType → Value → String)
    (convertToRecordBatches : List Point → Outcome (List RecordBatch))
    (handler : RecordBatchHandler State) (contents : Contents State)
    (recordBatches resultBatches : List RecordBatch) (after : State)
    (received : contents.points ≠ [])
    (converted : convertToRecordBatches contents.points = .ok recordBatches)
    (handled : handler.handle recordBatches contents.handler = .ok resultBatches after)
    (layout : ∀ resultBatch ∈ resultBatches, InPointsLayout resultBatch) :
    (∀ block ∈ blocksOf renderScalar resultBatches, block.WellBracketed) ∧
      WritesUpToFailure contents
        ((blocksOf renderScalar resultBatches).flatMap Block.responses)
        (∀ resultBatch ∈ resultBatches, converts renderScalar resultBatch = true)
        ((PointsStorage.mk (some ⟨convertToRecordBatches, convertToPoints renderScalar⟩)
          (some handler) true renderScalar).handleBatch contents) := by
  constructor
  · intro block member
    obtain ⟨resultBatch, taken, built⟩ := List.mem_filterMap.mp member
    exact block_of_layout (layout resultBatch ((List.takeWhile_sublist _).subset taken)) built
  · let noted : Contents State := {
      handler := after
      points := contents.points
      events := contents.events ++ [.converts contents.points] ++ [.handles recordBatches] }
    let asked : Contents State := { contents with
      events := contents.events ++ [.converts contents.points] }
    have called : PointsStorage.callHandler handler recordBatches asked =
        .ok resultBatches noted := by
      simp only [PointsStorage.callHandler, asked, handled, noted]
    have written : noted.written = contents.written := by
      simp [Contents.written, noted, Event.response?]
    let storage : PointsStorage State :=
      ⟨some ⟨convertToRecordBatches, convertToPoints renderScalar⟩, some handler, true, renderScalar⟩
    have results := write_results_of_layout storage
      ⟨convertToRecordBatches, convertToPoints renderScalar⟩ rfl rfl resultBatches layout noted
    rw [WritesUpToFailure, written] at results
    simp only [PointsStorage.handleBatch]
    rw [bind_of_ok (get_apply contents), if_neg received,
      bind_of_ok (PointsStorage.call_converter_ok (by exact converted) contents),
      bind_of_ok called]
    exact results

end Storage

def cpuBatch : RecordBatch where
  schema := {
    fields := [columnField "time" (.timestamp .nano) .time, columnField "name" .utf8 .measurement]
    metadata := { timeColumnName := some "time", measurementColumnName := some "name" } }
  rows := [[some (.integer 1), some (.string "cpu")], [some (.integer 3), some (.string "cpu")],
    [some (.integer 2), some (.string "cpu")]]
  conforms := by
    intro row member
    simp only [List.mem_cons, List.not_mem_nil, or_false] at member
    rcases member with rfl | rfl | rfl <;> exact .cons rfl (.cons rfl .nil)

theorem cpu_batch_layout : InPointsLayout cpuBatch :=
  ⟨_, _, .nano, [1, 3, 2], {
    fields := rfl
    type := rfl
    columnType := rfl
    single := by decide
    named := by
      intro name isName
      cases isName
      rfl
    full := rfl }⟩

def constantHandler (resultBatches : List RecordBatch) : RecordBatchHandler Unit where
  handle := fun _ => pure resultBatches

theorem cpu_batch_well_bracketed :
    (∀ block ∈ blocksOf (fun _ _ => "") [cpuBatch], block.WellBracketed) ∧
      WritesUpToFailure { handler := (), points := [{ name := "cpu" }] }
        ((blocksOf (fun _ _ => "") [cpuBatch]).flatMap Block.responses)
        (∀ resultBatch ∈ [cpuBatch], converts (fun _ _ => "") resultBatch = true)
        ((PointsStorage.mk (some ⟨fun _ => .ok [], convertToPoints fun _ _ => ""⟩)
          (some (constantHandler [cpuBatch])) true fun _ _ => "").handleBatch
          { handler := (), points := [{ name := "cpu" }] }) :=
  batch_output_well_bracketed (fun _ _ => "") (fun _ => .ok []) (constantHandler [cpuBatch])
    { handler := (), points := [{ name := "cpu" }] } [] [cpuBatch] () (by simp) rfl rfl
    (by simpa using cpu_batch_layout)

example : (blocksOf (fun _ _ => "") [cpuBatch]).map (fun block =>
    (block.beginBatch.size, block.points.map Point.time, block.endBatch.tmax)) =
      [(3, [1, 3, 2], 3)] := by decide

end StreamDataProcessor.Kapacitor
