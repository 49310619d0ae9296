import StreamDataProcessor.Parsers.GraphiteLines

/-!
# The batch of the metrics

What a call of the Graphite parser makes of the metrics that it holds: the types of the fields,
a row for each metric, and whether a conversion on the way is out of range.
-/

namespace StreamDataProcessor.Parsers.Graphite

open Foundation.Numerals Foundation.Effect Arrow Metadata Utils.StringUtils

set_option autoImplicit false

section Types

def isInteger (value : String) : Bool :=
  (strtoll value.toList).value ≠ 0 ∧ (strtoll value.toList).rest = []

/-- The typing of a value makes a conversion that is out of range. -/
def unreadable (value : String) : Bool :=
  value ≠ "0" ∧ ((strtoll value.toList).outOfRange = true ∨
    (isInteger value = false ∧ (strtod value.toList).outOfRange = true))

def isDouble (value : String) : Bool :=
  isZero (strtod value.toList).value = false ∧ (strtod value.toList).rest = []

/-- The type of a value, where `errno` may already have been `ERANGE`. -/
def typeAfter (raised : Bool) (value : String) : FieldType :=
  if value = "0" then .int64
  else if (raised || (strtoll value.toList).outOfRange) = true then .string
  else if isInteger value = true then .int64
  else if (strtod value.toList).outOfRange = false ∧ isDouble value = true then .double
  else .string

theorem determine_field_type_eq (value : String) (state : ParserState) :
    determineFieldType value state =
      .ok (typeAfter state.rangeError value) (state.flagged (unreadable value)) := by
  unfold determineFieldType typeAfter
  by_cases zero : value = "0"
  · have readable : unreadable value = false := by
      rw [unreadable, zero]
      rfl
    rw [if_pos zero, if_pos zero, readable, flagged_false]
    rfl
  · rw [if_neg zero, if_neg zero]
    simp only [bind_of_ok (show convert _ _ = .ok _ _ from rfl), bind_of_ok (get_apply _)]
    cases raised : (state.rangeError || (strtoll value.toList).outOfRange) with
    | true =>
        have held : (state.flagged (strtoll value.toList).outOfRange).rangeError = true := raised
        have same : state.flagged (strtoll value.toList).outOfRange =
            state.flagged (unreadable value) := by
          cases before : state.rangeError with
          | true => rw [flagged_of_raised before, flagged_of_raised before]
          | false =>
              rw [before, Bool.false_or] at raised
              simp [unreadable, zero, raised]
        rw [if_neg (by rw [held]; simp), if_pos rfl,
          bind_of_ok (show convert _ _ = .ok _ _ from rfl), bind_of_ok (get_apply _),
          flagged_of_raised held, if_neg (by rw [held]; simp), same]
        rfl
    | false =>
        have clear : state.rangeError = false := (Bool.or_eq_false_iff.mp raised).1
        have inRange : (strtoll value.toList).outOfRange = false :=
          (Bool.or_eq_false_iff.mp raised).2
        rw [if_neg Bool.false_ne_true, inRange, flagged_false]
        cases integer : isInteger value with
        | true =>
            have readable : unreadable value = false := by simp [unreadable, inRange, integer]
            have both := of_decide_eq_true integer
            rw [if_pos ⟨clear, both⟩, if_pos rfl, readable, flagged_false]
            rfl
        | false =>
            have other := of_decide_eq_false integer
            have flag : unreadable value = (strtod value.toList).outOfRange := by
              simp [unreadable, zero, inRange, integer]
            rw [if_neg (fun both => other both.2), if_neg Bool.false_ne_true, flag,
              bind_of_ok (show convert _ _ = .ok _ _ from rfl), bind_of_ok (get_apply _)]
            have held : (state.flagged (strtod value.toList).outOfRange).rangeError =
                (strtod value.toList).outOfRange := by
              rw [ParserState.flagged, clear, Bool.false_or]
            simp only [held, isDouble, decide_eq_true_eq]
            split <;> rfl

def typeFields : Bool → FieldsTypes → List (String × String) → FieldsTypes
  | _, fieldsTypes, [] => fieldsTypes
  | raised, fieldsTypes, (name, value) :: rest =>
      typeFields (raised || unreadable value)
        (addFieldType fieldsTypes name (typeAfter raised value)) rest

/-- A field is among those typed with a conversion that is out of range. -/
def anyField (fields : List (String × String)) : Bool :=
  fields.any fun field => unreadable field.2

theorem add_types_eq (fields : List (String × String)) (before : FieldsTypes)
    (state : ParserState) :
    (fields.foldlM (fun fieldsTypes field => do
        let type ← determineFieldType field.2
        return addFieldType fieldsTypes field.1 type) before : Parse FieldsTypes) state =
      .ok (typeFields state.rangeError before fields) (state.flagged (anyField fields)) := by
  induction fields generalizing before state with
  | nil =>
      show _ = EStateM.Result.ok before (state.flagged false)
      rw [flagged_false]
      rfl
  | cons field rest induction =>
      have first : (do
          let type ← determineFieldType field.2
          return addFieldType before field.1 type : Parse FieldsTypes) state =
            .ok (addFieldType before field.1 (typeAfter state.rangeError field.2))
              (state.flagged (unreadable field.2)) := by
        rw [bind_of_ok (determine_field_type_eq field.2 state)]
        rfl
      rw [List.foldlM_cons, bind_of_ok first, induction, flagged_flagged]
      rfl

theorem type_fields_append (raised : Bool) (before : FieldsTypes)
    (earlier later : List (String × String)) :
    typeFields raised before (earlier ++ later) =
      typeFields (raised || anyField earlier) (typeFields raised before earlier) later := by
  induction earlier generalizing raised before with
  | nil => rw [List.nil_append, anyField, List.any_nil, Bool.or_false, typeFields]
  | cons field rest induction =>
      rw [List.cons_append, typeFields, induction, typeFields, Bool.or_assoc]
      rfl

def typedFields (visitFields : List (String × String) → List (String × String))
    (metrics : List Metric) : List (String × String) :=
  metrics.flatMap fun metric => visitFields metric.fields

variable {visitFields : List (String × String) → List (String × String)}

theorem determine_fields_types_eq (metrics : List Metric) (state : ParserState) :
    determineFieldsTypes visitFields metrics state =
      .ok (typeFields state.rangeError ∅ (typedFields visitFields metrics))
        (state.flagged (anyField (typedFields visitFields metrics))) := by
  have each : ∀ (metrics : List Metric) (before : FieldsTypes) (state : ParserState),
      metrics.foldlM (addFieldTypes visitFields) before state =
        .ok (typeFields state.rangeError before (typedFields visitFields metrics))
          (state.flagged (anyField (typedFields visitFields metrics))) := by
    intro metrics
    induction metrics with
    | nil => exact add_types_eq []
    | cons metric rest induction =>
        intro before state
        have first : addFieldTypes visitFields before metric state =
            .ok (typeFields state.rangeError before (visitFields metric.fields))
              (state.flagged (anyField (visitFields metric.fields))) :=
          add_types_eq (visitFields metric.fields) before state
        rw [List.foldlM_cons, bind_of_ok first, induction, flagged_flagged]
        have whole : typedFields visitFields (metric :: rest) =
            visitFields metric.fields ++ typedFields visitFields rest := List.flatMap_cons
        have flags : anyField (typedFields visitFields (metric :: rest)) =
            (anyField (visitFields metric.fields) ||
              anyField (typedFields visitFields rest)) := by
          rw [whole]
          exact List.any_append
        rw [flags, whole, type_fields_append]
        rfl
  exact each metrics ∅ state

theorem mem_add_field_type (fieldsTypes : FieldsTypes) (name : String) (type : FieldType)
    (other : String) :
    other ∈ addFieldType fieldsTypes name type ↔ other ∈ fieldsTypes ∨ other = name := by
  have inserted : other ∈ fieldsTypes.insert name type ↔ other ∈ fieldsTypes ∨ other = name := by
    rw [Std.ExtTreeMap.mem_insert, Std.LawfulEqCmp.compare_eq_iff_eq, or_comm, eq_comm (a := name)]
  unfold addFieldType
  split
  · exact inserted
  · next held found =>
    split
    · exact inserted
    · have present : name ∈ fieldsTypes := by
        rw [Std.ExtTreeMap.mem_iff_isSome_getElem?, found, Option.isSome_some]
      constructor
      · exact Or.inl
      · rintro (own | rfl)
        · exact own
        · exact present

theorem mem_type_fields (raised : Bool) (before : FieldsTypes) (fields : List (String × String))
    (name : String) :
    name ∈ typeFields raised before fields ↔ name ∈ before ∨ name ∈ fields.map Prod.fst := by
  induction fields generalizing raised before with
  | nil =>
      rw [typeFields, List.map_nil]
      simp
  | cons field rest induction =>
      rw [typeFields, induction, mem_add_field_type, List.map_cons, List.mem_cons, or_assoc]

theorem mem_typed_fields (visits : ∀ fields, (visitFields fields).Perm fields)
    {metrics : List Metric} {field : String × String} :
    field ∈ typedFields visitFields metrics ↔ ∃ metric ∈ metrics, field ∈ metric.fields := by
  rw [typedFields, List.mem_flatMap]
  simp only [(visits _).mem_iff]

end Types

section Rows

variable {Answer Result Item : Type}

/-- A computation that returns the value and does nothing to the state but flag it, where a
limit is set. -/
def Yields (limit : Bool) (computation : Parse Answer) (value : Answer) : Prop :=
  ∀ state, ∃ flag, computation state = .ok value (state.flagged flag) ∧
    (flag = true → limit = true)

theorem yields_pure (limit : Bool) (value : Answer) : Yields limit (pure value) value := by
  intro state
  refine ⟨false, ?_, Bool.noConfusion⟩
  rw [flagged_false]
  rfl

theorem yields_bind {limit : Bool} {first : Parse Answer} {next : Answer → Parse Result}
    {value : Answer} {result : Result} (earlier : Yields limit first value)
    (later : Yields limit (next value) result) : Yields limit (first >>= next) result := by
  intro state
  obtain ⟨flag, read, within⟩ := earlier state
  obtain ⟨flagNext, readNext, withinNext⟩ := later (state.flagged flag)
  refine ⟨flag || flagNext, ?_, ?_⟩
  · rw [bind_of_ok read, readNext, flagged_flagged]
  · intro flagged
    rcases Bool.or_eq_true_iff.mp flagged with own | next
    · exact within own
    · exact withinNext next

theorem yields_map {limit : Bool} {read : Item → Parse Answer} {value : Item → Answer}
    {items : List Item} (each : ∀ item ∈ items, Yields limit (read item) (value item)) :
    Yields limit (items.mapM read) (items.map value) := by
  induction items with
  | nil => exact yields_pure limit []
  | cons item rest induction =>
      rw [List.forall_mem_cons] at each
      rw [List.mapM_cons]
      apply yields_bind each.1
      apply yields_bind (induction each.2)
      exact yields_pure limit _

theorem zero_in_range : (strtoll "0".toList).outOfRange = false ∧
    (strtod "0".toList).outOfRange = false := by
  decide +kernel

/-- A conversion to the type of a column is out of range only where the typing was. -/
theorem conversion_within (value : String) :
    ((strtoll value.toList).outOfRange = true → unreadable value = true) ∧
      ((strtod value.toList).outOfRange = true → unreadable value = true) := by
  by_cases zero : value = "0"
  · subst zero
    rw [zero_in_range.1, zero_in_range.2]
    exact ⟨Bool.noConfusion, Bool.noConfusion⟩
  · constructor
    · intro outOfRange
      simp [unreadable, zero, outOfRange]
    · intro outOfRange
      by_contra readable
      simp only [unreadable, decide_eq_true_eq, not_and, not_or, zero, ne_eq, not_false_eq_true,
        true_implies, outOfRange, not_true_eq_false, imp_false, Bool.not_eq_true,
        Bool.not_eq_false] at readable
      have integer := of_decide_eq_true readable.2
      rw [strtod_in_range integer.2 integer.1 readable.1] at outOfRange
      cases outOfRange

def cellOf (type : FieldType) (value : String) : Scalar :=
  match type with
  | .int64 => some (.integer (strtoll value.toList).value)
  | .double => some (.double (strtod value.toList).value)
  | .string => some (.string value)

def rowOf (now : Int) (tags : List String) (fieldsTypes : FieldsTypes) (metric : Metric) : Row :=
  some (.integer (if metric.timestamp ≠ -1 then metric.timestamp else now)) ::
    some (.string metric.measurementName) ::
    (tags.map fun name => (metric.tags[name]?).map Value.string) ++
    fieldsTypes.toList.map fun field => (metric.fields.lookup field.1).bind (cellOf field.2)

theorem field_cell_yields (type : FieldType) (value : String) :
    Yields (unreadable value) (fieldCell type value) (cellOf type value) := by
  have within := conversion_within value
  intro state
  cases type with
  | int64 => exact ⟨_, rfl, within.1⟩
  | double => exact ⟨_, rfl, within.2⟩
  | string => exact yields_pure _ _ state

theorem metric_row_yields (now : Int) (tags : List String) (fieldsTypes : FieldsTypes)
    (metric : Metric) :
    Yields (anyField metric.fields) (metricRow now tags fieldsTypes metric)
      (rowOf now tags fieldsTypes metric) := by
  have cells : ∀ field ∈ fieldsTypes.toList,
      Yields (anyField metric.fields) (metricFieldCell metric field)
        ((metric.fields.lookup field.1).bind (cellOf field.2)) := by
    intro field _ state
    unfold metricFieldCell
    cases found : metric.fields.lookup field.1 with
    | none => exact yields_pure _ none state
    | some value =>
        obtain ⟨flag, read, flagged⟩ := field_cell_yields field.2 value state
        refine ⟨flag, read, fun raised => ?_⟩
        obtain ⟨before, after, same, _⟩ := List.lookup_eq_some_iff.mp found
        rw [anyField, List.any_eq_true, same]
        exact ⟨(field.1, value), List.mem_append_right _ List.mem_cons_self, flagged raised⟩
  apply yields_bind (yields_map cells)
  exact yields_pure _ _

end Rows

section Names

theorem mem_tag_names (metrics : List Metric) (name : String) :
    name ∈ tagNames metrics ↔ ∃ metric ∈ metrics, name ∈ metric.tags := by
  have tags : ∀ (entries : List (String × String)) (names : Std.ExtTreeMap String Unit),
      name ∈ entries.foldl (fun names entry => names.insertIfNew entry.1 ()) names ↔
        name ∈ names ∨ name ∈ entries.map Prod.fst := by
    intro entries
    induction entries with
    | nil => simp
    | cons entry rest induction =>
        intro names
        rw [List.foldl_cons, induction, Std.ExtTreeMap.mem_insertIfNew,
          Std.LawfulEqCmp.compare_eq_iff_eq, List.map_cons, List.mem_cons, eq_comm (a := name)]
        tauto
  have all : ∀ (metrics : List Metric) (names : Std.ExtTreeMap String Unit),
      name ∈ metrics.foldl (fun names metric => metric.tags.foldl (fun names name _ =>
        names.insertIfNew name ()) names) names ↔
        name ∈ names ∨ ∃ metric ∈ metrics, name ∈ metric.tags := by
    intro metrics
    induction metrics with
    | nil => simp
    | cons metric rest induction =>
        intro names
        rw [List.foldl_cons, induction, Std.ExtTreeMap.foldl_eq_foldl_toList, tags,
          Std.ExtTreeMap.map_fst_toList_eq_keys, Std.ExtTreeMap.mem_keys, List.exists_mem_cons_iff,
          or_assoc]
  rw [tagNames, Std.ExtTreeMap.mem_keys, all]
  simp

variable {parser : GraphiteParser}

/-- No column has the name of the column of times or of measurements. -/
def NamesApart (parser : GraphiteParser) (isName : String → Prop) : Prop :=
  parser.timeColumnName ≠ parser.measurementColumnName ∧
    ∀ name, isName name → name ≠ parser.timeColumnName ∧ name ≠ parser.measurementColumnName

theorem result_field_names (tags : List String) (fieldsTypes : FieldsTypes) :
    (resultFields parser tags fieldsTypes).map Field.name =
      parser.timeColumnName :: parser.measurementColumnName :: (tags ++ fieldsTypes.keys) := by
  have own : ∀ type columnType, (fun name => (columnField name type columnType).name) = id := by
    intro type columnType
    rfl
  rw [resultFields, List.cons_append, List.cons_append, List.map_cons, List.map_cons,
    List.map_append, List.map_map, List.map_map, ← Std.ExtTreeMap.map_fst_toList_eq_keys]
  congr 3
  exact List.map_id tags

theorem names_count_iff {names : List String} {isName : String → Prop}
    (all : ∀ name, name ∈ names ↔ isName name) :
    NamesApart parser isName ↔
      (parser.timeColumnName :: parser.measurementColumnName :: names).count
          parser.timeColumnName = 1 ∧
        (parser.timeColumnName :: parser.measurementColumnName :: names).count
          parser.measurementColumnName = 1 := by
  rw [List.count_cons_self, List.count_cons, List.count_cons, List.count_cons_self]
  by_cases same : parser.timeColumnName = parser.measurementColumnName
  · simp [NamesApart, same]
  · have other : parser.measurementColumnName ≠ parser.timeColumnName := Ne.symm same
    have counts : ∀ name, names.count name = 0 ↔ ¬isName name := by
      intro name
      rw [List.count_eq_zero, all]
    simp only [beq_iff_eq, if_neg same, if_neg other, Nat.add_eq_right, Nat.add_zero, counts]
    constructor
    · intro apart
      exact ⟨fun isTime => (apart.2 _ isTime).1 rfl, fun isMeasurement =>
        (apart.2 _ isMeasurement).2 rfl⟩
    · rintro ⟨noTime, noMeasurement⟩
      refine ⟨same, fun name own => ⟨?_, ?_⟩⟩
      · rintro rfl
        exact noTime own
      · rintro rfl
        exact noMeasurement own

theorem set_measurement_ok {batch : RecordBatch} {name : String}
    (found : batch.schema.fields[1]? = some (columnField name .utf8 .measurement))
    (located : batch.schema.fieldIndex name = some 1) :
    ∃ named, setMeasurementColumnNameMetadata batch name = .ok named := by
  have typed := @set_column_name_metadata_typed batch 1 (columnField name .utf8 .measurement)
    "measurement_column_name" "STRING" (fun type => type = .utf8) .measurement
    (fun metadata => { metadata with measurementColumnName := some name }) located found rfl rfl
  exact ⟨_, typed⟩

theorem name_columns_ok_iff {tags : List String} {fieldsTypes : FieldsTypes}
    {isName : String → Prop} (all : ∀ name, name ∈ tags ++ fieldsTypes.keys ↔ isName name)
    (rows : List Row) :
    (∃ named, nameColumns parser
        (finishBuilders (resultFields parser tags fieldsTypes) rows) = .ok named) ↔
      NamesApart parser isName := by
  have names : (finishBuilders (resultFields parser tags fieldsTypes) rows).schema.fieldNames =
      parser.timeColumnName :: parser.measurementColumnName :: (tags ++ fieldsTypes.keys) :=
    result_field_names tags fieldsTypes
  rw [names_count_iff all, ← names]
  have fields : (finishBuilders (resultFields parser tags fieldsTypes) rows).schema.fields =
      resultFields parser tags fieldsTypes := rfl
  generalize finishBuilders (resultFields parser tags fieldsTypes) rows = recordBatch at names fields
  have first : recordBatch.schema.fields[0]? =
      some (columnField parser.timeColumnName (.timestamp .second) .time) := by
    rw [fields]
    rfl
  have second : recordBatch.schema.fields[1]? =
      some (columnField parser.measurementColumnName .utf8 .measurement) := by
    rw [fields]
    rfl
  have timed : ∀ unique : recordBatch.schema.fieldNames.count parser.timeColumnName = 1,
      setTimeColumnNameMetadata recordBatch parser.timeColumnName =
        .ok (updateSchemaMetadata recordBatch fun metadata =>
          { metadata with timeColumnName := some parser.timeColumnName }) := by
    intro unique
    apply set_column_name_metadata_typed _ first rfl rfl
    show recordBatch.schema.fieldIndex parser.timeColumnName = some 0
    rw [Schema.fieldIndex, if_pos unique, names, List.idxOf_cons_self]
  constructor
  · rintro ⟨named, returned⟩
    obtain ⟨timedBatch, isTimed, isMeasured⟩ := except_bind_ok_cases returned
    have unique := column_located_of_set isTimed
    rw [timed unique, Except.ok.injEq] at isTimed
    subst isTimed
    have uniqueMeasurement := column_located_of_set isMeasured
    exact ⟨unique, uniqueMeasurement⟩
  · rintro ⟨uniqueTime, uniqueMeasurement⟩
    have apart : parser.timeColumnName ≠ parser.measurementColumnName := by
      intro same
      rw [names, same, List.count_cons_self, List.count_cons_self] at uniqueTime
      omega
    have located : recordBatch.schema.fieldIndex parser.measurementColumnName = some 1 := by
      rw [Schema.fieldIndex, if_pos uniqueMeasurement, names, List.idxOf_cons_ne _ apart,
        List.idxOf_cons_self]
    have measured := @set_measurement_ok (updateSchemaMetadata recordBatch fun metadata =>
      { metadata with timeColumnName := some parser.timeColumnName }) _ second located
    obtain ⟨named, isMeasured⟩ := measured
    refine ⟨named, ?_⟩
    rw [nameColumns, timed uniqueTime]
    exact isMeasured

end Names

section Batch

variable (visitFields : List (String × String) → List (String × String)) (parser : GraphiteParser)

def IsColumn (metrics : List Metric) (name : String) : Prop :=
  ∃ metric ∈ metrics, name ∈ metric.tags ∨ name ∈ metric.fields.map Prod.fst

theorem names_apart_iff (metrics : List Metric) :
    NamesApart parser (IsColumn metrics) ↔
      parser.timeColumnName ≠ parser.measurementColumnName ∧ ∀ metric ∈ metrics,
        ∀ name ∈ metric.tags.keys ++ metric.fields.map Prod.fst,
          name ≠ parser.timeColumnName ∧ name ≠ parser.measurementColumnName := by
  unfold NamesApart IsColumn
  simp only [List.mem_append, Std.ExtTreeMap.mem_keys, forall_exists_index, and_imp]
  apply and_congr_right
  intro _
  exact ⟨fun apart metric listed name own => apart name metric listed own,
    fun apart name metric listed own => apart metric listed name own⟩

instance (metrics : List Metric) : Decidable (NamesApart parser (IsColumn metrics)) :=
  decidable_of_iff _ (names_apart_iff parser metrics).symm

def anyUnreadable (metrics : List Metric) : Bool :=
  metrics.any fun metric => metric.fields.any fun field => unreadable field.2

def fieldsTypesOf (raised : Bool) (metrics : List Metric) : FieldsTypes :=
  typeFields raised ∅ (typedFields visitFields metrics)

/-- The batch of the metrics, before its columns of times and measurements are named. -/
def batchOf (raised : Bool) (now : Int) (metrics : List Metric) : RecordBatch :=
  finishBuilders
    (resultFields parser (tagNames metrics) (fieldsTypesOf visitFields raised metrics))
    (metrics.map (rowOf now (tagNames metrics) (fieldsTypesOf visitFields raised metrics)))

variable {visitFields}

theorem any_typed (visits : ∀ fields, (visitFields fields).Perm fields) (metrics : List Metric) :
    anyField (typedFields visitFields metrics) = anyUnreadable metrics := by
  rw [anyField, typedFields, List.any_flatMap, anyUnreadable]
  congr 1
  funext metric
  exact (visits metric.fields).any_eq

theorem build_record_batches_eq (visits : ∀ fields, (visitFields fields).Perm fields)
    (now : Int) (state : ParserState) :
    buildRecordBatches visitFields parser now state =
      match nameColumns parser (batchOf visitFields parser state.rangeError now
          state.parsedMetrics) with
      | .ok recordBatch => .ok [recordBatch]
          { state.flagged (anyUnreadable state.parsedMetrics) with parsedMetrics := [] }
      | .error fault => .error fault (state.flagged (anyUnreadable state.parsedMetrics)) := by
  have determined : determineFieldsTypes visitFields state.parsedMetrics state =
      .ok (fieldsTypesOf visitFields state.rangeError state.parsedMetrics)
        (state.flagged (anyUnreadable state.parsedMetrics)) := by
    rw [← any_typed visits]
    exact determine_fields_types_eq state.parsedMetrics state
  have rowReads : ∀ metric ∈ state.parsedMetrics,
      Yields (anyUnreadable state.parsedMetrics)
        (metricRow now (tagNames state.parsedMetrics)
          (fieldsTypesOf visitFields state.rangeError state.parsedMetrics) metric)
        (rowOf now (tagNames state.parsedMetrics)
          (fieldsTypesOf visitFields state.rangeError state.parsedMetrics) metric) := by
    intro metric listed own
    obtain ⟨flagRow, read, within⟩ := metric_row_yields now (tagNames state.parsedMetrics)
      (fieldsTypesOf visitFields state.rangeError state.parsedMetrics) metric own
    refine ⟨flagRow, read, fun raised => ?_⟩
    rw [anyUnreadable, List.any_eq_true]
    exact ⟨metric, listed, within raised⟩
  obtain ⟨flagRows, read, within⟩ := yields_map rowReads
    (state.flagged (anyUnreadable state.parsedMetrics))
  have flags : (anyUnreadable state.parsedMetrics || flagRows) =
      anyUnreadable state.parsedMetrics := by
    cases own : anyUnreadable state.parsedMetrics with
    | true => rfl
    | false =>
        rw [Bool.false_or, ← Bool.not_eq_true]
        intro raised
        rw [within raised] at own
        cases own
  rw [flagged_flagged, flags] at read
  unfold buildRecordBatches
  rw [bind_of_ok (get_apply state)]
  dsimp only
  rw [bind_of_ok determined, bind_of_ok read]
  unfold batchOf
  cases nameColumns parser _ with
  | error fault => rfl
  | ok batch => rfl

theorem name_columns_keeps {recordBatch named : RecordBatch}
    (returned : nameColumns parser recordBatch = .ok named) :
    named.rows = recordBatch.rows ∧ named.schema.fieldNames = recordBatch.schema.fieldNames ∧
      named.schema.types = recordBatch.schema.types := by
  obtain ⟨timed, isTimed, isMeasured⟩ := except_bind_ok_cases returned
  have first := set_column_name_keeps isTimed
  have second := set_column_name_keeps isMeasured
  rw [first.1, first.2.1, first.2.2] at second
  exact second

theorem row_of_cells {fields : List Field} {row : Row}
    (conforms : RowConforms (fields.map Field.type) row) :
    fields.zipIdx.map (fun entry => row.getD entry.2 none) = row := by
  have lengths : fields.length = row.length := by
    rw [← List.length_map (f := Field.type)]
    exact conforms.length_eq
  apply List.ext_getElem
  · rw [List.length_map, List.length_zipIdx, lengths]
  · intro index _ bound
    rw [List.getElem_map, List.getElem_zipIdx, Nat.zero_add, List.getD_eq_getElem _ _ bound]

theorem finish_builders_rows {fields : List Field} {rows : List Row}
    (conform : ∀ row ∈ rows, RowConforms (fields.map Field.type) row) :
    (finishBuilders fields rows).rows = rows := by
  have types : Schema.types { fields := fields } =
      (fields.zipIdx.map fun entry =>
        Column.build entry.1.type (rows.map fun row => row.getD entry.2 none)).map Column.type := by
    rw [List.map_map]
    conv_lhs => rw [Schema.types, ← List.zipIdx_map_fst 0 fields, List.map_map]
    rfl
  have cells : ∀ entry ∈ fields.zipIdx,
      (Column.build entry.1.type (rows.map fun row => row.getD entry.2 none)).cells =
        rows.map fun row => row.getD entry.2 none := by
    rintro ⟨field, index⟩ listed
    apply build_cells
    intro cell member
    obtain ⟨row, inRows, rfl⟩ := List.mem_map.mp member
    apply row_conforms_cell (conform row inRows)
    rw [List.getElem?_map, List.mk_mem_zipIdx_iff_getElem?.mp listed, Option.map_some]
  rw [finishBuilders, make_rows rows.length types]
  apply List.ext_getElem
  · rw [List.length_map, List.length_range]
  · intro index _ bound
    rw [List.getElem_map, List.getElem_range, List.map_map]
    conv_rhs => rw [← row_of_cells (conform _ (List.getElem_mem bound))]
    apply List.map_congr_left
    intro entry listed
    rw [Function.comp_apply, cells entry listed, List.getD_eq_getElem _ _ (by simpa using bound),
      List.getElem_map]

theorem mem_fields_types_of (visits : ∀ fields, (visitFields fields).Perm fields) (raised : Bool)
    (metrics : List Metric) (name : String) :
    name ∈ fieldsTypesOf visitFields raised metrics ↔
      ∃ metric ∈ metrics, name ∈ metric.fields.map Prod.fst := by
  rw [fieldsTypesOf, mem_type_fields, List.mem_map]
  simp only [Std.ExtTreeMap.not_mem_empty, false_or, mem_typed_fields visits, List.mem_map]
  constructor
  · rintro ⟨field, ⟨metric, listed, own⟩, same⟩
    exact ⟨metric, listed, field, own, same⟩
  · rintro ⟨metric, listed, field, own, same⟩
    exact ⟨field, ⟨metric, listed, own⟩, same⟩

theorem row_conforms (now : Int) (tags : List String) (fieldsTypes : FieldsTypes)
    (metric : Metric) :
    RowConforms ((resultFields parser tags fieldsTypes).map Field.type)
      (rowOf now tags fieldsTypes metric) := by
  have tagged : List.Forall₂ (fun (type : DataType) (cell : Scalar) => type.admits cell = true)
      (tags.map fun _ => DataType.utf8)
      (tags.map fun name => (metric.tags[name]?).map Value.string) := by
    rw [List.forall₂_map_left_iff, List.forall₂_map_right_iff, List.forall₂_same]
    intro name _
    cases metric.tags[name]? with
    | none => rfl
    | some value => rfl
  have valued : List.Forall₂ (fun (type : DataType) (cell : Scalar) => type.admits cell = true)
      (fieldsTypes.toList.map fun field => field.2.arrowType)
      (fieldsTypes.toList.map fun field =>
        (metric.fields.lookup field.1).bind (cellOf field.2)) := by
    rw [List.forall₂_map_left_iff, List.forall₂_map_right_iff, List.forall₂_same]
    rintro ⟨name, type⟩ _
    cases metric.fields.lookup name with
    | none => cases type with | _ => rfl
    | some value => cases type with | _ => rfl
  have own : (resultFields parser tags fieldsTypes).map Field.type =
      .timestamp .second :: .utf8 :: ((tags.map fun _ => DataType.utf8) ++
        fieldsTypes.toList.map fun field => field.2.arrowType) := by
    simp only [resultFields, List.cons_append, List.map_cons, List.map_append, List.map_map]
    rfl
  rw [own]
  exact .cons rfl (.cons rfl (List.rel_append tagged valued))

theorem batch_rows (raised : Bool) (now : Int) (metrics : List Metric) :
    (batchOf visitFields parser raised now metrics).rows = metrics.map
      (rowOf now (tagNames metrics) (fieldsTypesOf visitFields raised metrics)) := by
  apply finish_builders_rows
  intro row member
  obtain ⟨metric, _, rfl⟩ := List.mem_map.mp member
  exact row_conforms parser now _ _ metric

theorem batch_named_iff (visits : ∀ fields, (visitFields fields).Perm fields) (raised : Bool)
    (now : Int) (metrics : List Metric) :
    (∃ named, nameColumns parser (batchOf visitFields parser raised now metrics) = .ok named) ↔
      NamesApart parser (IsColumn metrics) := by
  apply name_columns_ok_iff
  intro name
  rw [List.mem_append, mem_tag_names, Std.ExtTreeMap.mem_keys, mem_fields_types_of visits]
  simp only [IsColumn, and_or_left, exists_or]

end Batch

end StreamDataProcessor.Parsers.Graphite
