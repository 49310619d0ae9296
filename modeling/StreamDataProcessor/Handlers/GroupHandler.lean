import StreamDataProcessor.Handlers.SortHandler
import StreamDataProcessor.Handlers.AggregateHandler

/-!
# The group handler

`GroupHandler` of `group_handler.cpp`: the groups of a batch, each with the texts of its first
row in the grouping columns as its group metadata. Columns of a group that the batch already
has stay in it, with the text that the first row has there.
-/

namespace StreamDataProcessor.Handlers.Group

open Foundation Foundation.Grouping Arrow Metadata Utils Handlers.Derivative Aggregate

set_option autoImplicit false

def describeGroup (renderScalar : DataType → Value → String) (groupingColumns : List String)
    (recordBatch group : RecordBatch) : Outcome RecordBatch := do
  let described := copySchemaMetadata recordBatch group
  let named ← fillGroupMetadata renderScalar described groupingColumns
  copyColumnTypes recordBatch named

def handle (renderScalar : DataType → Value → String) (groupingColumns : List String)
    (recordBatch : RecordBatch) : Outcome (List RecordBatch) := do
  let groupedRecordBatches ← groupSortingByColumns groupingColumns recordBatch
  groupedRecordBatches.mapM (describeGroup renderScalar groupingColumns recordBatch)

def columnText (renderScalar : DataType → Value → String) (schema : Schema) (row : Row)
    (columnName : String) : Option String :=
  (keyType schema columnName).map fun type =>
    scalarToString renderScalar type (schema.cell columnName row)

def rowTexts (renderScalar : DataType → Value → String) (schema : Schema) (row : Row) :
    List String → Std.ExtTreeMap String String
  | [] => ∅
  | columnName :: rest =>
      match columnText renderScalar schema row columnName with
      | none => rowTexts renderScalar schema row rest
      | some text => (rowTexts renderScalar schema row rest).insert columnName text

def rowGroup (renderScalar : DataType → Value → String) (schema : Schema)
    (columnNames : List String) (row : Row) : RecordBatchGroup :=
  constructGroupFromOrderedMap (rowTexts renderScalar schema row columnNames)

/-- The columns by which a batch is grouped, with those by which it was grouped before. -/
def namesOf (groupingColumns : List String) (recordBatch : RecordBatch) : List String :=
  (extractGroup recordBatch).groupColumnsNames ++ groupingColumns

section Texts

variable {renderScalar : DataType → Value → String} {schema : Schema}

/-- The text of a row in a column that is one of those with the names. -/
def listedText (renderScalar : DataType → Value → String) (schema : Schema) (row : Row)
    (columnNames : List String) (columnName : String) : Option String :=
  if columnName ∈ columnNames then columnText renderScalar schema row columnName else none

theorem listed_text_own (row : Row) (columnName : String) (rest : List String) :
    listedText renderScalar schema row (columnName :: rest) columnName =
      columnText renderScalar schema row columnName :=
  if_pos List.mem_cons_self

theorem listed_text_other {row : Row} {columnName other : String} {rest : List String}
    (differ : columnName ≠ other) :
    listedText renderScalar schema row (other :: rest) columnName =
      listedText renderScalar schema row rest columnName := by
  unfold listedText
  simp only [List.mem_cons, differ, false_or]

theorem listed_text_append (row : Row) (earlier later : List String) (columnName : String) :
    listedText renderScalar schema row (earlier ++ later) columnName =
      (listedText renderScalar schema row earlier columnName).or
        (listedText renderScalar schema row later columnName) := by
  unfold listedText
  by_cases inEarlier : columnName ∈ earlier <;> by_cases inLater : columnName ∈ later <;>
    simp [inEarlier, inLater]

theorem listed_text_missing {row : Row} {columnNames : List String} {columnName : String}
    (missing : columnText renderScalar schema row columnName = none) :
    listedText renderScalar schema row columnNames columnName = none := by
  rw [listedText, missing, ite_self]

theorem row_texts_get (row : Row) (columnNames : List String) (columnName : String) :
    (rowTexts renderScalar schema row columnNames)[columnName]? =
      listedText renderScalar schema row columnNames columnName := by
  induction columnNames with
  | nil => rfl
  | cons name rest induction =>
      rw [rowTexts]
      by_cases same : columnName = name
      · subst same
        rw [listed_text_own]
        cases text : columnText renderScalar schema row columnName with
        | none => exact induction.trans (listed_text_missing text)
        | some own => exact Std.ExtTreeMap.getElem?_insert_self
      · rw [listed_text_other same, ← induction]
        cases columnText renderScalar schema row name with
        | none => rfl
        | some own =>
            dsimp only
            rw [Std.ExtTreeMap.getElem?_insert, if_neg (by simpa using Ne.symm same)]

theorem fill_group_map_texts {batch : RecordBatch} {first : Row} {others : List Row}
    (rows : batch.rows = first :: others) (columnNames : List String)
    (groupMap : Std.ExtTreeMap String String) :
    ∃ after, fillGroupMap renderScalar batch groupMap columnNames = .ok after ∧
      ∀ columnName, after[columnName]? = (groupMap[columnName]?).or
        (listedText renderScalar batch.schema first columnNames columnName) := by
  induction columnNames generalizing groupMap with
  | nil => exact ⟨groupMap, rfl, fun columnName => (Option.or_none).symm⟩
  | cons name rest induction =>
      rw [fillGroupMap]
      by_cases known : name ∈ groupMap
      · rw [if_pos known]
        obtain ⟨after, filled, texts⟩ := induction groupMap
        refine ⟨after, filled, fun columnName => ?_⟩
        rw [texts]
        by_cases same : columnName = name
        · subst same
          obtain ⟨text, found⟩ := Option.isSome_iff_exists.mp
            (Std.ExtTreeMap.mem_iff_isSome_getElem?.mp known)
          rw [found, Option.some_or, Option.some_or]
        · rw [listed_text_other same]
      · rw [if_neg known]
        have unknown : groupMap[name]? = none := by
          rw [← Option.not_isSome_iff_eq_none, ← Std.ExtTreeMap.mem_iff_isSome_getElem?]
          exact known
        cases typed : keyType batch.schema name with
        | none =>
            rw [(no_column typed).2]
            obtain ⟨after, filled, texts⟩ := induction groupMap
            refine ⟨after, filled, fun columnName => ?_⟩
            rw [texts]
            by_cases same : columnName = name
            · subst same
              have missing : columnText renderScalar batch.schema first columnName = none := by
                rw [columnText, typed, Option.map_none]
              rw [listed_text_missing missing, listed_text_missing missing]
            · rw [listed_text_other same]
        | some type =>
            obtain ⟨column, found, isType, cells⟩ := column_of_type typed
            have read : column.getScalar 0 = .ok (batch.schema.cell name first) := by
              rw [Column.getScalar, cells, rows]
              rfl
            rw [found]
            dsimp only
            rw [read]
            obtain ⟨after, filled, texts⟩ := induction (groupMap.insert name
              (scalarToString renderScalar column.type (batch.schema.cell name first)))
            refine ⟨after, filled, fun columnName => ?_⟩
            rw [texts, Std.ExtTreeMap.getElem?_insert]
            by_cases same : columnName = name
            · subst same
              rw [if_pos (by simp), listed_text_own, unknown, Option.none_or, columnText, typed,
                isType]
              rfl
            · rw [if_neg (by simpa using Ne.symm same), listed_text_other same]

theorem fill_group_metadata_texts {batch : RecordBatch} {first : Row} {others : List Row}
    (rows : batch.rows = first :: others) (groupingColumns : List String) :
    fillGroupMetadata renderScalar batch groupingColumns = .ok (setGroupMetadata batch
      (rowGroup renderScalar batch.schema (namesOf groupingColumns batch) first)) := by
  obtain ⟨own, ownFilled, ownTexts⟩ := @fill_group_map_texts renderScalar batch first others rows
    (extractGroup batch).groupColumnsNames ∅
  obtain ⟨after, filled, texts⟩ := @fill_group_map_texts renderScalar batch first others rows
    groupingColumns own
  have same : after = rowTexts renderScalar batch.schema first (namesOf groupingColumns batch) := by
    apply Std.ExtTreeMap.ext_getElem?
    intro columnName
    rw [texts, ownTexts, row_texts_get, namesOf, Std.ExtTreeMap.getElem?_empty, Option.none_or,
      listed_text_append]
  rw [fillGroupMetadata, ownFilled]
  change (fillGroupMap renderScalar batch own groupingColumns >>= _) = _
  rw [filled, same]
  rfl

end Texts

/-- The schema of a batch, with the group of a row. -/
def groupSchema (renderScalar : DataType → Value → String) (groupingColumns : List String)
    (source : RecordBatch) (row : Row) : Schema :=
  { source.schema with metadata := { source.schema.metadata with
      group := some (rowGroup renderScalar source.schema (namesOf groupingColumns source) row) } }

structure Described (renderScalar : DataType → Value → String) (groupingColumns : List String)
    (source : RecordBatch) (group : List Row) (part : RecordBatch) : Prop where
  rows : part.rows = group
  schema : ∀ first ∈ group.head?,
    part.schema = groupSchema renderScalar groupingColumns source first

section Handler

variable {renderScalar : DataType → Value → String} {groupingColumns : List String}
  {source : RecordBatch}

theorem describe_group {target : RecordBatch} (same : target.schema = source.schema)
    (some : target.rows ≠ []) :
    ∃ part, describeGroup renderScalar groupingColumns source target = .ok part ∧
      Described renderScalar groupingColumns source target.rows part := by
  obtain ⟨first, others, rows⟩ := List.exists_cons_of_ne_nil some
  have names : namesOf groupingColumns target = namesOf groupingColumns source := by
    rw [namesOf, namesOf, extractGroup, extractGroup, same]
  refine ⟨setGroupMetadata target (rowGroup renderScalar target.schema
    (namesOf groupingColumns target) first), ?_, rfl, ?_⟩
  · rw [describeGroup, Sort.copy_own_metadata same, fill_group_metadata_texts rows]
    exact copy_column_types_eq _ _
  · rw [rows, names, List.head?_cons]
    intro own isFirst
    rw [Option.mem_some_iff] at isFirst
    subst isFirst
    rw [groupSchema, ← same]
    rfl

theorem describe_group_rows {target part : RecordBatch}
    (returned : describeGroup renderScalar groupingColumns source target = .ok part) :
    part.rows = target.rows := by
  obtain ⟨named, fills, copies⟩ := Effect.except_bind_ok_cases returned
  rw [copy_column_types_eq, Except.ok.injEq] at copies
  obtain ⟨own, _, fills⟩ := Effect.except_bind_ok_cases fills
  obtain ⟨groupMap, _, fills⟩ := Effect.except_bind_ok_cases fills
  cases fills
  rw [← copies]
  show (copySchemaMetadata source target).rows = _
  unfold copySchemaMetadata
  split <;> rfl

/-- The parts that a batch with groups is cut up into. -/
theorem handle_groups {targets : List RecordBatch}
    (splits : groupSortingByColumns groupingColumns source = .ok targets)
    (some : ∀ target ∈ targets, target.rows ≠ []) :
    ∃ parts, handle renderScalar groupingColumns source = .ok parts ∧
      List.Forall₂ (Described renderScalar groupingColumns source)
        (targets.map RecordBatch.rows) parts := by
  obtain ⟨parts, described, each⟩ := Effect.map_m_related_iff.mpr fun target listed =>
    @describe_group renderScalar groupingColumns source target
      ((sort_targets splits).2 target listed).1 (some target listed)
  refine ⟨parts, ?_, List.forall₂_map_left_iff.mpr each⟩
  rw [handle, splits]
  exact described

theorem described_rows {groups : List (List Row)} {parts : List RecordBatch}
    (each : List.Forall₂ (Described renderScalar groupingColumns source) groups parts) :
    parts.map RecordBatch.rows = groups := by
  induction each with
  | nil => rfl
  | cons head _ induction => rw [List.map_cons, head.rows, induction]

/-- Where the keys can be compared a batch is cut up into its groups, with their metadata. -/
theorem comparable_cut_up (nonempty : source.rows ≠ [])
    (comparable : KeysComparable source.schema groupingColumns source.rows) :
    ∃ parts, handle renderScalar groupingColumns source = .ok parts ∧
      Groups (RowsAgree source.schema groupingColumns) source.rows (parts.map RecordBatch.rows) ∧
      ∀ part ∈ parts, Described renderScalar groupingColumns source part.rows part := by
  obtain ⟨targets, splits, groups⟩ := sort_groups nonempty comparable
  obtain ⟨parts, handled, each⟩ := @handle_groups renderScalar groupingColumns source targets splits
    fun target listed => groups.groups.nonempty _ (List.mem_map_of_mem listed)
  refine ⟨parts, handled, ?_, ?_⟩
  · rw [described_rows each]
    exact groups.groups
  · intro part listed
    obtain ⟨group, _, described⟩ := Effect.exists_of_forall₂ each.flip listed
    have own : Described renderScalar groupingColumns source group part := described
    rw [own.rows]
    exact own

end Handler

/-- A batch is cut up into parts of rows with equal keys, each with the texts of its first row
as its group, just when the columns can be sorted, and no cell of them is null or NaN. -/
theorem group_handler_partitions_iff (renderScalar : DataType → Value → String)
    (groupingColumns : List String) (recordBatch : RecordBatch)
    (nonempty : recordBatch.rows ≠ []) :
    (∃ parts, handle renderScalar groupingColumns recordBatch = .ok parts ∧
        Groups (RowsAgree recordBatch.schema groupingColumns) recordBatch.rows
          (parts.map RecordBatch.rows) ∧
        ∀ part ∈ parts, Described renderScalar groupingColumns recordBatch part.rows part) ↔
      KeysComparable recordBatch.schema groupingColumns recordBatch.rows := by
  constructor
  · rintro ⟨parts, returned, groups, _⟩
    obtain ⟨targets, splits, described⟩ := Effect.except_bind_ok_cases returned
    obtain ⟨kernels, each⟩ := sort_targets splits
    intro columnName listed type typed
    refine ⟨kernels columnName listed type typed, ?_⟩
    intro row member
    obtain ⟨rows, inParts, inRows⟩ := List.mem_flatten.mp (groups.whole.symm.subset member)
    obtain ⟨part, inPart, rfl⟩ := List.mem_map.mp inParts
    obtain ⟨target, isTarget, describes⟩ := Effect.mem_of_map_m described inPart
    rw [describe_group_rows describes] at inRows
    exact ((each target isTarget).2.2 columnName listed type typed).2 row inRows
  · exact comparable_cut_up nonempty

def hostBatch (hosts : List String) : RecordBatch where
  schema := { fields := [{ name := "host", type := .utf8 }] }
  rows := hosts.map fun host => [some (.string host)]
  conforms := by
    intro row listed
    obtain ⟨host, _, rfl⟩ := List.mem_map.mp listed
    exact .cons rfl .nil

theorem three_hosts_grouped :
    ∃ parts, handle (fun _ _ => "") ["host"] (hostBatch ["b", "a", "b"]) = .ok parts ∧
      Groups (RowsAgree (hostBatch ["b", "a", "b"]).schema ["host"])
        (hostBatch ["b", "a", "b"]).rows (parts.map RecordBatch.rows) ∧
      ∀ part ∈ parts, Described (fun _ _ => "") ["host"] (hostBatch ["b", "a", "b"]) part.rows part :=
  (group_handler_partitions_iff _ ["host"] (hostBatch ["b", "a", "b"])
    (List.cons_ne_nil _ _)).mpr (by decide +kernel)

end StreamDataProcessor.Handlers.Group
