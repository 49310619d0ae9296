import StreamDataProcessor.Handlers.ColumnTypes
import StreamDataProcessor.Handlers.Derivative

/-!
# Default columns

`default_handler.cpp`. The cases of one type are a map from names to defaults, walked in any
order; the types are walked one after the other, and a column that was added is there for the
next. A name that stands twice in a schema is not found there, and gets a third column.
-/

namespace StreamDataProcessor.Handlers.Default

open Arrow Metadata

set_option autoImplicit false

structure DefaultCase (type : DataType) where
  defaultValue : Value
  ofType : type.admits (some defaultValue) = true
  defaultColumnType : ColumnType := .unknown

structure DefaultHandlerOptions where
  int64DefaultCases : List (String × DefaultCase .int64) := []
  doubleDefaultCases : List (String × DefaultCase .double) := []
  stringDefaultCases : List (String × DefaultCase .utf8) := []
  boolDefaultCases : List (String × DefaultCase .boolean) := []

structure DefaultColumn where
  field : Field
  value : Value
  ofType : field.type.admits (some value) = true

def DefaultColumn.column (default : DefaultColumn) (numRows : Nat) : Column where
  type := default.field.type
  cells := List.replicate numRows (some default.value)
  conforms := by
    intro cell member
    rw [List.eq_of_mem_replicate member]
    exact default.ofType

def addMissing (batch : RecordBatch) (default : DefaultColumn) : Outcome RecordBatch :=
  match batch.schema.fieldByName default.field.name with
  | some _ => .ok batch
  | none => batch.addColumn default.field (default.column batch.numRows)

def defaultColumns {type : DataType} (cases : List (String × DefaultCase type)) :
    List DefaultColumn :=
  cases.map fun entry => {
    field := setFieldColumnType { name := entry.1, type } entry.2.defaultColumnType
    value := entry.2.defaultValue
    ofType := entry.2.ofType }

def addMissingColumn {type : DataType} (cases : List (String × DefaultCase type))
    (batch : RecordBatch) : Outcome RecordBatch :=
  (defaultColumns cases).foldlM addMissing batch

def handle (options : DefaultHandlerOptions) (recordBatch : RecordBatch) :
    Outcome (List RecordBatch) := do
  let copyRecordBatch ← addMissingColumn options.int64DefaultCases recordBatch
  let copyRecordBatch ← addMissingColumn options.doubleDefaultCases copyRecordBatch
  let copyRecordBatch ← addMissingColumn options.stringDefaultCases copyRecordBatch
  let copyRecordBatch ← addMissingColumn options.boolDefaultCases copyRecordBatch
  let described := Derivative.copySchemaMetadata recordBatch copyRecordBatch
  let typed ← copyColumnTypes recordBatch described
  return [typed]

section Missing

def allDefaults (options : DefaultHandlerOptions) : List DefaultColumn :=
  defaultColumns options.int64DefaultCases ++ (defaultColumns options.doubleDefaultCases ++
    (defaultColumns options.stringDefaultCases ++ defaultColumns options.boolDefaultCases))

def missing (names : List String) : List DefaultColumn → List DefaultColumn
  | [] => []
  | default :: rest =>
      if names.count default.field.name = 1 then missing names rest
      else default :: missing (names ++ [default.field.name]) rest

def named (name : String) (defaults : List DefaultColumn) : List DefaultColumn :=
  defaults.filter fun default => default.field.name = name

/-- A batch with columns added at its end, each with one value in all rows. -/
structure Extends (batch : RecordBatch) (added : List DefaultColumn) (result : RecordBatch) :
    Prop where
  fields : result.schema.fields = batch.schema.fields ++ added.map DefaultColumn.field
  metadata : result.schema.metadata = batch.schema.metadata
  rows : result.rows = batch.rows.map (· ++ added.map (some ·.value))

theorem extends_nil (batch : RecordBatch) : Extends batch [] batch where
  fields := (List.append_nil _).symm
  metadata := rfl
  rows := by
    simp only [List.map_nil, List.append_nil, List.map_id']

theorem extends_cons {batch middle result : RecordBatch} {default : DefaultColumn}
    {rest : List DefaultColumn} (first : Extends batch [default] middle)
    (others : Extends middle rest result) : Extends batch (default :: rest) result where
  fields := by
    rw [others.fields, first.fields, List.append_assoc]
    rfl
  metadata := others.metadata.trans first.metadata
  rows := by
    rw [others.rows, first.rows, List.map_map]
    apply List.map_congr_left
    intro row _
    exact List.append_assoc row [some default.value] _

theorem add_column_extends (batch : RecordBatch) (default : DefaultColumn) :
    ∃ result, batch.addColumn default.field (default.column batch.numRows) = .ok result ∧
      Extends batch [default] result := by
  have count : (default.column batch.numRows).cells.length = batch.numRows :=
    List.length_replicate
  obtain ⟨result, added, schema, rows⟩ := @add_column_eq batch default.field _ rfl count
  refine ⟨result, added, ?_, ?_, ?_⟩
  · rw [schema]
    rfl
  · rw [schema]
  · have pads : ∀ (given : List Row) (cell : Scalar),
        List.zipWith (fun row cell => row ++ [cell]) given
          (List.replicate given.length cell) = given.map (· ++ [cell]) := by
      intro given cell
      induction given with
      | nil => rfl
      | cons row rest induction =>
          rw [List.length_cons, List.replicate_succ, List.zipWith_cons_cons, induction]
          rfl
    rw [rows]
    exact pads batch.rows (some default.value)

theorem field_by_name_none_iff (schema : Schema) (name : String) :
    schema.fieldByName name = none ↔ schema.fieldNames.count name ≠ 1 := by
  unfold Schema.fieldByName
  constructor
  · intro absent unique
    have located : schema.fieldIndex name = some (schema.fieldNames.idxOf name) := if_pos unique
    obtain ⟨type, typed⟩ := field_index_bound located
    rw [located, Option.bind_some] at absent
    rw [Schema.types, List.getElem?_map, absent] at typed
    cases typed
  · intro ambiguous
    rw [Schema.fieldIndex, if_neg ambiguous]
    rfl

theorem add_missing_fold (defaults : List DefaultColumn) (batch : RecordBatch) :
    ∃ result, defaults.foldlM addMissing batch = .ok result ∧
      Extends batch (missing batch.schema.fieldNames defaults) result := by
  induction defaults generalizing batch with
  | nil => exact ⟨batch, rfl, extends_nil batch⟩
  | cons default rest induction =>
      rw [List.foldlM_cons, missing, addMissing]
      by_cases unique : batch.schema.fieldNames.count default.field.name = 1
      · rw [if_pos unique]
        cases found : batch.schema.fieldByName default.field.name with
        | some _ => exact induction batch
        | none => exact absurd unique ((field_by_name_none_iff _ _).mp found)
      · rw [if_neg unique, (field_by_name_none_iff _ _).mpr unique]
        obtain ⟨middle, added, first⟩ := add_column_extends batch default
        obtain ⟨result, folded, others⟩ := induction middle
        have names : middle.schema.fieldNames =
            batch.schema.fieldNames ++ [default.field.name] := by
          rw [Schema.fieldNames, first.fields, List.map_append]
          rfl
        rw [names] at others
        refine ⟨result, ?_, extends_cons first others⟩
        show (batch.addColumn _ _ >>= fun next => rest.foldlM addMissing next) = _
        rw [added]
        exact folded

/-- A default is left out where the name stands once. -/
theorem missing_of_present {names : List String} {name : String} (present : names.count name = 1)
    (defaults : List DefaultColumn) : named name (missing names defaults) = [] := by
  induction defaults generalizing names with
  | nil => rfl
  | cons default rest induction =>
      rw [missing]
      split
      · exact induction present
      · next ambiguous =>
        have foreign : default.field.name ≠ name := by
          intro same
          rw [same] at ambiguous
          exact ambiguous present
        rw [named, List.filter_cons_of_neg (by simpa using foreign)]
        apply induction
        rw [List.count_append, present, List.count_singleton, beq_false_of_ne foreign]
        rfl

theorem missing_of_absent {names : List String} {name : String} (absent : names.count name = 0)
    (defaults : List DefaultColumn) :
    named name (missing names defaults) = (named name defaults).take 1 := by
  induction defaults generalizing names with
  | nil => rfl
  | cons default rest induction =>
      rw [missing]
      by_cases own : default.field.name = name
      · subst own
        rw [absent, if_neg Nat.zero_ne_one, named, named, List.filter_cons_of_pos (by simp),
          List.filter_cons_of_pos (by simp), List.take_succ_cons, List.take_zero]
        congr 1
        apply missing_of_present
        rw [List.count_append, absent, List.count_singleton_self]
      · have skipped : named name (default :: rest) = named name rest := by
          rw [named, List.filter_cons_of_neg (by simpa using own)]
          rfl
        rw [skipped]
        split
        · exact induction absent
        · rw [named, List.filter_cons_of_neg (by simpa using own)]
          apply induction
          rw [List.count_append, absent, List.count_singleton, beq_false_of_ne own]
          rfl

theorem missing_of_ambiguous {names : List String} {name : String}
    (ambiguous : 1 < names.count name) (defaults : List DefaultColumn) :
    named name (missing names defaults) = named name defaults := by
  induction defaults generalizing names with
  | nil => rfl
  | cons default rest induction =>
      have more : 1 < (names ++ [default.field.name]).count name := by
        rw [List.count_append]
        omega
      rw [missing]
      split
      · next unique =>
        have foreign : default.field.name ≠ name := by
          rintro rfl
          omega
        rw [named, named, List.filter_cons_of_neg (by simpa using foreign)]
        exact induction ambiguous
      · rw [named, named, List.filter_cons, List.filter_cons]
        have others := induction more
        rw [named, named] at others
        rw [others]

theorem copy_schema_metadata_same {source target : RecordBatch}
    (same : target.schema.metadata = source.schema.metadata) :
    Derivative.copySchemaMetadata source target = target := by
  unfold Derivative.copySchemaMetadata
  split
  · rfl
  · apply RecordBatch.ext_rows
    · rw [← same]
      rfl
    · rfl

theorem handle_eq (options : DefaultHandlerOptions) (batch : RecordBatch) :
    ∃ result, handle options batch = .ok [result] ∧
      Extends batch (missing batch.schema.fieldNames (allDefaults options)) result := by
  obtain ⟨result, folded, added⟩ := add_missing_fold (allDefaults options) batch
  refine ⟨result, ?_, added⟩
  have inOrder : handle options batch = (allDefaults options).foldlM addMissing batch >>=
      fun result => do
        let typed ← copyColumnTypes batch (Derivative.copySchemaMetadata batch result)
        return [typed] := by
    simp only [handle, addMissingColumn, allDefaults, List.foldlM_append, bind_assoc]
  rw [inOrder, folded]
  show (copyColumnTypes batch (Derivative.copySchemaMetadata batch result) >>= _) = _
  rw [copy_schema_metadata_same added.metadata, copy_column_types_eq]
  rfl

theorem extended_count {batch result : RecordBatch} {added : List DefaultColumn}
    (extended : Extends batch added result) (name : String) :
    result.schema.fieldNames.count name =
      batch.schema.fieldNames.count name + (named name added).length := by
  have ofAdded : (added.map fun default => default.field.name).count name =
      (named name added).length := by
    rw [List.count, List.countP_map, named, ← List.countP_eq_length_filter]
    exact List.countP_congr fun default _ => by simp
  rw [Schema.fieldNames, extended.fields, List.map_append, List.count_append, List.map_map,
    ← ofAdded]
  rfl

theorem extended_by_nothing {batch result : RecordBatch} (extended : Extends batch [] result) :
    result = batch := by
  have fields : result.schema.fields = batch.schema.fields :=
    extended.fields.trans (List.append_nil _)
  apply RecordBatch.ext_rows
  · rw [Schema.mk.injEq]
    exact ⟨fields, extended.metadata⟩
  · rw [extended.rows]
    simp only [List.map_nil, List.append_nil, List.map_id']

theorem missing_nil_iff (names : List String) (defaults : List DefaultColumn) :
    missing names defaults = [] ↔ ∀ default ∈ defaults, names.count default.field.name = 1 := by
  induction defaults with
  | nil => simp [missing]
  | cons default rest induction =>
      rw [List.forall_mem_cons, missing]
      split
      · next unique => rw [induction, and_iff_right unique]
      · next ambiguous => simp [ambiguous]

end Missing

/-- The handler returns every batch with the first default of each name that it lacks, and with
all defaults of a name that stands in it more than once. To handle the result again changes
nothing if and only if no default has such a name. -/
theorem default_handler_adds_missing (options : DefaultHandlerOptions) (batch : RecordBatch) :
    ∃ added result, handle options batch = .ok [result] ∧ Extends batch added result ∧
      (∀ name, (batch.schema.fieldNames.count name = 0 →
          named name added = (named name (allDefaults options)).take 1) ∧
        (batch.schema.fieldNames.count name = 1 → named name added = []) ∧
        (1 < batch.schema.fieldNames.count name →
          named name added = named name (allDefaults options))) ∧
      (handle options result = .ok [result] ↔
        ∀ default ∈ allDefaults options, batch.schema.fieldNames.count default.field.name ≤ 1) := by
  obtain ⟨result, handled, extended⟩ := handle_eq options batch
  refine ⟨_, result, handled, extended, ?_, ?_⟩
  · exact fun name => ⟨fun absent => missing_of_absent absent _,
      fun present => missing_of_present present _,
      fun ambiguous => missing_of_ambiguous ambiguous _⟩
  obtain ⟨again, handledAgain, extendedAgain⟩ := handle_eq options result
  have settled : handle options result = .ok [result] ↔
      missing result.schema.fieldNames (allDefaults options) = [] := by
    rw [handledAgain]
    constructor
    · intro same
      rw [Except.ok.injEq, List.singleton_inj] at same
      have fields := extendedAgain.fields
      rw [same, List.self_eq_append_right, List.map_eq_nil_iff] at fields
      exact fields
    · intro nothing
      rw [nothing] at extendedAgain
      rw [extended_by_nothing extendedAgain]
  rw [settled, missing_nil_iff]
  apply forall₂_congr
  intro default member
  have listed : named default.field.name (allDefaults options) ≠ [] :=
    List.ne_nil_of_mem (List.mem_filter.mpr ⟨member, decide_eq_true rfl⟩)
  rw [extended_count extended]
  obtain absent | present | ambiguous :=
    (by omega : batch.schema.fieldNames.count default.field.name = 0 ∨
      batch.schema.fieldNames.count default.field.name = 1 ∨
      1 < batch.schema.fieldNames.count default.field.name)
  · have one : ((named default.field.name (allDefaults options)).take 1).length = 1 := by
      have positive := List.length_pos_iff.mpr listed
      rw [List.length_take]
      omega
    rw [missing_of_absent absent, one]
    omega
  · rw [missing_of_present present, List.length_nil]
    omega
  · omega

end StreamDataProcessor.Handlers.Default
