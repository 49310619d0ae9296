import StreamDataProcessor.Handlers.JoinRows

/-!
# What the first loop of a join collects

A builder for each column name, of the type that the column has first, and the rows of every
key string in the order of their times.
-/

namespace StreamDataProcessor.Handlers.Join

open Foundation Foundation.Effect Arrow Metadata Utils

set_option autoImplicit false

section Order

theorem join_value_compare_iff (v1 v2 : JoinValue) : joinValueCompare v1 v2 ↔
    v1.time < v2.time ∨ v1.time = v2.time ∧ (v1.recordBatchIdx < v2.recordBatchIdx ∨
      v1.recordBatchIdx = v2.recordBatchIdx ∧ v1.rowIdx ≤ v2.rowIdx) := by
  unfold joinValueCompare
  split
  · split
    · omega
    · omega
  · omega

instance : Std.Total joinValueCompare where
  total v1 v2 := by
    rw [join_value_compare_iff, join_value_compare_iff]
    omega

instance : IsTrans JoinValue joinValueCompare where
  trans v1 v2 v3 first second := by
    rw [join_value_compare_iff] at *
    omega

instance : Std.Antisymm joinValueCompare where
  antisymm v1 v2 first second := by
    rw [join_value_compare_iff] at first second
    obtain ⟨recordBatchIdx, rowIdx, time⟩ := v1
    obtain ⟨otherIdx, otherRow, otherTime⟩ := v2
    simp only at first second
    rw [JoinValue.mk.injEq]
    omega

end Order

section Builders

structure Created (fields : List Field) (builders : List ColumnBuilder) : Prop where
  distinct : (builders.map ColumnBuilder.name).Nodup
  named : ∀ name, name ∈ builders.map ColumnBuilder.name ↔ name ∈ fields.map Field.name
  first : ∀ builder ∈ builders,
    (fields.find? fun field => field.name = builder.name).map Field.type = some builder.type
  buildable : ∀ builder ∈ builders, buildable builder.type = true
  fresh : ∀ builder ∈ builders, builder.cells = [] ∧ builder.filled = false

theorem created_nil : Created [] [] where
  distinct := List.nodup_nil
  named := fun _ => Iff.rfl
  first := fun _ member => by cases member
  buildable := fun _ member => by cases member
  fresh := fun _ member => by cases member

theorem created_next {fields : List Field} {builders after : List ColumnBuilder} {field : Field}
    (created : Created fields builders) (returned : createBuilder builders field = .ok after) :
    Created (fields ++ [field]) after := by
  have earlier : ∀ builder ∈ builders, ((fields ++ [field]).find? fun field =>
      field.name = builder.name).map Field.type = some builder.type := by
    intro builder member
    obtain ⟨own, found, typed⟩ := Option.map_eq_some_iff.mp (created.first builder member)
    rw [List.find?_append, found, Option.some_or, Option.map_some, typed]
  unfold createBuilder at returned
  split at returned
  · next listed =>
    rw [← Except.ok.inj returned]
    refine ⟨created.distinct, ?_, earlier, created.buildable, created.fresh⟩
    intro name
    rw [created.named, List.map_append, List.mem_append, List.map_singleton, List.mem_singleton]
    constructor
    · exact .inl
    · rintro (member | rfl)
      · exact member
      · exact (created.named _).mp listed
  · next absent =>
    split at returned
    · next able =>
      rw [← Except.ok.inj returned]
      constructor
      · rw [List.map_append, List.map_singleton]
        apply List.nodup_append'.mpr
        exact ⟨created.distinct, List.nodup_singleton _, by simpa using absent⟩
      · intro name
        rw [List.map_append, List.map_append, List.mem_append, List.mem_append, created.named]
        rfl
      · rw [List.forall_mem_append]
        refine ⟨earlier, List.forall_mem_singleton.mpr ?_⟩
        have missing : fields.find? (fun own => own.name = field.name) = none := by
          rw [List.find?_eq_none]
          intro own member same
          apply absent
          rw [created.named]
          exact List.mem_map.mpr ⟨own, member, by simpa using same⟩
        rw [List.find?_append, missing, Option.none_or]
        simp
      · exact List.forall_mem_append.mpr ⟨created.buildable, List.forall_mem_singleton.mpr able⟩
      · exact List.forall_mem_append.mpr
          ⟨created.fresh, List.forall_mem_singleton.mpr ⟨rfl, rfl⟩⟩
    · cases returned

theorem created_of_ok {earlier fields : List Field} {builders after : List ColumnBuilder}
    (created : Created earlier builders) (returned : fields.foldlM createBuilder builders = .ok after) :
    Created (earlier ++ fields) after := by
  induction fields generalizing earlier builders with
  | nil =>
      cases returned
      rwa [List.append_nil]
  | cons field rest induction =>
      rw [List.foldlM_cons] at returned
      obtain ⟨middle, stepped, returned⟩ := except_bind_ok_cases returned
      rw [List.append_cons]
      exact induction (created_next created stepped) returned

theorem builders_of_buildable {fields : List Field} (builders : List ColumnBuilder)
    (able : ∀ field ∈ fields, buildable field.type = true) :
    ∃ after, fields.foldlM createBuilder builders = .ok after := by
  induction fields generalizing builders with
  | nil => exact ⟨builders, rfl⟩
  | cons field rest induction =>
      rw [List.forall_mem_cons] at able
      rw [List.foldlM_cons]
      unfold createBuilder
      split
      · exact induction builders able.2
      · rw [if_pos able.1]
        exact induction _ able.2

end Builders

section Rows

variable (renderScalar : DataType → Value → String) (joinOnColumns : List String)
  (timeColumnName : String)

abbrev IndexedRow := RecordBatch × Nat × Nat

def batchRows (entry : RecordBatch × Nat) : List IndexedRow :=
  (List.range entry.1.numRows).map fun rowIdx => (entry.1, entry.2, rowIdx)

def indexedRows (recordBatches : List RecordBatch) : List IndexedRow :=
  recordBatches.zipIdx.flatMap batchRows

def keyedRow (row : IndexedRow) : Outcome (String × JoinValue) := do
  let joinKey ← getJoinKey renderScalar joinOnColumns row.1 row.2.2 timeColumnName
  return (joinKey.keyString, ⟨row.2.1, row.2.2, joinKey.time⟩)

def keyedRows (recordBatches : List RecordBatch) : Outcome (List (String × JoinValue)) :=
  (indexedRows recordBatches).mapM (keyedRow renderScalar joinOnColumns timeColumnName)

theorem fold_of_map {Item Read State Error : Type} (read : Item → Except Error Read)
    (fold : State → Read → State) (items : List Item) (state : State) :
    items.foldlM (fun state item => do return fold state (← read item)) state = do
      let values ← items.mapM read
      return values.foldl fold state := by
  induction items generalizing state with
  | nil => rfl
  | cons item rest induction =>
      simp only [List.foldlM_cons, List.mapM_cons, bind_assoc, pure_bind, induction,
        List.foldl_cons]

variable {renderScalar joinOnColumns timeColumnName}

theorem collect_batch_eq (collected : Collected) (entry : RecordBatch × Nat) :
    collectBatch renderScalar joinOnColumns timeColumnName collected entry = do
      let columnBuilders ← entry.1.schema.fields.foldlM createBuilder collected.columnBuilders
      let keyed ← (batchRows entry).mapM (keyedRow renderScalar joinOnColumns timeColumnName)
      return ⟨columnBuilders, keyed.foldl (fun index row => insertRow index row.1 row.2)
        collected.keysToRows⟩ := by
  obtain ⟨recordBatch, index⟩ := entry
  have rows := fold_of_map
    (fun rowIdx => keyedRow renderScalar joinOnColumns timeColumnName (recordBatch, index, rowIdx))
    (fun keysToRows row => insertRow keysToRows row.1 row.2) (List.range recordBatch.numRows)
    collected.keysToRows
  simp only [keyedRow, bind_assoc, pure_bind] at rows
  simp only [collectBatch, rows, batchRows, List.mapM_map, bind_assoc]
  rfl

theorem collect_entries_iff {entries : List (RecordBatch × Nat)} {collected final : Collected} :
    entries.foldlM (collectBatch renderScalar joinOnColumns timeColumnName) collected =
      .ok final ↔
    ∃ keyed, (entries.flatMap batchRows).mapM
        (keyedRow renderScalar joinOnColumns timeColumnName) = .ok keyed ∧
      (entries.flatMap fun entry => entry.1.schema.fields).foldlM createBuilder
        collected.columnBuilders = .ok final.columnBuilders ∧
      final.keysToRows = keyed.foldl (fun index row => insertRow index row.1 row.2)
        collected.keysToRows := by
  induction entries generalizing collected with
  | nil =>
      constructor
      · intro returned
        cases returned
        exact ⟨[], rfl, rfl, rfl⟩
      · rintro ⟨keyed, rows, builders, index⟩
        obtain ⟨columnBuilders, keysToRows⟩ := collected
        obtain ⟨finalBuilders, finalRows⟩ := final
        cases rows
        cases builders
        cases index
        rfl
  | cons entry rest induction =>
      rw [List.foldlM_cons, collect_batch_eq, List.flatMap_cons, List.flatMap_cons,
        List.mapM_append, List.foldlM_append]
      constructor
      · intro returned
        obtain ⟨middle, stepped, returned⟩ := except_bind_ok_cases returned
        obtain ⟨columnBuilders, created, stepped⟩ := except_bind_ok_cases stepped
        obtain ⟨keyed, own, stepped⟩ := except_bind_ok_cases stepped
        cases stepped
        obtain ⟨others, rows, builders, index⟩ := induction.mp returned
        refine ⟨keyed ++ others, ?_, ?_, ?_⟩
        · rw [own, rows]
          rfl
        · rw [created]
          exact builders
        · rw [index, List.foldl_append]
      · rintro ⟨keyed, rows, builders, index⟩
        obtain ⟨own, ownRows, rows⟩ := except_bind_ok_cases rows
        obtain ⟨others, otherRows, rows⟩ := except_bind_ok_cases rows
        obtain ⟨columnBuilders, created, builders⟩ := except_bind_ok_cases builders
        cases rows
        rw [List.foldl_append] at index
        rw [created, ownRows]
        exact induction.mpr ⟨others, otherRows, builders, index⟩

structure Collects (renderScalar : DataType → Value → String) (joinOnColumns : List String)
    (timeColumnName : String) (recordBatches : List RecordBatch) (collected : Collected)
    (keyed : List (String × JoinValue)) : Prop where
  rows : keyedRows renderScalar joinOnColumns timeColumnName recordBatches = .ok keyed
  created : Created (recordBatches.flatMap fun recordBatch => recordBatch.schema.fields)
    collected.columnBuilders
  index : SortedIndex.Holds joinValueCompare keyed collected.keysToRows

theorem entries_fields (recordBatches : List RecordBatch) :
    (recordBatches.zipIdx.flatMap fun entry => entry.1.schema.fields) =
      recordBatches.flatMap fun recordBatch => recordBatch.schema.fields := by
  conv_rhs => rw [← List.zipIdx_map_fst 0 recordBatches, List.flatMap_map]

theorem collects_of_ok {recordBatches : List RecordBatch} {collected : Collected}
    (returned : collect renderScalar joinOnColumns timeColumnName recordBatches =
      .ok collected) :
    ∃ keyed, Collects renderScalar joinOnColumns timeColumnName recordBatches collected keyed := by
  obtain ⟨keyed, rows, builders, index⟩ := collect_entries_iff.mp returned
  rw [entries_fields] at builders
  refine ⟨keyed, rows, created_of_ok created_nil builders, ?_⟩
  rw [index]
  exact SortedIndex.holds_build keyed

theorem collect_returns {recordBatches : List RecordBatch} {keyed : List (String × JoinValue)}
    (rows : keyedRows renderScalar joinOnColumns timeColumnName recordBatches = .ok keyed)
    (able : ∀ recordBatch ∈ recordBatches, ∀ field ∈ recordBatch.schema.fields,
      buildable field.type = true) :
    ∃ collected, collect renderScalar joinOnColumns timeColumnName recordBatches =
        .ok collected ∧
      Collects renderScalar joinOnColumns timeColumnName recordBatches collected keyed := by
  have ableAll : ∀ field ∈ recordBatches.flatMap fun recordBatch => recordBatch.schema.fields,
      buildable field.type = true := by
    intro field member
    obtain ⟨recordBatch, listed, own⟩ := List.mem_flatMap.mp member
    exact able recordBatch listed field own
  obtain ⟨columnBuilders, created⟩ := builders_of_buildable [] ableAll
  refine ⟨⟨columnBuilders, SortedIndex.build joinValueCompare keyed⟩, ?_, rows,
    created_of_ok created_nil created, SortedIndex.holds_build keyed⟩
  apply collect_entries_iff.mpr
  rw [entries_fields]
  exact ⟨keyed, rows, created, rfl⟩

end Rows

end StreamDataProcessor.Handlers.Join
