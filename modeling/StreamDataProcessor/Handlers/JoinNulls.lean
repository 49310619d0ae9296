import StreamDataProcessor.Handlers.ToleranceJoin

/-!
# Nulls in a join

A null goes through an append as a value does: it is read as the default of its type, or as
the text of a missing buffer, and the column is filled for the rest of the cluster.
-/

namespace StreamDataProcessor.Handlers.Join

open Foundation Foundation.Effect Arrow Metadata Utils

set_option autoImplicit false

section Kept

variable (recordBatches : List RecordBatch)

def Holds (name : String) (cluster : List JoinValue) (own : Value) : Prop :=
  ∃ value ∈ cluster, ∃ rowType,
    sourceCell recordBatches name value = some (rowType, some own)

/-- A cell of a result is null or a value of its cluster, and is not null if there is one. -/
structure KeepsNulls (name : String) (cluster : List JoinValue) (cell : Scalar) : Prop where
  sound : ∀ own, cell = some own → Holds recordBatches name cluster own
  complete : ∀ own, Holds recordBatches name cluster own → cell ≠ none

/-- A call returns, and every cell of its result keeps the nulls. -/
def NullsKept (renderScalar : DataType → Value → String) (joinOnColumns : List String)
    (timeColumnName : String) (tolerance : Int) (returned : Outcome (List RecordBatch)) : Prop :=
  ∃ keyed result rows,
    keyedRows renderScalar joinOnColumns timeColumnName recordBatches = .ok keyed ∧
    returned = .ok [result] ∧
    Joins recordBatches timeColumnName (joinClusters tolerance keyed) result rows ∧
    List.Forall₂ (fun cluster row => List.Forall₂ (fun column cell =>
      KeepsNulls recordBatches column.1 cluster cell) (columnsOf result.schema) row)
      (joinClusters tolerance keyed) rows

/-- No null does harm to a cell of a cluster: the first row that has the column has no null in
it, or what the null is read as is a value of the column in the cluster as well. -/
def HarmlessAt (name : String) (cluster : List JoinValue) : Prop :=
  ∀ rowType, clusterSource recordBatches name cluster = some (rowType, none) →
    ∃ own, nullValue rowType = some own ∧ Holds recordBatches name cluster own

def NullsHarmless (renderScalar : DataType → Value → String) (joinOnColumns : List String)
    (timeColumnName : String) (tolerance : Int) : Prop :=
  ∀ keyed, keyedRows renderScalar joinOnColumns timeColumnName recordBatches = .ok keyed →
    ∀ cluster ∈ joinClusters tolerance keyed, ∀ name, HarmlessAt recordBatches name cluster

end Kept

theorem keeps_value {recordBatches : List RecordBatch} {name : String} {cluster : List JoinValue} {own : Value}
    (held : Holds recordBatches name cluster own) :
    KeepsNulls recordBatches name cluster (some own) where
  sound := by
    intro same isSame
    cases isSame
    exact held
  complete := fun _ _ => Option.some_ne_none own

section Joinable

variable {renderScalar : DataType → Value → String} {joinOnColumns : List String}
  {timeColumnName : String} {unit : Arrow.TimeUnit} {columnType : String → DataType}
  {recordBatches : List RecordBatch}
  (joinable : Joinable joinOnColumns timeColumnName unit columnType recordBatches)

include joinable

theorem cell_of_value {name : String} {cluster : List JoinValue} {rowType : DataType}
    {own : Value} (source : clusterSource recordBatches name cluster = some (rowType, some own)) :
    clusterCell recordBatches name (columnType name) cluster = .ok (some own) ∧
      Holds recordBatches name cluster own := by
  obtain ⟨value, member, found⟩ := List.exists_of_findSome?_eq_some source
  obtain ⟨typed, able⟩ := source_type joinable found
  subst typed
  rw [cluster_cell_of_source source, append_value able (.inl rfl) (source_admits found)]
  exact ⟨rfl, value, member, _, found⟩

theorem cell_of_null {name : String} {cluster : List JoinValue} {rowType : DataType}
    (source : clusterSource recordBatches name cluster = some (rowType, none)) :
    clusterCell recordBatches name (columnType name) cluster = appendedNull rowType := by
  obtain ⟨value, _, found⟩ := List.exists_of_findSome?_eq_some source
  obtain ⟨typed, able⟩ := source_type joinable found
  subst typed
  rw [cluster_cell_of_source source, append_null able (.inl rfl)]

/-- A cell that no null does harm to is there, and keeps the nulls. -/
theorem cell_of_harmless {name : String} {cluster : List JoinValue}
    (harmless : HarmlessAt recordBatches name cluster) :
    ∃ cell, clusterCell recordBatches name (columnType name) cluster = .ok cell ∧
      KeepsNulls recordBatches name cluster cell := by
  cases source : clusterSource recordBatches name cluster with
  | none =>
      refine ⟨none, by rw [clusterCell, source], ?_, ?_⟩
      · intro own null
        cases null
      · rintro own ⟨value, member, rowType, found⟩
        rw [List.findSome?_eq_none_iff.mp source value member] at found
        cases found
  | some first =>
      obtain ⟨rowType, scalar⟩ := first
      cases scalar with
      | some own =>
          obtain ⟨appended, held⟩ := cell_of_value joinable source
          exact ⟨some own, appended, keeps_value held⟩
      | none =>
          obtain ⟨own, read, held⟩ := harmless rowType source
          refine ⟨some own, ?_, keeps_value held⟩
          rw [cell_of_null joinable source, appendedNull, read]

/-- A cell that keeps the nulls was not read of a null, or of one that does no harm. -/
theorem harmless_of_keeps_nulls {name : String} {cluster : List JoinValue} {cell : Scalar}
    (appended : clusterCell recordBatches name (columnType name) cluster = .ok cell)
    (keeps : KeepsNulls recordBatches name cluster cell) :
    HarmlessAt recordBatches name cluster := by
  intro rowType source
  rw [cell_of_null joinable source, appendedNull] at appended
  cases read : nullValue rowType with
  | none =>
      rw [read] at appended
      cases appended
  | some own =>
      rw [read] at appended
      exact ⟨own, rfl, keeps.sound own (Except.ok.inj appended).symm⟩

theorem harmless_of_kept {tolerance : Int} {returned : Outcome (List RecordBatch)}
    (kept : NullsKept recordBatches renderScalar joinOnColumns timeColumnName tolerance
      returned) :
    NullsHarmless recordBatches renderScalar joinOnColumns timeColumnName tolerance := by
  obtain ⟨own, result, rows, isKeyed, _, joins, keeps⟩ := kept
  intro keyed rowsKeyed cluster listed name rowType source
  rw [rowsKeyed, Except.ok.injEq] at isKeyed
  subst isKeyed
  have both := List.Forall₂.mp (fun _ _ cells keeps => And.intro cells keeps) joins.cells keeps
  obtain ⟨row, _, cells, keepsRow⟩ := exists_of_forall₂ both listed
  have bothCells := List.Forall₂.mp (fun _ _ cell keeps => And.intro cell keeps) cells keepsRow
  obtain ⟨value, _, found⟩ := List.exists_of_findSome?_eq_some source
  obtain ⟨type, column⟩ := column_of_source joins found
  obtain rfl : type = columnType name := column_type_of_joins joinable joins _ column
  obtain ⟨cell, _, appended, keepsCell⟩ := exists_of_forall₂ bothCells column
  exact harmless_of_keeps_nulls joinable appended keepsCell rowType source

variable {visitKeys : KeysToRows → KeysToRows}
  {visitColumns : List ColumnBuilder → List ColumnBuilder} {tolerance : Int}

/-- A join keeps nulls just when none of them does harm. -/
theorem nulls_kept_iff (visits : ∀ keysToRows, (visitKeys keysToRows).Perm keysToRows)
    (arranges : ∀ builders, (visitColumns builders).Perm builders) :
    NullsKept recordBatches renderScalar joinOnColumns timeColumnName tolerance
        (handle renderScalar visitKeys visitColumns joinOnColumns tolerance recordBatches) ↔
      NullsHarmless recordBatches renderScalar joinOnColumns timeColumnName tolerance := by
  constructor
  · exact harmless_of_kept joinable
  · intro harmless
    obtain ⟨keyed, isKeyed, _⟩ := @keyed_rows_ok renderScalar _ _ _ _ _ joinable
    have cells := fun cluster listed name =>
      cell_of_harmless joinable (harmless keyed isKeyed cluster listed name)
    obtain ⟨result, rows, returned, joins⟩ := joinable_returns joinable visits arranges isKeyed
      fun cluster listed name => (cells cluster listed name).imp fun _ both => both.1
    refine ⟨keyed, result, rows, isKeyed, returned, joins, ?_⟩
    have listed := (List.forall₂_and_left _ _).mpr ⟨fun _ listed => listed, joins.cells⟩
    refine listed.imp fun cluster row own => ?_
    have typed := (List.forall₂_and_left _ _).mpr ⟨column_type_of_joins joinable joins, own.2⟩
    refine typed.imp fun column cell both => ?_
    obtain ⟨kept, appended, keeps⟩ := cells cluster own.1 column.1
    rw [both.1, appended, Except.ok.injEq] at both
    rw [← both.2]
    exact keeps

end Joinable

theorem usage_nulls_iff :
    NullsKept [cpuBatch, memoryBatch] (fun _ _ => "") ["host"] "time" 5
        (handle (fun _ _ => "") id id ["host"] 5 [cpuBatch, memoryBatch]) ↔
      NullsHarmless [cpuBatch, memoryBatch] (fun _ _ => "") ["host"] "time" 5 :=
  nulls_kept_iff usage_joinable (fun _ => .refl _) (fun _ => .refl _)

def idleBatch : RecordBatch where
  schema := cpuBatch.schema
  rows := [[some (.integer 1), some (.string "a"), none]]
  conforms := by
    rw [List.forall_mem_singleton]
    exact .cons rfl (.cons rfl (.cons rfl .nil))

theorem idle_joinable : Joinable ["host"] "time" .second usageType [idleBatch] where
  nonempty := List.cons_ne_nil _ _
  named := by
    intro front first
    cases first
    rfl
  timed := by decide
  stamped := rfl
  joined := by decide
  distinct := by decide
  typed := by decide
  supported := by decide

/-- The missing value is returned as zero. -/
theorem null_joined_as_zero :
    (match handle (fun _ _ => "") id id ["host"] 5 [idleBatch] with
      | .ok results => some (results.map RecordBatch.rows)
      | .error _ => none) =
      some [[[some (.integer 1), some (.string "a"), some (.integer 0)]]] ∧
    ¬NullsKept [idleBatch] (fun _ _ => "") ["host"] "time" 5
      (handle (fun _ _ => "") id id ["host"] 5 [idleBatch]) := by
  constructor
  · decide +kernel
  · intro kept
    have harmless := harmless_of_kept idle_joinable kept [("host=a,", ⟨0, 0, 1⟩)]
      (by decide +kernel) [⟨0, 0, 1⟩] (by decide +kernel) "cpu"
    obtain ⟨own, _, value, member, rowType, found⟩ := harmless .int64 (by decide +kernel)
    rw [List.mem_singleton.mp member] at found
    cases found

end StreamDataProcessor.Handlers.Join
