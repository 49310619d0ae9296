import StreamDataProcessor.Foundation.Clusters
import StreamDataProcessor.Foundation.Partwise
import StreamDataProcessor.Handlers.JoinHandler

/-!
# The rows of a join

The loops over the values of a key act on every column builder by itself: each cluster of the
values adds to it the cell of the first row that has the column, or a null.
-/

namespace StreamDataProcessor.Handlers.Join

open Foundation Foundation.Effect Foundation.Clusters Foundation.TwosComplement Arrow Metadata Utils

set_option autoImplicit false

def sourceCell (recordBatches : List RecordBatch) (name : String) (value : JoinValue) :
    Option (DataType × Scalar) :=
  (recordBatches[value.recordBatchIdx]?).bind fun recordBatch =>
    (recordBatch.schema.fields.zipIdx.find? fun field => field.1.name = name).map fun field =>
      (field.1.type, (recordBatch.rows.getD value.rowIdx []).getD field.2 none)

/-- What the first row of a cluster that has a column has for it. -/
def clusterSource (recordBatches : List RecordBatch) (name : String) (cluster : List JoinValue) :
    Option (DataType × Scalar) :=
  cluster.findSome? (sourceCell recordBatches name)

def clusterCell (recordBatches : List RecordBatch) (name : String) (type : DataType)
    (cluster : List JoinValue) : Outcome Scalar :=
  match clusterSource recordBatches name cluster with
  | none => .ok none
  | some (rowType, scalar) => appendScalar type rowType scalar

theorem cluster_cell_of_source {recordBatches : List RecordBatch} {name : String}
    {type rowType : DataType} {scalar : Scalar} {cluster : List JoinValue}
    (source : clusterSource recordBatches name cluster = some (rowType, scalar)) :
    clusterCell recordBatches name type cluster = appendScalar type rowType scalar := by
  rw [clusterCell, source]

def InRange (recordBatches : List RecordBatch) (value : JoinValue) : Prop :=
  ∃ recordBatch, recordBatches[value.recordBatchIdx]? = some recordBatch ∧
    value.rowIdx < recordBatch.rows.length

section Field

variable {recordBatch : RecordBatch} {rowIdx : Nat}

theorem scalar_of_field {field : Field × Nat} (listed : field ∈ recordBatch.schema.fields.zipIdx)
    (bound : rowIdx < recordBatch.rows.length) :
    ∃ column, recordBatch.column field.2 = some column ∧
      column.getScalar rowIdx = .ok ((recordBatch.rows.getD rowIdx []).getD field.2 none) := by
  have found := List.mk_mem_zipIdx_iff_getElem?.mp listed
  have typed : recordBatch.schema.types[field.2]? = some field.1.type := by
    rw [Schema.types, List.getElem?_map, found, Option.map_some]
  unfold RecordBatch.column
  split
  · next missing => rw [typed] at missing; cases missing
  · next type found =>
    refine ⟨_, rfl, ?_⟩
    rw [Column.getScalar, List.getElem?_map, List.getElem?_eq_getElem bound, Option.map_some,
      List.getD_eq_getElem recordBatch.rows _ bound]

def fieldEffect (recordBatch : RecordBatch) (rowIdx : Nat) (builder : ColumnBuilder)
    (field : Field × Nat) : Outcome ColumnBuilder :=
  if builder.name = field.1.name then builder.fill recordBatch rowIdx field else .ok builder

theorem fill_eq {field : Field × Nat} (listed : field ∈ recordBatch.schema.fields.zipIdx)
    (bound : rowIdx < recordBatch.rows.length) (builder : ColumnBuilder) :
    builder.fill recordBatch rowIdx field =
      if builder.filled then .ok builder
      else do
        let cell ← appendScalar builder.type field.1.type
          ((recordBatch.rows.getD rowIdx []).getD field.2 none)
        return { builder with cells := builder.cells ++ [cell], filled := true } := by
  obtain ⟨column, found, read⟩ := scalar_of_field listed bound
  unfold ColumnBuilder.fill
  rw [found]
  simp only [read, bind, Except.bind]

theorem fill_name {field : Field × Nat} {builder result : ColumnBuilder}
    (returned : builder.fill recordBatch rowIdx field = .ok result) :
    result.name = builder.name := by
  unfold ColumnBuilder.fill at returned
  split at returned
  · rw [Except.ok.inj returned]
  · split at returned
    · cases returned
    · obtain ⟨_, _, returned⟩ := except_bind_ok_cases returned
      obtain ⟨_, _, returned⟩ := except_bind_ok_cases returned
      cases returned
      rfl

theorem field_effects_filled {builder : ColumnBuilder} (filled : builder.filled = true)
    (fields : List (Field × Nat)) :
    fields.foldlM (fieldEffect recordBatch rowIdx) builder = .ok builder := by
  induction fields with
  | nil => rfl
  | cons field rest induction =>
      have same : fieldEffect recordBatch rowIdx builder field = .ok builder := by
        unfold fieldEffect ColumnBuilder.fill
        rw [if_pos filled, ite_self]
      rw [List.foldlM_cons, same]
      exact induction

theorem field_effects_unfilled {builder : ColumnBuilder} (unfilled : builder.filled = false)
    (bound : rowIdx < recordBatch.rows.length) {fields : List (Field × Nat)}
    (listed : ∀ field ∈ fields, field ∈ recordBatch.schema.fields.zipIdx) :
    fields.foldlM (fieldEffect recordBatch rowIdx) builder =
      match fields.find? fun field => field.1.name = builder.name with
      | none => .ok builder
      | some field => do
          let cell ← appendScalar builder.type field.1.type
            ((recordBatch.rows.getD rowIdx []).getD field.2 none)
          return { builder with cells := builder.cells ++ [cell], filled := true } := by
  induction fields with
  | nil => rfl
  | cons field rest induction =>
      rw [List.forall_mem_cons] at listed
      rw [List.foldlM_cons, fieldEffect]
      by_cases same : builder.name = field.1.name
      · have first : (field :: rest).find? (fun field => field.1.name = builder.name) =
            some field := List.find?_cons_of_pos (by simpa using same.symm)
        rw [if_pos same, first, fill_eq listed.1 bound, unfilled, if_neg Bool.false_ne_true,
          bind_assoc]
        congr 1
        funext cell
        exact field_effects_filled rfl rest
      · have later : (field :: rest).find? (fun field => field.1.name = builder.name) =
            rest.find? fun field => field.1.name = builder.name :=
          List.find?_cons_of_neg (by simpa using Ne.symm same)
        rw [if_neg same, later]
        exact induction listed.2

end Field

section Row

variable {recordBatches : List RecordBatch}

def rowEffect (recordBatches : List RecordBatch) (builder : ColumnBuilder) (value : JoinValue) :
    Outcome ColumnBuilder :=
  match recordBatches[value.recordBatchIdx]? with
  | none => .error (.undefined "a batch past the last one is read")
  | some recordBatch =>
      recordBatch.schema.fields.zipIdx.foldlM (fieldEffect recordBatch value.rowIdx) builder

theorem row_effect_filled {value : JoinValue} (inRange : InRange recordBatches value)
    {builder : ColumnBuilder} (filled : builder.filled = true) :
    rowEffect recordBatches builder value = .ok builder := by
  obtain ⟨recordBatch, found, _⟩ := inRange
  rw [rowEffect, found]
  exact field_effects_filled filled _

theorem row_effect_unfilled {value : JoinValue} (inRange : InRange recordBatches value)
    {builder : ColumnBuilder} (unfilled : builder.filled = false) :
    rowEffect recordBatches builder value =
      match sourceCell recordBatches builder.name value with
      | none => .ok builder
      | some (rowType, scalar) => do
          let cell ← appendScalar builder.type rowType scalar
          return { builder with cells := builder.cells ++ [cell], filled := true } := by
  obtain ⟨recordBatch, found, bound⟩ := inRange
  rw [rowEffect, sourceCell, found]
  refine (field_effects_unfilled unfilled bound fun _ listed => listed).trans ?_
  rw [Option.bind_some]
  cases (recordBatch.schema.fields.zipIdx.find? fun field => field.1.name = builder.name) with
  | none => rfl
  | some field => rfl

theorem row_effects_filled {cluster : List JoinValue}
    (inRange : ∀ value ∈ cluster, InRange recordBatches value) {builder : ColumnBuilder}
    (filled : builder.filled = true) :
    cluster.foldlM (rowEffect recordBatches) builder = .ok builder := by
  induction cluster with
  | nil => rfl
  | cons value rest induction =>
      rw [List.forall_mem_cons] at inRange
      rw [List.foldlM_cons, row_effect_filled inRange.1 filled]
      exact induction inRange.2

def clusterEffect (recordBatches : List RecordBatch) (builder : ColumnBuilder)
    (cluster : List JoinValue) : Outcome ColumnBuilder := do
  let builder ← cluster.foldlM (rowEffect recordBatches) builder
  return builder.finishRow

theorem cluster_effect_eq {cluster : List JoinValue}
    (inRange : ∀ value ∈ cluster, InRange recordBatches value) {builder : ColumnBuilder}
    (unfilled : builder.filled = false) :
    clusterEffect recordBatches builder cluster = do
      let cell ← clusterCell recordBatches builder.name builder.type cluster
      return { builder with cells := builder.cells ++ [cell] } := by
  induction cluster with
  | nil =>
      rw [clusterEffect, clusterCell, clusterSource, List.findSome?_nil]
      simp only [List.foldlM_nil, pure_bind, ColumnBuilder.finishRow, unfilled,
        if_neg Bool.false_ne_true]
      rfl
  | cons value rest induction =>
      rw [List.forall_mem_cons] at inRange
      rw [clusterEffect, clusterCell, clusterSource, List.foldlM_cons, List.findSome?_cons,
        row_effect_unfilled inRange.1 unfilled]
      cases source : sourceCell recordBatches builder.name value with
      | none => exact induction inRange.2
      | some own =>
          obtain ⟨rowType, scalar⟩ := own
          simp only [bind_assoc, pure_bind]
          congr 1
          funext cell
          rw [row_effects_filled inRange.2 rfl]
          show (.ok { builder with cells := builder.cells ++ [cell], filled := false } :
            Outcome ColumnBuilder) = .ok { builder with cells := builder.cells ++ [cell] }
          rw [← unfilled]

theorem cluster_effects_eq {clusters : List (List JoinValue)}
    (inRange : ∀ cluster ∈ clusters, ∀ value ∈ cluster, InRange recordBatches value)
    {builder : ColumnBuilder} (unfilled : builder.filled = false) :
    clusters.foldlM (clusterEffect recordBatches) builder = do
      let cells ← clusters.mapM (clusterCell recordBatches builder.name builder.type)
      return { builder with cells := builder.cells ++ cells } := by
  induction clusters generalizing builder with
  | nil =>
      rw [List.foldlM_nil, List.mapM_nil, pure_bind, List.append_nil]
  | cons cluster rest induction =>
      rw [List.forall_mem_cons] at inRange
      rw [List.foldlM_cons, cluster_effect_eq inRange.1 unfilled, List.mapM_cons, bind_assoc,
        bind_assoc]
      congr 1
      funext cell
      have later := @induction inRange.2 { builder with cells := builder.cells ++ [cell] } unfilled
      rw [pure_bind, later, bind_assoc]
      congr 1
      funext cells
      rw [pure_bind, List.append_assoc, List.singleton_append]

end Row

section Builders

variable {names : List String} {recordBatches : List RecordBatch}

def Named (names : List String) (builders : List ColumnBuilder) : Prop :=
  builders.map ColumnBuilder.name = names

theorem named_of_returns {effect : ColumnBuilder → Outcome ColumnBuilder}
    (keeps : ∀ {builder result : ColumnBuilder}, effect builder = .ok result →
      result.name = builder.name) {builders results : List ColumnBuilder}
    (named : Named names builders) (returned : Returns effect builders results) :
    Named names results := by
  rw [← named, Named, eq_comm, ← List.forall₂_eq_eq_eq, List.forall₂_map_left_iff,
    List.forall₂_map_right_iff]
  exact returned.imp fun _ _ head => (keeps head).symm

theorem append_field_partwise {recordBatch : RecordBatch} {rowIdx : Nat} {field : Field × Nat}
    (distinct : names.Nodup) (listed : field.1.name ∈ names) :
    Partwise (Named names) (fun builders => appendField recordBatch rowIdx builders field)
      (fun builder => fieldEffect recordBatch rowIdx builder field) where
  returns := by
    intro builders results named
    unfold Named at named
    subst named
    obtain ⟨own, member, isNamed⟩ := List.mem_map.mp listed
    have present : (builders.find? fun builder => builder.name = field.1.name).isSome :=
      List.find?_isSome.mpr ⟨own, member, decide_eq_true isNamed⟩
    obtain ⟨builder, found⟩ := Option.isSome_iff_exists.mp present
    have same : builder.name = field.1.name := by simpa using List.find?_some found
    have effect : (fun builder => fieldEffect recordBatch rowIdx builder field) =
        fun own => if own.name = builder.name then
          ColumnBuilder.fill recordBatch rowIdx field own else .ok own := by
      funext own
      rw [fieldEffect, same]
    rw [effect, Partwise.returns_keyed distinct (List.mem_of_find?_eq_some found), appendField,
      found]
    constructor
    · intro returned
      obtain ⟨filled, own, returned⟩ := except_bind_ok_cases returned
      exact ⟨filled, own, (Except.ok.inj returned).symm⟩
    · rintro ⟨filled, own, rfl⟩
      simp only [own, bind, Except.bind]
      rfl
  keeps := by
    apply named_of_returns
    intro builder result returned
    unfold fieldEffect at returned
    split at returned
    · exact fill_name returned
    · rw [Except.ok.inj returned]

def Covers (names : List String) (recordBatches : List RecordBatch) : Prop :=
  ∀ recordBatch ∈ recordBatches, ∀ field ∈ recordBatch.schema.fields, field.name ∈ names

theorem append_row_partwise (distinct : names.Nodup) (covers : Covers names recordBatches)
    {value : JoinValue} (inRange : InRange recordBatches value) :
    Partwise (Named names) (fun builders => appendRow recordBatches builders value)
      (fun builder => rowEffect recordBatches builder value) := by
  obtain ⟨recordBatch, found, _⟩ := inRange
  unfold appendRow rowEffect
  rw [found]
  apply Partwise.fold
  intro field listed
  apply append_field_partwise distinct
  apply covers recordBatch (List.mem_of_getElem? found)
  exact List.mem_of_getElem? (List.mk_mem_zipIdx_iff_getElem?.mp listed)

def finishRows (builders : List ColumnBuilder) : List ColumnBuilder :=
  builders.map ColumnBuilder.finishRow

theorem finish_row_name (builder : ColumnBuilder) : builder.finishRow.name = builder.name := by
  unfold ColumnBuilder.finishRow
  split
  · rfl
  · rfl

theorem named_map {change : ColumnBuilder → ColumnBuilder}
    (keeps : ∀ builder, (change builder).name = builder.name) {builders : List ColumnBuilder}
    (named : Named names builders) : Named names (builders.map change) := by
  rw [← named, Named, List.map_map]
  exact List.map_congr_left fun builder _ => keeps builder

theorem cluster_partwise (distinct : names.Nodup) (covers : Covers names recordBatches)
    {cluster : List JoinValue} (inRange : ∀ value ∈ cluster, InRange recordBatches value) :
    Partwise (Named names)
      (fun builders => cover (appendRow recordBatches) finishRows builders cluster)
      (fun builder => clusterEffect recordBatches builder cluster) := by
  unfold cover clusterEffect
  apply Partwise.bind
  · exact Partwise.fold fun value member =>
      append_row_partwise distinct covers (inRange value member)
  · exact Partwise.of_map fun _ named => named_map finish_row_name named

end Builders

section Keys

variable {tolerance : Int} {recordBatches : List RecordBatch}

/-- A row is too late for an output row that began at a time. -/
def Breaks (tolerance : Int) (lastTs : Int) (value : JoinValue) : Prop :=
  tolerance < absoluteDifference value.time lastTs

instance (tolerance : Int) : DecidableRel (Breaks tolerance) := fun lastTs value =>
  inferInstanceAs (Decidable (tolerance < absoluteDifference value.time lastTs))

def keyClusters (tolerance : Int) (values : List JoinValue) : List (List JoinValue) :=
  clusters JoinValue.time (Breaks tolerance) values

/-- The clusters of all keys, in the order in which the keys are visited. -/
def visitedClusters (tolerance : Int) (keysToRows : KeysToRows) : List (List JoinValue) :=
  keysToRows.flatMap fun entry => keyClusters tolerance entry.2

def appendTableRow (recordBatches : List RecordBatch) (table : JoinTable) (value : JoinValue) :
    Outcome JoinTable := do
  let columnBuilders ← appendRow recordBatches table.columnBuilders value
  return { table with columnBuilders }

theorem join_value_eq : joinValue tolerance recordBatches =
    visit JoinValue.time (Breaks tolerance) (appendTableRow recordBatches)
      JoinTable.finishRow := by
  funext current value
  obtain ⟨lastTs, table⟩ := current
  rw [visit_eq]
  unfold joinValue appendTableRow
  by_cases broken : tolerance < absoluteDifference value.time lastTs
  · have breaks : Breaks tolerance lastTs value := broken
    simp only [if_pos broken, if_pos breaks, bind_assoc, pure_bind]
  · have whole : ¬Breaks tolerance lastTs value := broken
    simp only [if_neg broken, if_neg whole, bind_assoc, pure_bind]

theorem join_key_rows_eq {entry : String × List JoinValue} (nonempty : entry.2 ≠ [])
    (table : JoinTable) : joinKeyRows tolerance recordBatches table entry =
      (keyClusters tolerance entry.2).foldlM
        (cover (appendTableRow recordBatches) JoinTable.finishRow) table.resetFilled := by
  obtain ⟨keyString, values⟩ := entry
  cases values with
  | nil => exact absurd rfl nonempty
  | cons first rest =>
      rw [joinKeyRows, join_value_eq, keyClusters, ← visit_clusters]

theorem cover_table_eq (cluster : List JoinValue) (table : JoinTable) :
    cover (appendTableRow recordBatches) JoinTable.finishRow table cluster = do
      let builders ← cover (appendRow recordBatches) finishRows table.columnBuilders cluster
      return ⟨builders, table.rowCount + 1⟩ := by
  have rows : ∀ (cluster : List JoinValue) (table : JoinTable),
      cluster.foldlM (appendTableRow recordBatches) table = do
        let columnBuilders ← cluster.foldlM (appendRow recordBatches) table.columnBuilders
        return { table with columnBuilders } := by
    intro cluster
    induction cluster with
    | nil => exact fun _ => rfl
    | cons value rest induction =>
        intro table
        simp only [List.foldlM_cons, appendTableRow, bind_assoc, pure_bind, induction]
  unfold cover
  rw [rows]
  simp only [bind_assoc, pure_bind]
  rfl

theorem cover_tables_eq (clusters : List (List JoinValue)) (table : JoinTable) :
    clusters.foldlM (cover (appendTableRow recordBatches) JoinTable.finishRow) table = do
      let builders ← clusters.foldlM (cover (appendRow recordBatches) finishRows)
        table.columnBuilders
      return ⟨builders, table.rowCount + clusters.length⟩ := by
  induction clusters generalizing table with
  | nil => rfl
  | cons cluster rest induction =>
      simp only [List.foldlM_cons, cover_table_eq, bind_assoc, pure_bind, induction,
        List.length_cons, Nat.add_assoc, Nat.add_comm 1]

def keyRows (tolerance : Int) (recordBatches : List RecordBatch) (builders : List ColumnBuilder)
    (entry : String × List JoinValue) : Outcome (List ColumnBuilder) :=
  (keyClusters tolerance entry.2).foldlM (cover (appendRow recordBatches) finishRows)
    (builders.map ColumnBuilder.resetFilled)

theorem join_keys_eq {keysToRows : KeysToRows} (nonempty : ∀ entry ∈ keysToRows, entry.2 ≠ [])
    (table : JoinTable) :
    keysToRows.foldlM (joinKeyRows tolerance recordBatches) table = do
      let builders ← keysToRows.foldlM (keyRows tolerance recordBatches) table.columnBuilders
      return ⟨builders, table.rowCount + (visitedClusters tolerance keysToRows).length⟩ := by
  induction keysToRows generalizing table with
  | nil => rfl
  | cons entry rest induction =>
      rw [List.forall_mem_cons] at nonempty
      simp only [List.foldlM_cons, join_key_rows_eq nonempty.1, cover_tables_eq,
        induction nonempty.2, keyRows, bind_assoc, pure_bind, visitedClusters, List.flatMap_cons,
        List.length_append, Nat.add_assoc, JoinTable.resetFilled]

def keyEffect (tolerance : Int) (recordBatches : List RecordBatch) (builder : ColumnBuilder)
    (entry : String × List JoinValue) : Outcome ColumnBuilder :=
  (keyClusters tolerance entry.2).foldlM (clusterEffect recordBatches) builder.resetFilled

def AllInRange (recordBatches : List RecordBatch) (keysToRows : KeysToRows) : Prop :=
  ∀ entry ∈ keysToRows, ∀ value ∈ entry.2, InRange recordBatches value

theorem key_clusters_in_range {values : List JoinValue}
    (inRange : ∀ value ∈ values, InRange recordBatches value) :
    ∀ cluster ∈ keyClusters tolerance values, ∀ value ∈ cluster, InRange recordBatches value :=
  fun _ listed value member => inRange value (mem_of_mem_clusters _ _ listed member)

theorem keys_partwise {names : List String} (distinct : names.Nodup)
    (covers : Covers names recordBatches) {keysToRows : KeysToRows}
    (inRange : AllInRange recordBatches keysToRows) :
    Partwise (Named names)
      (fun builders => keysToRows.foldlM (keyRows tolerance recordBatches) builders)
      (fun builder => keysToRows.foldlM (keyEffect tolerance recordBatches) builder) := by
  apply Partwise.fold
  intro entry listed
  have reset : Partwise (Named names)
      (fun builders => (.ok (builders.map ColumnBuilder.resetFilled) : Outcome _))
      (fun builder => .ok builder.resetFilled) :=
    Partwise.of_map fun _ named => @named_map _ ColumnBuilder.resetFilled (fun _ => rfl) _ named
  have covered : Partwise (Named names)
      (fun builders => (keyClusters tolerance entry.2).foldlM
        (cover (appendRow recordBatches) finishRows) builders)
      (fun builder => (keyClusters tolerance entry.2).foldlM (clusterEffect recordBatches)
        builder) := by
    apply Partwise.fold
    intro cluster member
    apply cluster_partwise distinct covers
    exact key_clusters_in_range (inRange entry listed) cluster member
  exact reset.bind covered

theorem key_effects_eq {keysToRows : KeysToRows} (inRange : AllInRange recordBatches keysToRows)
    {builder : ColumnBuilder} (unfilled : builder.filled = false) :
    keysToRows.foldlM (keyEffect tolerance recordBatches) builder = do
      let cells ← (visitedClusters tolerance keysToRows).mapM (clusterCell recordBatches builder.name builder.type)
      return { builder with cells := builder.cells ++ cells } := by
  induction keysToRows generalizing builder with
  | nil =>
      rw [visitedClusters, List.flatMap_nil, List.foldlM_nil, List.mapM_nil, pure_bind,
        List.append_nil]
  | cons entry rest induction =>
      unfold AllInRange at inRange
      rw [List.forall_mem_cons] at inRange
      have same : builder.resetFilled = builder := by
        unfold ColumnBuilder.resetFilled
        rw [← unfilled]
      rw [List.foldlM_cons, keyEffect, same,
        cluster_effects_eq (key_clusters_in_range inRange.1) unfilled, visitedClusters,
        List.flatMap_cons, List.mapM_append, bind_assoc, bind_assoc]
      congr 1
      funext cells
      have later := @induction inRange.2 { builder with cells := builder.cells ++ cells } unfilled
      rw [pure_bind, later, bind_assoc]
      simp only [pure_bind, List.append_assoc]
      rfl

def joinedColumn (recordBatches : List RecordBatch) (clusters : List (List JoinValue))
    (builder : ColumnBuilder) : Outcome ColumnBuilder := do
  let cells ← clusters.mapM (clusterCell recordBatches builder.name builder.type)
  return { builder with cells := builder.cells ++ cells }

/-- The loop over the keys adds a row for each cluster, column by column. -/
theorem join_keys_ok_iff {builders : List ColumnBuilder} {keysToRows : KeysToRows}
    {table : JoinTable} (distinct : (builders.map ColumnBuilder.name).Nodup)
    (covers : Covers (builders.map ColumnBuilder.name) recordBatches)
    (unfilled : ∀ builder ∈ builders, builder.filled = false)
    (inRange : AllInRange recordBatches keysToRows)
    (nonempty : ∀ entry ∈ keysToRows, entry.2 ≠ []) :
    keysToRows.foldlM (joinKeyRows tolerance recordBatches) { columnBuilders := builders } =
        .ok table ↔
      table.rowCount = (visitedClusters tolerance keysToRows).length ∧
        Returns (joinedColumn recordBatches (visitedClusters tolerance keysToRows)) builders
          table.columnBuilders := by
  have partwise := @keys_partwise tolerance recordBatches _ distinct covers keysToRows inRange
  have effects : ∀ results, Returns
      (fun builder => keysToRows.foldlM (keyEffect tolerance recordBatches) builder) builders
        results ↔
      Returns (joinedColumn recordBatches (visitedClusters tolerance keysToRows)) builders
        results := by
    intro results
    apply Partwise.returns_congr
    intro builder member
    exact key_effects_eq inRange (unfilled builder member)
  rw [join_keys_eq nonempty, ← effects, ← partwise.returns rfl]
  constructor
  · intro returned
    obtain ⟨results, own, returned⟩ := except_bind_ok_cases returned
    cases returned
    exact ⟨Nat.zero_add _, own⟩
  · rintro ⟨count, returned⟩
    obtain ⟨columnBuilders, rowCount⟩ := table
    simp only at count returned
    rw [returned, count]
    simp only [bind, Except.bind, Nat.zero_add]
    rfl

end Keys

end StreamDataProcessor.Handlers.Join
