import StreamDataProcessor.Foundation.Delimited
import StreamDataProcessor.Handlers.JoinLaw

/-!
# The key strings of a join

A key string has the texts of the join columns behind their names, with nothing escaped. Rows
with different cells have one key string when the texts are the same, or when a text holds a
comma and goes on as the next column does in the other row.
-/

namespace StreamDataProcessor.Handlers.Join

open Foundation Foundation.Effect Arrow Metadata Utils

set_option autoImplicit false

def joinScalar (recordBatch : RecordBatch) (rowIdx : Nat) (name : String) :
    Option (DataType × Scalar) :=
  (recordBatch.getColumnByName name).map fun column =>
    (column.type, column.cells.getD rowIdx none)

def joinScalars (joinOnColumns : List String) (recordBatch : RecordBatch) (rowIdx : Nat) :
    List (Option (DataType × Scalar)) :=
  joinOnColumns.map (joinScalar recordBatch rowIdx)

/-- The scalars in the join columns of the row of a value. -/
def valueScalars (joinOnColumns : List String) (recordBatches : List RecordBatch)
    (value : JoinValue) : Option (List (Option (DataType × Scalar))) :=
  (recordBatches[value.recordBatchIdx]?).map fun recordBatch =>
    joinScalars joinOnColumns recordBatch value.rowIdx

def joinLabels (joinOnColumns : List String) : List (List Char) :=
  joinOnColumns.map fun name => (name ++ "=").toList

section Texts

variable (renderScalar : DataType → Value → String) (joinOnColumns : List String)

def scalarText : Option (DataType × Scalar) → String
  | some (type, scalar) => scalarToString renderScalar type scalar
  | none => ""

def joinTexts (recordBatch : RecordBatch) (rowIdx : Nat) : List (List Char) :=
  (joinScalars joinOnColumns recordBatch rowIdx).map fun scalar =>
    (scalarText renderScalar scalar).toList

/-- Rows that agree on the join columns, or whose texts differ and do not shift. -/
def Distinguishable (left right : IndexedRow) : Prop :=
  joinScalars joinOnColumns left.1 left.2.2 = joinScalars joinOnColumns right.1 right.2.2 ∨
    (joinTexts renderScalar joinOnColumns left.1 left.2.2 ≠
        joinTexts renderScalar joinOnColumns right.1 right.2.2 ∧
      ¬Delimited.Shifts ',' (joinLabels joinOnColumns)
        (joinTexts renderScalar joinOnColumns left.1 left.2.2)
        (joinTexts renderScalar joinOnColumns right.1 right.2.2) ∧
      ¬Delimited.Shifts ',' (joinLabels joinOnColumns)
        (joinTexts renderScalar joinOnColumns right.1 right.2.2)
        (joinTexts renderScalar joinOnColumns left.1 left.2.2))

/-- What holds of all pairs of rows that have keys. -/
def ForKeyedPairs (recordBatches : List RecordBatch)
    (holds : IndexedRow → JoinKey → IndexedRow → JoinKey → Prop) : Prop :=
  ∀ timeColumnName, ∀ left ∈ indexedRows recordBatches, ∀ right ∈ indexedRows recordBatches,
    ∀ leftKey rightKey,
      getJoinKey renderScalar joinOnColumns left.1 left.2.2 timeColumnName = .ok leftKey →
      getJoinKey renderScalar joinOnColumns right.1 right.2.2 timeColumnName = .ok rightKey →
      holds left leftKey right rightKey

/-- Rows with one key string agree on the join columns. -/
def KeysAgree (recordBatches : List RecordBatch) : Prop :=
  ForKeyedPairs renderScalar joinOnColumns recordBatches fun left leftKey right rightKey =>
    leftKey.keyString = rightKey.keyString →
      joinScalars joinOnColumns left.1 left.2.2 = joinScalars joinOnColumns right.1 right.2.2

/-- No two rows can be taken for each other. -/
def NoCollision (recordBatches : List RecordBatch) : Prop :=
  ForKeyedPairs renderScalar joinOnColumns recordBatches fun left _ right _ =>
    Distinguishable renderScalar joinOnColumns left right

/-- Every row that a call returns is made of rows that agree on the join columns. -/
def RowsAgree (tolerance : Int) (recordBatches : List RecordBatch)
    (returned : Outcome (List RecordBatch)) : Prop :=
  ∀ results, returned = .ok results → ∀ result ∈ results, ∃ timeColumnName keyed rows,
    keyedRows renderScalar joinOnColumns timeColumnName recordBatches = .ok keyed ∧
    Joins recordBatches timeColumnName (joinClusters tolerance keyed) result rows ∧
    ∀ cluster ∈ joinClusters tolerance keyed, ∀ left ∈ cluster, ∀ right ∈ cluster,
      valueScalars joinOnColumns recordBatches left =
        valueScalars joinOnColumns recordBatches right

variable {renderScalar joinOnColumns}

theorem join_scalar_text_ok {recordBatch : RecordBatch} {rowIdx : Nat} {name text : String}
    (returned : joinScalarText renderScalar recordBatch rowIdx name = .ok text) :
    text.toList = (name ++ "=").toList ++
      ((scalarText renderScalar (joinScalar recordBatch rowIdx name)).toList ++ [',']) := by
  unfold joinScalarText at returned
  split at returned
  · cases returned
  · next column found =>
    obtain ⟨value, read, returned⟩ := except_bind_ok_cases returned
    cases returned
    have scalar : joinScalar recordBatch rowIdx name = some (column.type, value) := by
      rw [joinScalar, found, Option.map_some, List.getD_eq_getElem?_getD]
      unfold Column.getScalar at read
      split at read
      · next cell present => rw [present, Option.getD_some, Except.ok.inj read]
      · cases read
    rw [scalar, scalarText, String.toList_append, String.toList_append, List.append_assoc]
    rfl

theorem joined_texts_eq {recordBatch : RecordBatch} {rowIdx : Nat} {names texts : List String}
    (each : List.Forall₂ (fun name text =>
      joinScalarText renderScalar recordBatch rowIdx name = .ok text) names texts) :
    texts.flatMap String.toList = Delimited.encode ',' (joinLabels names)
      (joinTexts renderScalar names recordBatch rowIdx) := by
  induction each with
  | nil => rfl
  | cons head _ induction =>
      rw [List.flatMap_cons, join_scalar_text_ok head, induction, List.append_assoc,
        List.append_assoc]
      rfl

/-- A key string is the encoding of the texts of the join columns. -/
theorem key_string_eq {recordBatch : RecordBatch} {rowIdx : Nat} {timeColumnName : String}
    {joinKey : JoinKey}
    (returned : getJoinKey renderScalar joinOnColumns recordBatch rowIdx timeColumnName =
      .ok joinKey) :
    joinKey.keyString.toList = Delimited.encode ',' (joinLabels joinOnColumns)
      (joinTexts renderScalar joinOnColumns recordBatch rowIdx) := by
  obtain ⟨texts, converted, returned⟩ := except_bind_ok_cases returned
  obtain ⟨time, _, returned⟩ := except_bind_ok_cases returned
  cases returned
  rw [String.toList_join, joined_texts_eq (map_m_ok_iff.mp converted)]

theorem same_key_iff {left right : IndexedRow} {timeColumnName : String}
    {leftKey rightKey : JoinKey}
    (leftRead : getJoinKey renderScalar joinOnColumns left.1 left.2.2 timeColumnName =
      .ok leftKey)
    (rightRead : getJoinKey renderScalar joinOnColumns right.1 right.2.2 timeColumnName =
      .ok rightKey) :
    (leftKey.keyString = rightKey.keyString →
        joinScalars joinOnColumns left.1 left.2.2 =
          joinScalars joinOnColumns right.1 right.2.2) ↔
      Distinguishable renderScalar joinOnColumns left right := by
  have lengths : ∀ row : IndexedRow,
      (joinTexts renderScalar joinOnColumns row.1 row.2.2).length =
        (joinLabels joinOnColumns).length := by
    intro row
    rw [joinTexts, joinScalars, joinLabels, List.length_map, List.length_map, List.length_map]
  have same : leftKey.keyString = rightKey.keyString ↔
      Delimited.encode ',' (joinLabels joinOnColumns)
          (joinTexts renderScalar joinOnColumns left.1 left.2.2) =
        Delimited.encode ',' (joinLabels joinOnColumns)
          (joinTexts renderScalar joinOnColumns right.1 right.2.2) := by
    rw [← key_string_eq leftRead, ← key_string_eq rightRead, String.toList_inj]
  rw [same, Delimited.encode_eq_iff (lengths left) (lengths right)]
  unfold Distinguishable
  tauto

theorem keys_agree_iff {recordBatches : List RecordBatch} :
    KeysAgree renderScalar joinOnColumns recordBatches ↔
      NoCollision renderScalar joinOnColumns recordBatches := by
  constructor
  · intro agree timeColumnName left inLeft right inRight leftKey rightKey leftRead rightRead
    exact (same_key_iff leftRead rightRead).mp
      (agree timeColumnName left inLeft right inRight leftKey rightKey leftRead rightRead)
  · intro apart timeColumnName left inLeft right inRight leftKey rightKey leftRead rightRead
    exact (same_key_iff leftRead rightRead).mpr
      (apart timeColumnName left inLeft right inRight leftKey rightKey leftRead rightRead)

theorem value_scalars_of_keyed {recordBatches : List RecordBatch} {timeColumnName : String}
    {keyed : List (String × JoinValue)} {keyString : String} {value : JoinValue}
    (rows : keyedRows renderScalar joinOnColumns timeColumnName recordBatches = .ok keyed)
    (member : (keyString, value) ∈ keyed) :
    ∃ row ∈ indexedRows recordBatches, ∃ joinKey,
      getJoinKey renderScalar joinOnColumns row.1 row.2.2 timeColumnName = .ok joinKey ∧
      joinKey.keyString = keyString ∧ valueScalars joinOnColumns recordBatches value =
        some (joinScalars joinOnColumns row.1 row.2.2) := by
  obtain ⟨row, listed, converted⟩ := mem_of_map_m rows member
  obtain ⟨joinKey, read, same⟩ := keyed_row_ok converted
  rw [Prod.mk.injEq] at same
  refine ⟨row, listed, joinKey, read, same.1.symm, ?_⟩
  rw [same.2, valueScalars, (mem_indexed_rows.mp listed).1, Option.map_some]

theorem clusters_agree {recordBatches : List RecordBatch} {timeColumnName : String}
    {keyed : List (String × JoinValue)} {tolerance : Int}
    (agree : KeysAgree renderScalar joinOnColumns recordBatches)
    (rows : keyedRows renderScalar joinOnColumns timeColumnName recordBatches = .ok keyed)
    {cluster : List JoinValue} (listed : cluster ∈ joinClusters tolerance keyed) :
    ∀ left ∈ cluster, ∀ right ∈ cluster,
      valueScalars joinOnColumns recordBatches left =
        valueScalars joinOnColumns recordBatches right := by
  intro left inLeft right inRight
  obtain ⟨keyString, keyedBy⟩ := mem_join_clusters listed
  obtain ⟨leftRow, leftListed, leftKey, leftRead, leftString, leftScalars⟩ :=
    value_scalars_of_keyed rows (keyedBy left inLeft)
  obtain ⟨rightRow, rightListed, rightKey, rightRead, rightString, rightScalars⟩ :=
    value_scalars_of_keyed rows (keyedBy right inRight)
  rw [leftScalars, rightScalars]
  congr 1
  apply agree timeColumnName leftRow leftListed rightRow rightListed leftKey rightKey leftRead
    rightRead
  rw [leftString, rightString]

/-- Key strings tell the rows of a call apart just when no two of them collide. -/
theorem never_joins_other_keys_iff {visitKeys : KeysToRows → KeysToRows}
    {visitColumns : List ColumnBuilder → List ColumnBuilder} {tolerance : Int}
    {recordBatches : List RecordBatch}
    (visits : ∀ keysToRows, (visitKeys keysToRows).Perm keysToRows)
    (arranges : ∀ builders, (visitColumns builders).Perm builders) :
    (KeysAgree renderScalar joinOnColumns recordBatches ∧
      RowsAgree renderScalar joinOnColumns tolerance recordBatches
        (handle renderScalar visitKeys visitColumns joinOnColumns tolerance recordBatches)) ↔
      NoCollision renderScalar joinOnColumns recordBatches := by
  rw [← keys_agree_iff]
  constructor
  · exact And.left
  · intro agree
    refine ⟨agree, ?_⟩
    intro results returned result member
    have nonempty : recordBatches ≠ [] := by
      rintro rfl
      cases returned
      cases member
    obtain ⟨front, timeColumnName, keyed, joined, rows, _, _, isKeyed, rfl, joins⟩ :=
      handle_ok visits arranges nonempty returned
    rw [List.mem_singleton.mp member]
    exact ⟨timeColumnName, keyed, rows, isKeyed, joins,
      fun _ => clusters_agree agree isKeyed⟩

end Texts

def crossedBatch : RecordBatch where
  schema := {
    fields := [⟨"time", .timestamp .second, true, {}⟩, ⟨"a", .utf8, true, {}⟩,
      ⟨"b", .utf8, true, {}⟩]
    metadata := { timeColumnName := some "time" } }
  rows := [[some (.integer 1), some (.string "1,b=2"), some (.string "3")],
    [some (.integer 1), some (.string "1"), some (.string "2,b=3")]]
  conforms := by
    rw [List.forall_mem_cons, List.forall_mem_singleton]
    exact ⟨.cons rfl (.cons rfl (.cons rfl .nil)), .cons rfl (.cons rfl (.cons rfl .nil))⟩

theorem crossed_rows_iff :
    (KeysAgree (fun _ _ => "") ["a", "b"] [crossedBatch] ∧
      RowsAgree (fun _ _ => "") ["a", "b"] 0 [crossedBatch]
        (handle (fun _ _ => "") id id ["a", "b"] 0 [crossedBatch])) ↔
      NoCollision (fun _ _ => "") ["a", "b"] [crossedBatch] :=
  never_joins_other_keys_iff (fun _ => .refl _) (fun _ => .refl _)

/-- The rows have one key string, and only the first of them is in the result. -/
theorem comma_joins_other_keys :
    ¬KeysAgree (fun _ _ => "") ["a", "b"] [crossedBatch] ∧
      (match handle (fun _ _ => "") id id ["a", "b"] 0 [crossedBatch] with
        | .ok results => some (results.map RecordBatch.rows)
        | .error _ => none) =
      some [[[some (.integer 1), some (.string "1,b=2"), some (.string "3")]]] := by
  constructor
  · intro agree
    have same := agree "time" (crossedBatch, 0, 0) (mem_indexed_rows.mpr ⟨rfl, by decide⟩)
      (crossedBatch, 0, 1) (mem_indexed_rows.mpr ⟨rfl, by decide⟩) ⟨"a=1,b=2,b=3,", 1⟩
      ⟨"a=1,b=2,b=3,", 1⟩ (by decide +kernel) (by decide +kernel) rfl
    revert same
    decide +kernel
  · decide +kernel

end StreamDataProcessor.Handlers.Join
