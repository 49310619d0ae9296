import StreamDataProcessor.Arrow.Types
import StreamDataProcessor.Metadata.Keys
import Mathlib.Data.List.Forall2
import Mathlib.Data.List.Sort
import Mathlib.Data.List.GetD

/-!
# Record batches

A record batch is a schema with the rows under it; every row has, for each field,
a cell its type can hold. Columns are read off the rows. `slice`, `concatenate`
and the stable sort are the list operations that Arrow documents for them.
-/

namespace StreamDataProcessor.Arrow

open Metadata

set_option autoImplicit false

structure Field where
  name : String
  type : DataType
  nullable : Bool := true
  metadata : FieldMetadata := {}
  deriving DecidableEq

structure Schema where
  fields : List Field
  metadata : SchemaMetadata := {}
  deriving DecidableEq

abbrev Row := List Scalar

def Schema.types (schema : Schema) : List DataType := schema.fields.map Field.type

def Schema.fieldNames (schema : Schema) : List String := schema.fields.map Field.name

/-- `Schema::Equals` with metadata left out. -/
def Schema.equalFields (left right : Schema) : Prop :=
  left.fields.map (fun field => (field.name, field.type, field.nullable)) =
    right.fields.map (fun field => (field.name, field.type, field.nullable))

instance (left right : Schema) : Decidable (left.equalFields right) :=
  inferInstanceAs (Decidable (_ = _))

/-- `GetFieldIndex`: no index when the name is missing or not unique. -/
def Schema.fieldIndex (schema : Schema) (name : String) : Option Nat :=
  if schema.fieldNames.count name = 1 then some (schema.fieldNames.idxOf name) else none

def Schema.fieldByName (schema : Schema) (name : String) : Option Field :=
  (schema.fieldIndex name).bind (schema.fields[·]?)

def RowConforms (types : List DataType) (row : Row) : Prop :=
  List.Forall₂ (fun type cell => type.admits cell = true) types row

structure Column where
  type : DataType
  cells : List Scalar
  conforms : ∀ cell ∈ cells, type.admits cell = true

/-- What a builder of a type finishes; a cell that the type cannot hold is null. -/
def Column.build (type : DataType) (cells : List Scalar) : Column where
  type := type
  cells := cells.map fun cell => if type.admits cell then cell else none
  conforms := by
    intro cell member
    obtain ⟨given, _, rfl⟩ := List.mem_map.mp member
    split
    · assumption
    · exact DataType.admits_null _

structure RecordBatch where
  schema : Schema
  rows : List Row
  conforms : ∀ row ∈ rows, RowConforms schema.types row

theorem RecordBatch.ext_rows {left right : RecordBatch} (schema : left.schema = right.schema)
    (rows : left.rows = right.rows) : left = right := by
  cases left
  cases right
  simp only at schema rows
  subst schema
  subst rows
  rfl

def RecordBatch.numRows (batch : RecordBatch) : Nat := batch.rows.length

theorem row_conforms_cell {types : List DataType} {row : Row} (conforms : RowConforms types row)
    {index : Nat} {type : DataType} (typed : types[index]? = some type) :
    type.admits (row.getD index none) = true := by
  induction conforms generalizing index with
  | nil => simp at typed
  | cons head tail induction =>
      cases index with
      | zero =>
          simp only [List.getElem?_cons_zero, Option.some.injEq] at typed
          subst typed
          simpa using head
      | succ index => simpa using induction (by simpa using typed)

theorem RecordBatch.cells_conform (batch : RecordBatch) {index : Nat} {type : DataType}
    (typed : batch.schema.types[index]? = some type) :
    ∀ cell ∈ batch.rows.map (fun row => row.getD index none), type.admits cell = true := by
  intro cell member
  obtain ⟨row, inRows, rfl⟩ := List.mem_map.mp member
  exact row_conforms_cell (batch.conforms row inRows) typed

/-- The column at an index, as its type and cells. -/
def RecordBatch.column (batch : RecordBatch) (index : Nat) : Option Column :=
  match typed : batch.schema.types[index]? with
  | none => none
  | some type => some {
      type := type
      cells := batch.rows.map fun row => row.getD index none
      conforms := batch.cells_conform typed }

def RecordBatch.getColumnByName (batch : RecordBatch) (name : String) : Option Column :=
  (batch.schema.fieldIndex name).bind batch.column

theorem get_column_by_name_eq (batch : RecordBatch) {name : String} {index : Nat}
    {type : DataType} (located : batch.schema.fieldIndex name = some index)
    (typed : batch.schema.types[index]? = some type) :
    batch.getColumnByName name = some
      ⟨type, batch.rows.map fun row => row.getD index none, batch.cells_conform typed⟩ := by
  unfold RecordBatch.getColumnByName
  rw [located, Option.bind_some]
  unfold RecordBatch.column
  split
  · next missing => rw [typed] at missing; cases missing
  · next other found =>
    rw [typed, Option.some.injEq] at found
    subst found
    rfl

def Schema.cell (schema : Schema) (name : String) (row : Row) : Scalar :=
  ((schema.fieldIndex name).map fun index => row.getD index none).getD none

theorem get_column_by_name_cells {batch : RecordBatch} {name : String} {column : Column}
    (found : batch.getColumnByName name = some column) :
    column.cells = batch.rows.map (batch.schema.cell name) ∧
      (batch.schema.fieldIndex name).bind (batch.schema.types[·]?) = some column.type := by
  cases located : batch.schema.fieldIndex name with
  | none =>
      rw [RecordBatch.getColumnByName, located] at found
      cases found
  | some index =>
      have cell : batch.schema.cell name = fun row => row.getD index none := by
        funext row
        rw [Schema.cell, located, Option.map_some, Option.getD_some]
      rw [RecordBatch.getColumnByName, located, Option.bind_some] at found
      rw [cell, Option.bind_some]
      unfold RecordBatch.column at found
      split at found
      · cases found
      · next type typed =>
        rw [Option.some.injEq] at found
        subst found
        exact ⟨rfl, typed⟩

theorem get_column_by_name_none (batch : RecordBatch) {name : String}
    (missing : batch.schema.fieldIndex name = none) : batch.getColumnByName name = none := by
  simp [RecordBatch.getColumnByName, missing]

theorem field_index_bound {schema : Schema} {name : String} {index : Nat}
    (located : schema.fieldIndex name = some index) :
    ∃ type, schema.types[index]? = some type := by
  unfold Schema.fieldIndex at located
  split at located
  · next unique =>
    have member : name ∈ schema.fieldNames := List.count_pos_iff.mp (by omega)
    have bound := List.idxOf_lt_length_iff.mpr member
    rw [Option.some.injEq] at located
    subst located
    refine ⟨_, List.getElem?_eq_getElem ?_⟩
    simpa [Schema.types, Schema.fieldNames] using bound
  · cases located

theorem field_index_names {schema : Schema} {name : String} {index : Nat}
    (located : schema.fieldIndex name = some index) : schema.fieldNames[index]? = some name := by
  unfold Schema.fieldIndex at located
  split at located
  · next unique =>
    rw [Option.some.injEq] at located
    subst located
    exact List.getElem?_idxOf (List.count_pos_iff.mp (by omega))
  · cases located

theorem field_by_name_name {schema : Schema} {name : String} {field : Field}
    (found : schema.fieldByName name = some field) : field.name = name := by
  obtain ⟨index, located, present⟩ := Option.bind_eq_some_iff.mp found
  have named := field_index_names located
  rw [Schema.fieldNames, List.getElem?_map, present, Option.map_some, Option.some.injEq] at named
  exact named

theorem field_index_of_nodup {schema : Schema} {index : Nat} {field : Field}
    (nodup : schema.fieldNames.Nodup) (found : schema.fields[index]? = some field) :
    schema.fieldIndex field.name = some index := by
  have named : schema.fieldNames[index]? = some field.name := by
    rw [Schema.fieldNames, List.getElem?_map, found, Option.map_some]
  obtain ⟨bound, isName⟩ := List.getElem?_eq_some_iff.mp named
  rw [Schema.fieldIndex, if_pos (List.count_eq_one_of_mem nodup (List.mem_of_getElem? named)),
    ← isName, List.Nodup.idxOf_getElem nodup]

def Column.getScalar (column : Column) (row : Nat) : Outcome Scalar :=
  match column.cells[row]? with
  | some cell => .ok cell
  | none => fail .indexError
      s!"tried to refer to element {row} but array is only {column.cells.length} long"

def RecordBatch.slice (batch : RecordBatch) (offset length : Nat) : RecordBatch where
  schema := batch.schema
  rows := (batch.rows.drop offset).take length
  conforms := fun row member =>
    batch.conforms row (List.mem_of_mem_drop (List.mem_of_mem_take member))

def RecordBatch.sliceFrom (batch : RecordBatch) (offset : Nat) : RecordBatch where
  schema := batch.schema
  rows := batch.rows.drop offset
  conforms := fun row member => batch.conforms row (List.mem_of_mem_drop member)

@[simp] theorem slice_schema (batch : RecordBatch) (offset length : Nat) :
    (batch.slice offset length).schema = batch.schema := rfl

@[simp] theorem slice_rows (batch : RecordBatch) (offset length : Nat) :
    (batch.slice offset length).rows = (batch.rows.drop offset).take length := rfl

@[simp] theorem slice_from_schema (batch : RecordBatch) (offset : Nat) :
    (batch.sliceFrom offset).schema = batch.schema := rfl

@[simp] theorem slice_from_rows (batch : RecordBatch) (offset : Nat) :
    (batch.sliceFrom offset).rows = batch.rows.drop offset := rfl

theorem equal_fields_types {left right : Schema} (same : left.equalFields right) :
    left.types = right.types := by
  have types := congrArg (List.map fun key => key.2.1) same
  simpa [Schema.types, List.map_map, Function.comp_def] using types

theorem equal_fields_refl (schema : Schema) : schema.equalFields schema := rfl

theorem equal_fields_names {left right : Schema} (same : left.equalFields right) :
    left.fieldNames = right.fieldNames := by
  have names := congrArg (List.map fun key => key.1) same
  simpa [Schema.fieldNames, List.map_map, Function.comp_def] using names

/-- `Table::FromRecordBatches` followed by `CombineChunks`: the first batch gives
the schema, and the fields of the others must equal its own. Where there are no rows
`convertTableToRecordBatch` gives a batch of no columns; here they are kept. -/
def concatenateTables : List RecordBatch → Outcome RecordBatch
  | [] => fail .invalid "Must pass at least one record batch"
  | first :: rest =>
      if same : ∀ batch ∈ rest, batch.schema.equalFields first.schema then
        .ok {
          schema := first.schema
          rows := first.rows ++ rest.flatMap RecordBatch.rows
          conforms := by
            intro row member
            rcases List.mem_append.mp member with own | other
            · exact first.conforms row own
            · obtain ⟨batch, inRest, inBatch⟩ := List.mem_flatMap.mp other
              have conforms := batch.conforms row inBatch
              rwa [equal_fields_types (same batch inRest)] at conforms }
      else fail .invalid "Schema at a later index was different"

def RecordBatch.addColumn (batch : RecordBatch) (field : Field) (column : Column) :
    Outcome RecordBatch :=
  if same : field.type = column.type then
    if column.cells.length = batch.numRows then
      .ok {
        schema := { batch.schema with fields := batch.schema.fields ++ [field] }
        rows := List.zipWith (fun row cell => row ++ [cell]) batch.rows column.cells
        conforms := by
          intro row member
          obtain ⟨index, bound, rfl⟩ := List.mem_iff_getElem.mp member
          rw [List.getElem_zipWith]
          have own := batch.conforms _ (List.getElem_mem
            (show index < batch.rows.length by simp at bound; omega))
          have added := column.conforms _ (List.getElem_mem
            (show index < column.cells.length by simp at bound; omega))
          simp only [Schema.types, List.map_append, List.map_cons, List.map_nil]
          exact List.rel_append own (List.Forall₂.cons (same ▸ added) List.Forall₂.nil) }
    else fail .invalid "Added column's length must match record batch's length"
  else fail .typeError "Field data type did not match column type"

theorem add_column_eq {batch : RecordBatch} {field : Field} {column : Column}
    (same : field.type = column.type) (count : column.cells.length = batch.numRows) :
    ∃ added, batch.addColumn field column = .ok added ∧
      added.schema = { batch.schema with fields := batch.schema.fields ++ [field] } ∧
      added.rows = List.zipWith (fun row cell => row ++ [cell]) batch.rows column.cells := by
  unfold RecordBatch.addColumn
  rw [dif_pos same, if_pos count]
  exact ⟨_, rfl, rfl, rfl⟩

/-- The stable sort of the rows by one column (`SortIndices`, then `Take`). -/
def RecordBatch.sortRows (batch : RecordBatch) (index : Nat) : RecordBatch where
  schema := batch.schema
  rows := batch.rows.insertionSort fun left right =>
    sortsBefore (left.getD index none) (right.getD index none) = true
  conforms := fun row member => batch.conforms row ((List.mem_insertionSort _).mp member)

/-- `RecordBatch::Make` from columns: the cell of a row is read from the column in
the field's position, and is null where there is none of the field's type. -/
def RecordBatch.make (schema : Schema) (numRows : Nat) (columns : List Column) :
    RecordBatch where
  schema := schema
  rows := (List.range numRows).map fun row =>
    schema.fields.zipIdx.map fun (field, index) =>
      let cell := ((columns[index]?).bind fun column => column.cells[row]?).getD none
      if field.type.admits cell then cell else none
  conforms := by
    intro row member
    obtain ⟨position, _, rfl⟩ := List.mem_map.mp member
    have positions : schema.types = schema.fields.zipIdx.map fun entry => entry.1.type := by
      conv_lhs => rw [Schema.types, ← List.zipIdx_map_fst 0 schema.fields, List.map_map]
      rfl
    unfold RowConforms
    rw [positions, List.forall₂_map_left_iff, List.forall₂_map_right_iff, List.forall₂_same]
    rintro ⟨field, index⟩ _
    dsimp only
    split
    · assumption
    · exact DataType.admits_null _

theorem build_cells {type : DataType} {cells : List Scalar}
    (admitted : ∀ cell ∈ cells, type.admits cell = true) :
    (Column.build type cells).cells = cells := by
  refine (List.map_congr_left fun cell member => ?_).trans (List.map_id' cells)
  rw [if_pos (admitted cell member)]

/-- The rows of a batch made of columns that have the types of its fields. -/
theorem make_rows {schema : Schema} (numRows : Nat) {columns : List Column}
    (types : schema.types = columns.map Column.type) :
    (RecordBatch.make schema numRows columns).rows =
      (List.range numRows).map fun row => columns.map fun column => column.cells.getD row none := by
  apply List.map_congr_left
  intro row _
  apply List.ext_getElem?
  intro index
  have typed := congrArg (·[index]?) types
  simp only [Schema.types, List.getElem?_map] at typed
  rw [List.getElem?_map, List.getElem?_map, List.getElem?_zipIdx]
  cases found : columns[index]? with
  | none =>
      rw [found, Option.map_none, Option.map_eq_none_iff] at typed
      rw [typed]
      rfl
  | some column =>
      rw [found, Option.map_some] at typed
      obtain ⟨field, present, isType⟩ := Option.map_eq_some_iff.mp typed
      have admitted : field.type.admits (column.cells.getD row none) = true := by
        rw [isType, List.getD_eq_getElem?_getD]
        cases read : column.cells[row]? with
        | none => exact DataType.admits_null _
        | some cell => exact column.conforms cell (List.mem_of_getElem? read)
      rw [List.getD_eq_getElem?_getD] at admitted
      simp only [present, Option.map_some, Nat.zero_add, found, Option.bind_some, admitted,
        if_true, List.getD_eq_getElem?_getD]

end StreamDataProcessor.Arrow
