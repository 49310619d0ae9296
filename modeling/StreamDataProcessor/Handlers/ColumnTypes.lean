import StreamDataProcessor.Metadata.Access

/-!
# Copying the column types

`RecordBatchHandler::copyColumnTypes` makes a schema for every field whose type it copies, and
drops it: only the status of `SetField` is looked at, and the batch stays as it was.
-/

namespace StreamDataProcessor.Handlers

open Arrow Metadata

set_option autoImplicit false

/-- `Field::Equals`, with metadata left out. -/
def fieldEquals (left right : Field) : Prop :=
  left.name = right.name ∧ left.type = right.type ∧ left.nullable = right.nullable

instance (left right : Field) : Decidable (fieldEquals left right) :=
  inferInstanceAs (Decidable (_ ∧ _))

/-- `setColumnTypeMetadata` on a field, which always succeeds. -/
def setFieldColumnType (field : Field) (type : ColumnType) : Field :=
  { field with metadata := { field.metadata with columnType := some type } }

/-- `Schema::SetField` at the index that `GetFieldIndex` gives. -/
def setField (schema : Schema) (name : String) (field : Field) : Outcome Schema :=
  match schema.fieldIndex name with
  | none => fail .invalid "Invalid column index to set field."
  | some index => .ok { schema with fields := schema.fields.set index field }

def copyColumnType (target : RecordBatch) (fromField : Field) : Outcome RecordBatch :=
  match target.schema.fieldByName fromField.name with
  | none => .ok target
  | some toField =>
      if fieldEquals toField fromField then do
        let _ ← setField target.schema fromField.name
          (setFieldColumnType toField (getColumnType fromField))
        return target
      else .ok target

def copyColumnTypes (source target : RecordBatch) : Outcome RecordBatch :=
  source.schema.fields.foldlM copyColumnType target

def SameColumn (own other : Field) : Prop := own.name = other.name ∧ own.type = other.type

/-- What the copy is for: a column has the type of the field that equals its own, and all the
rest is as it was. -/
structure TypesCopied (source before after : RecordBatch) : Prop where
  copied : ∀ (index : Nat) (own : Field), before.schema.fields[index]? = some own →
    ∀ field ∈ source.schema.fields, SameColumn own field →
      (after.schema.fields[index]?).map getColumnType = some (getColumnType field)
  kept : ∀ (index : Nat) (own : Field), before.schema.fields[index]? = some own →
    (∀ field ∈ source.schema.fields, ¬SameColumn own field) →
      (after.schema.fields[index]?).map getColumnType = some (getColumnType own)
  fields : after.schema.equalFields before.schema
  metadata : after.schema.metadata = before.schema.metadata
  rows : after.rows = before.rows

/-- The columns that the batches share have one type already. -/
def AlreadyTyped (source target : RecordBatch) : Prop :=
  ∀ own ∈ target.schema.fields, ∀ field ∈ source.schema.fields, SameColumn own field →
    getColumnType own = getColumnType field

theorem set_field_ok {schema : Schema} {name : String} {found : Field}
    (located : schema.fieldByName name = some found) (field : Field) :
    ∃ retyped, setField schema name field = .ok retyped := by
  obtain ⟨index, atIndex, _⟩ := Option.bind_eq_some_iff.mp located
  unfold setField
  rw [atIndex]
  exact ⟨_, rfl⟩

theorem copy_column_type_eq (target : RecordBatch) (fromField : Field) :
    copyColumnType target fromField = .ok target := by
  unfold copyColumnType
  split
  · rfl
  · next toField located =>
    split
    · obtain ⟨retyped, set⟩ := set_field_ok located
        (setFieldColumnType toField (getColumnType fromField))
      rw [set]
      rfl
    · rfl

/-- The copy succeeds on all batches, and changes none. -/
theorem copy_column_types_eq (source target : RecordBatch) : copyColumnTypes source target = .ok target := by
  unfold copyColumnTypes
  induction source.schema.fields with
  | nil => rfl
  | cons field rest induction =>
      rw [List.foldlM_cons, copy_column_type_eq]
      exact induction

/-- The types are copied exactly when there is nothing to copy. -/
theorem types_copied_iff (source target : RecordBatch) :
    (∀ after, copyColumnTypes source target = .ok after → TypesCopied source target after) ↔
      AlreadyTyped source target := by
  constructor
  · intro copies own member field listed same
    have copied := (copies target (copy_column_types_eq source target)).copied
    obtain ⟨index, found⟩ := List.getElem?_of_mem member
    have typed := copied index own found field listed same
    rw [found, Option.map_some, Option.some.injEq] at typed
    exact typed
  · intro typed after returned
    rw [copy_column_types_eq, Except.ok.injEq] at returned
    subst returned
    refine ⟨?_, ?_, equal_fields_refl _, rfl, rfl⟩
    · intro index own found field listed same
      rw [found, Option.map_some, typed own (List.mem_of_getElem? found) field listed same]
    · intro index own found _
      rw [found, Option.map_some]

def typedBatch (columnType : Option ColumnType) : RecordBatch where
  schema := { fields := [{ name := "value", type := .int64, metadata := { columnType } }] }
  rows := []
  conforms := nofun

/-- A column without a type does not get the type of the other batch's column. -/
theorem missing_type_not_copied :
    ∃ after, copyColumnTypes (typedBatch (some .field)) (typedBatch none) = .ok after ∧
      ¬TypesCopied (typedBatch (some .field)) (typedBatch none) after := by
  refine ⟨typedBatch none, rfl, ?_⟩
  intro copies
  have typed := copies.copied 0 _ rfl _ List.mem_cons_self ⟨rfl, rfl⟩
  revert typed
  decide

end StreamDataProcessor.Handlers
