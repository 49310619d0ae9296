import StreamDataProcessor.Utils.ComputeUtils
import StreamDataProcessor.Foundation.Grouping
import Mathlib.Data.List.Pairwise
import Mathlib.Data.String.Basic
import Mathlib.Order.WithBot

/-!
# Splitting a batch into groups

`compute_utils::groupSortingByColumns`. Of each column in turn the rows are sorted, and the rows of
the least key are split off by comparing until the first and the last key are equal.
-/

namespace StreamDataProcessor.Utils

open Foundation Foundation.Binary64 Foundation.Grouping Arrow

set_option autoImplicit false

/-- The types for which `SortIndices` has kernels: numbers and text. -/
def hasSortKernel : DataType → Bool
  | .uint8 | .int8 | .uint16 | .int16 | .uint32 | .int32 | .uint64 | .int64 => true
  | .float | .double => true
  | .utf8 => true
  | _ => false

def sortByKeyColumn (columnName : String) (source : RecordBatch) : Outcome RecordBatch :=
  match source.getColumnByName columnName with
  | some column =>
      if hasSortKernel (viewInt64 column) then sortByColumn columnName source
      else fail .notImplemented "Function array_sort_indices has no kernel matching input types"
  | none => sortByColumn columnName source

def compareEqual : Scalar → Scalar → Scalar
  | some left, some right => some (.boolean (scalarEquals (some left) (some right)))
  | _, _ => none

def compareNotEqual : Scalar → Scalar → Scalar
  | some left, some right => some (.boolean (!scalarEquals (some left) (some right)))
  | _, _ => none

/-- `Filter`, which drops the rows where the mask is null. -/
def filterRows (batch : RecordBatch) (mask : Row → Scalar) : RecordBatch where
  schema := batch.schema
  rows := batch.rows.filter fun row => mask row = some (.boolean true)
  conforms := fun row member => batch.conforms row (List.mem_of_mem_filter member)

/-- The loop of `sort`. A round that leaves the batch as it was is made again, so that a loop that
goes on after as many rounds as there are rows goes on forever. -/
def sortLoop (sortRest : RecordBatch → Outcome (List RecordBatch)) (columnName : String) :
    Nat → RecordBatch → Outcome (List RecordBatch)
  | 0, _ => .error .diverges
  | rounds + 1, sortedBatch =>
      match sortedBatch.getColumnByName columnName with
      | none => .error (.undefined "sorted_keys is null")
      | some sortedKeys => do
          let minVal ← sortedKeys.getScalar 0
          let maxVal ← sortedKeys.getScalar (sortedKeys.cells.length - 1)
          let key := sortedBatch.schema.cell columnName
          let targets ← sortRest (filterRows sortedBatch fun row => compareEqual (key row) minVal)
          if scalarEquals minVal maxVal then return targets
          else
            let others ← sortLoop sortRest columnName rounds
              (filterRows sortedBatch fun row => compareNotEqual (key row) minVal)
            return targets ++ others

def sort : List String → RecordBatch → Outcome (List RecordBatch)
  | [], source => .ok [source]
  | columnName :: rest, source =>
      if source.getColumnByName columnName = none then sort rest source
      else do
        let sortedBatch ← sortByKeyColumn columnName source
        sortLoop (sort rest) columnName (sortedBatch.numRows + 1) sortedBatch

def groupSortingByColumns (columnNames : List String) (recordBatch : RecordBatch) :
    Outcome (List RecordBatch) :=
  sort columnNames recordBatch

section Keys

/-- Cells that agree: equal values, two nulls or two NaN. -/
def cellsAgree (left right : Scalar) : Prop := left = right ∨ scalarEquals left right = true

def Comparable (cell : Scalar) : Prop := cell ≠ none ∧ cell ≠ some (.double .nan)

instance (cell : Scalar) : Decidable (Comparable cell) := inferInstanceAs (Decidable (_ ∧ _))

def sortable : DataType → Bool
  | .timestamp _ => true
  | type => hasSortKernel type

theorem has_sort_kernel_iff (column : Column) :
    hasSortKernel (viewInt64 column) = sortable column.type := by
  unfold viewInt64 sortable
  cases column.type <;> rfl

def doubleKey : Double → WithBot (WithTop ℚ)
  | .infinity true => ⊥
  | .infinity false => ((⊤ : WithTop ℚ) : WithBot (WithTop ℚ))
  | value => ((value.toRat : WithTop ℚ) : WithBot (WithTop ℚ))

def stringValue : Scalar → String
  | some (.string value) => value
  | _ => ""

theorem double_le_iff {left right : Double} (leftNumber : left ≠ .nan) (rightNumber : right ≠ .nan) :
    doubleLe left right = true ↔ doubleKey left ≤ doubleKey right := by
  cases left with
  | nan => exact absurd rfl leftNumber
  | infinity negative =>
      cases right with
      | nan => exact absurd rfl rightNumber
      | infinity other => cases negative <;> cases other <;> simp [doubleLe, doubleKey]
      | finite value => cases negative <;> simp [doubleLe, doubleKey]
      | negativeZero => cases negative <;> simp [doubleLe, doubleKey]
  | finite value =>
      cases right with
      | nan => exact absurd rfl rightNumber
      | infinity other => cases other <;> simp [doubleLe, doubleKey]
      | finite other =>
          simp only [doubleKey, WithBot.coe_le_coe, WithTop.coe_le_coe]
          exact decide_eq_true_iff
      | negativeZero =>
          simp only [doubleKey, WithBot.coe_le_coe, WithTop.coe_le_coe]
          exact decide_eq_true_iff
  | negativeZero =>
      cases right with
      | nan => exact absurd rfl rightNumber
      | infinity other => cases other <;> simp [doubleLe, doubleKey]
      | finite other =>
          simp only [doubleKey, WithBot.coe_le_coe, WithTop.coe_le_coe]
          exact decide_eq_true_iff
      | negativeZero => exact ⟨fun _ => le_rfl, fun _ => rfl⟩

theorem sorts_before_double {left right : Double} (leftNumber : left ≠ .nan)
    (rightNumber : right ≠ .nan) :
    sortsBefore (some (.double left)) (some (.double right)) = doubleLe left right := by
  cases left with
  | nan => exact absurd rfl leftNumber
  | infinity negative =>
      cases right with
      | nan => exact absurd rfl rightNumber
      | infinity other => cases negative <;> cases other <;> rfl
      | finite value => cases negative <;> rfl
      | negativeZero => cases negative <;> rfl
  | finite value =>
      cases right with
      | nan => exact absurd rfl rightNumber
      | infinity other => cases other <;> rfl
      | finite other => rfl
      | negativeZero => rfl
  | negativeZero =>
      cases right with
      | nan => exact absurd rfl rightNumber
      | infinity other => cases other <;> rfl
      | finite other => rfl
      | negativeZero => rfl

/-- The order and the equality of the cells of a column are those of keys. -/
structure KeyOf {Key : Type} [LinearOrder Key] (type : DataType) (key : Scalar → Key) : Prop where
  sorts : ∀ left right, type.admits left = true → type.admits right = true → Comparable left →
    Comparable right → (sortsBefore left right = true ↔ key left ≤ key right)
  equals : ∀ left right, type.admits left = true → type.admits right = true → Comparable left →
    Comparable right → (scalarEquals left right = true ↔ key left = key right)

theorem keys_of_values {Own Key : Type} [LinearOrder Key] {type : DataType} {key : Scalar → Key}
    {wrap : Own → Value} {holds : Own → Prop}
    (values : ∀ cell, type.admits cell = true → Comparable cell →
      ∃ own, holds own ∧ cell = some (wrap own))
    (sorts : ∀ first second, holds first → holds second →
      (sortsBefore (some (wrap first)) (some (wrap second)) = true ↔
        key (some (wrap first)) ≤ key (some (wrap second))))
    (equals : ∀ first second, holds first → holds second →
      (scalarEquals (some (wrap first)) (some (wrap second)) = true ↔
        key (some (wrap first)) = key (some (wrap second)))) : KeyOf type key where
  sorts := by
    intro left right inLeft inRight leftOwn rightOwn
    obtain ⟨first, holdsFirst, rfl⟩ := values left inLeft leftOwn
    obtain ⟨second, holdsSecond, rfl⟩ := values right inRight rightOwn
    exact sorts first second holdsFirst holdsSecond
  equals := by
    intro left right inLeft inRight leftOwn rightOwn
    obtain ⟨first, holdsFirst, rfl⟩ := values left inLeft leftOwn
    obtain ⟨second, holdsSecond, rfl⟩ := values right inRight rightOwn
    exact equals first second holdsFirst holdsSecond

theorem integer_keys {type : DataType}
    (integers : ∀ value, value ≠ none → type.admits value = true →
      ∃ own, value = some (.integer own)) : KeyOf type integerValue := by
  apply @keys_of_values Int Int _ type integerValue Value.integer fun _ => True
  · intro cell admitted comparable
    obtain ⟨own, same⟩ := integers cell comparable.1 admitted
    exact ⟨own, trivial, same⟩
  · intro first second _ _
    exact decide_eq_true_iff
  · intro first second _ _
    rw [scalar_equals_integer, decide_eq_true_iff]
    rfl

theorem string_keys : KeyOf .utf8 stringValue := by
  apply @keys_of_values String String _ .utf8 stringValue Value.string fun _ => True
  · rintro (_ | _ | _ | own | _) admitted comparable
    · exact absurd rfl comparable.1
    · cases admitted
    · cases admitted
    · exact ⟨own, trivial, rfl⟩
    · cases admitted
  · intro first second _ _
    exact decide_eq_true_iff
  · intro first second _ _
    simp [scalarEquals, stringValue]

theorem double_keys {type : DataType}
    (doubles : ∀ value, value ≠ none → type.admits value = true →
      ∃ own, value = some (.double own)) :
    KeyOf type fun cell => doubleKey (doubleValue cell) := by
  apply @keys_of_values Double (WithBot (WithTop ℚ)) _ type _ Value.double fun own => own ≠ .nan
  · intro cell admitted comparable
    obtain ⟨own, rfl⟩ := doubles cell comparable.1 admitted
    refine ⟨own, ?_, rfl⟩
    rintro rfl
    exact comparable.2 rfl
  · intro first second firstNumber secondNumber
    rw [sorts_before_double firstNumber secondNumber]
    exact double_le_iff firstNumber secondNumber
  · intro first second firstNumber secondNumber
    have both : scalarEquals (some (.double first)) (some (.double second)) = true ↔
        doubleLe first second = true ∧ doubleLe second first = true := by
      simp [scalarEquals, firstNumber, secondNumber]
    rw [both, double_le_iff firstNumber secondNumber, double_le_iff secondNumber firstNumber]
    exact le_antisymm_iff.symm

theorem sortable_keys {type : DataType} (isSortable : sortable type = true) :
    ∃ (Key : Type) (_ : LinearOrder Key) (key : Scalar → Key), KeyOf type key := by
  have integers : (∀ value : Scalar, value ≠ none → type.admits value = true →
      ∃ own, value = some (.integer own)) ∨ type = .utf8 ∨
      ∀ value : Scalar, value ≠ none → type.admits value = true →
        ∃ own, value = some (.double own) := by
    cases type with
    | utf8 => exact .inr (.inl rfl)
    | float | double =>
        refine .inr (.inr ?_)
        rintro (_ | _ | own | _ | _) present admitted <;>
          first | exact absurd rfl present | exact ⟨own, rfl⟩ | cases admitted
    | uint8 | int8 | uint16 | int16 | uint32 | int32 | uint64 | int64 | timestamp unit =>
        refine .inl ?_
        rintro (_ | own | _ | _ | _) present admitted <;>
          first | exact absurd rfl present | exact ⟨own, rfl⟩ | cases admitted
    | na | boolean | halfFloat | decimal | duration unit => cases isSortable
  rcases integers with integers | rfl | doubles
  · exact ⟨Int, inferInstance, _, integer_keys integers⟩
  · exact ⟨String, inferInstance, _, string_keys⟩
  · exact ⟨WithBot (WithTop ℚ), inferInstance, _, double_keys doubles⟩

end Keys

section Rounds

variable {sortRest : RecordBatch → Outcome (List RecordBatch)} {columnName : String}
  {batch : RecordBatch} {type : DataType}

/-- The type of the column that has a name, if one alone has it. -/
def keyType (schema : Schema) (columnName : String) : Option DataType :=
  (schema.fieldIndex columnName).bind (schema.types[·]?)

theorem column_of_type (typed : keyType batch.schema columnName = some type) :
    ∃ column, batch.getColumnByName columnName = some column ∧ column.type = type ∧
      column.cells = batch.rows.map (batch.schema.cell columnName) := by
  obtain ⟨index, located, isType⟩ := Option.bind_eq_some_iff.mp typed
  have found := get_column_by_name_eq batch located isType
  exact ⟨_, found, rfl, (get_column_by_name_cells found).1⟩

theorem no_column (untyped : keyType batch.schema columnName = none) :
    batch.schema.fieldIndex columnName = none ∧ batch.getColumnByName columnName = none := by
  cases located : batch.schema.fieldIndex columnName with
  | none => exact ⟨rfl, get_column_by_name_none batch located⟩
  | some index =>
      obtain ⟨type, isType⟩ := field_index_bound located
      rw [keyType, located, Option.bind_some, isType] at untyped
      cases untyped

theorem key_admitted (typed : keyType batch.schema columnName = some type) {row : Row}
    (listed : row ∈ batch.rows) :
    type.admits (batch.schema.cell columnName row) = true := by
  obtain ⟨index, located, isType⟩ := Option.bind_eq_some_iff.mp typed
  rw [Schema.cell, located]
  exact row_conforms_cell (batch.conforms row listed) isType

theorem sort_loop_round (typed : keyType batch.schema columnName = some type)
    (nonempty : batch.rows ≠ []) (rounds : Nat) :
    sortLoop sortRest columnName (rounds + 1) batch = do
      let minVal := batch.schema.cell columnName (batch.rows.head nonempty)
      let maxVal := batch.schema.cell columnName (batch.rows.getLast nonempty)
      let targets ← sortRest (filterRows batch fun row =>
        compareEqual (batch.schema.cell columnName row) minVal)
      if scalarEquals minVal maxVal then return targets
      else
        let others ← sortLoop sortRest columnName rounds (filterRows batch fun row =>
          compareNotEqual (batch.schema.cell columnName row) minVal)
        return targets ++ others := by
  obtain ⟨column, found, _, cells⟩ := column_of_type typed
  have count : column.cells.length = batch.rows.length := by rw [cells, List.length_map]
  have least : column.getScalar 0 =
      .ok (batch.schema.cell columnName (batch.rows.head nonempty)) := by
    rw [Column.getScalar, cells, List.getElem?_map, ← List.head?_eq_getElem?,
      List.head?_eq_some_head nonempty]
    rfl
  have greatest : column.getScalar (column.cells.length - 1) =
      .ok (batch.schema.cell columnName (batch.rows.getLast nonempty)) := by
    rw [count, Column.getScalar, cells, List.getElem?_map, ← List.getLast?_eq_getElem?,
      List.getLast?_eq_some_getLast nonempty]
    rfl
  rw [sortLoop, found]
  dsimp only
  rw [least, greatest]
  rfl

theorem sort_loop_empty (typed : keyType batch.schema columnName = some type)
    (empty : batch.rows = []) (rounds : Nat) :
    sortLoop sortRest columnName (rounds + 1) batch =
      fail .indexError "tried to refer to element 0 but array is only 0 long" := by
  obtain ⟨column, found, _, cells⟩ := column_of_type typed
  rw [empty, List.map_nil] at cells
  rw [sortLoop, found]
  dsimp only
  rw [Column.getScalar, cells]
  rfl

/-- A round that leaves the batch as it was is made again forever. -/
theorem sort_loop_stays (typed : keyType batch.schema columnName = some type)
    (nonempty : batch.rows ≠ [])
    (stays : (filterRows batch fun row => compareNotEqual (batch.schema.cell columnName row)
      (batch.schema.cell columnName (batch.rows.head nonempty))) = batch) (rounds : Nat) :
    sortLoop sortRest columnName (rounds + 1) batch = sortLoop sortRest columnName 1 batch := by
  induction rounds with
  | zero => rfl
  | succ rounds induction =>
      rw [sort_loop_round typed nonempty, sort_loop_round typed nonempty]
      dsimp only
      rw [stays, induction, sort_loop_round typed nonempty]
      dsimp only
      rw [stays]
      cases sortRest (filterRows batch fun row => compareEqual
          (batch.schema.cell columnName row)
          (batch.schema.cell columnName (batch.rows.head nonempty))) with
      | error fault => rfl
      | ok targets =>
          show (if _ then _ else _) = (if _ then _ else _)
          split <;> rfl

/-- Rounds after as many as there are rows change nothing. -/
theorem sort_loop_rounds (typed : keyType batch.schema columnName = some type) {rounds : Nat}
    (enough : batch.rows.length < rounds) :
    sortLoop sortRest columnName rounds batch =
      sortLoop sortRest columnName (batch.rows.length + 1) batch := by
  induction rounds using Nat.strongRecOn generalizing batch with
  | ind rounds induction =>
      obtain ⟨before, rfl⟩ : ∃ before, rounds = before + 1 := ⟨rounds - 1, by omega⟩
      by_cases empty : batch.rows = []
      · rw [sort_loop_empty typed empty, sort_loop_empty typed empty]
      · by_cases stays : (filterRows batch fun row => compareNotEqual
            (batch.schema.cell columnName row)
            (batch.schema.cell columnName (batch.rows.head empty))) = batch
        · rw [sort_loop_stays typed empty stays, sort_loop_stays typed empty stays batch.rows.length]
        · have fewer : (filterRows batch fun row => compareNotEqual
              (batch.schema.cell columnName row)
              (batch.schema.cell columnName (batch.rows.head empty))).rows.length <
                batch.rows.length := by
            apply lt_of_le_of_ne (List.length_filter_le _ _)
            intro same
            apply stays
            refine RecordBatch.ext_rows (show (filterRows batch _).schema = batch.schema from rfl) ?_
            exact List.filter_sublist.eq_of_length same
          have enoughBefore := @induction before (by omega)
            (filterRows batch fun row => compareNotEqual (batch.schema.cell columnName row)
              (batch.schema.cell columnName (batch.rows.head empty))) typed (by omega)
          have enoughRows := @induction batch.rows.length (by omega)
            (filterRows batch fun row => compareNotEqual (batch.schema.cell columnName row)
              (batch.schema.cell columnName (batch.rows.head empty))) typed fewer
          rw [sort_loop_round typed empty, sort_loop_round typed empty]
          dsimp only
          rw [enoughBefore, enoughRows]

theorem sort_loop_targets (typed : keyType batch.schema columnName = some type) {rounds : Nat}
    {targets : List RecordBatch}
    (returned : sortLoop sortRest columnName rounds batch = .ok targets) :
    (∃ part own, part.schema = batch.schema ∧ sortRest part = .ok own) ∧
      ∀ target ∈ targets, ∃ part minVal own, part.schema = batch.schema ∧
        part.rows ⊆ batch.rows ∧ target ∈ own ∧
          sortRest (filterRows part fun row =>
            compareEqual (batch.schema.cell columnName row) minVal) = .ok own := by
  induction rounds generalizing batch targets with
  | zero => cases returned
  | succ rounds induction =>
      by_cases empty : batch.rows = []
      · rw [sort_loop_empty typed empty] at returned
        cases returned
      · rw [sort_loop_round typed empty] at returned
        obtain ⟨own, first, rest⟩ := Effect.except_bind_ok_cases returned
        refine ⟨⟨filterRows batch _, own, rfl, first⟩, ?_⟩
        split at rest
        · cases rest
          intro target listed
          exact ⟨batch, _, targets, rfl, fun _ member => member, listed, first⟩
        · obtain ⟨others, later, all⟩ := Effect.except_bind_ok_cases rest
          cases all
          intro target listed
          rcases List.mem_append.mp listed with inOwn | inOthers
          · exact ⟨batch, _, own, rfl, fun _ member => member, inOwn, first⟩
          · obtain ⟨part, minVal, returned, same, within, member, found⟩ :=
              (@induction (filterRows batch _) typed others later).2 target inOthers
            exact ⟨part, minVal, returned, same,
              fun _ member => List.mem_of_mem_filter (within member), member, found⟩

end Rounds

section Targets

theorem comparable_of_equal {left right : Scalar}
    (equal : compareEqual left right = some (.boolean true)) : Comparable left := by
  cases left with
  | none => cases equal
  | some value =>
      refine ⟨Option.some_ne_none _, ?_⟩
      rintro same
      cases same
      cases right with
      | none => cases equal
      | some other => cases other <;> cases equal

def KeysComparable (schema : Schema) (columnNames : List String) (rows : List Row) : Prop :=
  ∀ columnName ∈ columnNames, ∀ type, keyType schema columnName = some type →
    sortable type = true ∧ ∀ row ∈ rows, Comparable (schema.cell columnName row)

instance (schema : Schema) (columnNames : List String) (rows : List Row) :
    Decidable (KeysComparable schema columnNames rows) :=
  decidable_of_iff (∀ columnName ∈ columnNames, ∀ type ∈ (keyType schema columnName).toList,
      sortable type = true ∧ ∀ row ∈ rows, Comparable (schema.cell columnName row)) (by
    simp only [Option.mem_toList, KeysComparable])

theorem sort_targets {columnNames : List String} {source : RecordBatch}
    {targets : List RecordBatch} (returned : sort columnNames source = .ok targets) :
    (∀ columnName ∈ columnNames, ∀ type, keyType source.schema columnName = some type →
      sortable type = true) ∧
      ∀ target ∈ targets, target.schema = source.schema ∧ target.rows ⊆ source.rows ∧
        KeysComparable source.schema columnNames target.rows := by
  induction columnNames generalizing source targets with
  | nil =>
      cases returned
      refine ⟨fun _ listed => absurd listed List.not_mem_nil, ?_⟩
      rw [List.forall_mem_singleton]
      exact ⟨rfl, fun _ member => member, fun _ listed => absurd listed List.not_mem_nil⟩
  | cons columnName rest induction =>
      rw [sort] at returned
      cases typed : keyType source.schema columnName with
      | none =>
          rw [if_pos (no_column typed).2] at returned
          have later := induction returned
          refine ⟨List.forall_mem_cons.mpr ⟨?_, later.1⟩, ?_⟩
          · intro type same
            rw [typed] at same
            cases same
          · intro target listed
            obtain ⟨schema, within, comparable⟩ := later.2 target listed
            refine ⟨schema, within, List.forall_mem_cons.mpr ⟨?_, comparable⟩⟩
            intro type same
            rw [typed] at same
            cases same
      | some type =>
          obtain ⟨column, found, isType, _⟩ := column_of_type typed
          rw [if_neg (by rw [found]; exact Option.some_ne_none _)] at returned
          obtain ⟨sorted, sorts, loops⟩ := Effect.except_bind_ok_cases returned
          have kernel : sortable type = true := by
            by_contra other
            rw [sortByKeyColumn, found] at sorts
            dsimp only at sorts
            rw [has_sort_kernel_iff, isType, if_neg other] at sorts
            cases sorts
          obtain ⟨index, located, _⟩ := Option.bind_eq_some_iff.mp typed
          have isSorted : sorted = source.sortRows index := by
            rw [sortByKeyColumn, found] at sorts
            dsimp only at sorts
            rw [has_sort_kernel_iff, isType, if_pos kernel, sortByColumn, located] at sorts
            cases sorts
            rfl
          subst isSorted
          obtain ⟨⟨part, own, same, called⟩, each⟩ := @sort_loop_targets (sort rest) columnName
            (source.sortRows index) type typed _ _ loops
          have kernels := (induction called).1
          rw [same] at kernels
          refine ⟨List.forall_mem_cons.mpr ⟨?_, kernels⟩, ?_⟩
          · intro other isOther
            rw [typed] at isOther
            cases isOther
            exact kernel
          · intro target listed
            obtain ⟨part, minVal, own, same, within, member, called⟩ := each target listed
            obtain ⟨schema, inPart, comparable⟩ := (induction called).2 target member
            have partSchema : (filterRows part fun row => compareEqual
              ((source.sortRows index).schema.cell columnName row) minVal).schema =
                source.schema := same
            rw [partSchema] at schema comparable
            refine ⟨schema, ?_, List.forall_mem_cons.mpr ⟨?_, comparable⟩⟩
            · intro row inTarget
              have inRows := within (List.mem_of_mem_filter (inPart inTarget))
              exact (sort_rows_perm source index).subset inRows
            · intro other isOther
              rw [typed] at isOther
              cases isOther
              refine ⟨kernel, fun row inTarget => ?_⟩
              exact comparable_of_equal
                (of_decide_eq_true (List.mem_filter.mp (inPart inTarget)).2)

end Targets

section Groups

def RowsAgree (schema : Schema) (columnNames : List String) (first second : Row) : Prop :=
  ∀ columnName ∈ columnNames,
    cellsAgree (schema.cell columnName first) (schema.cell columnName second)

/-- Batches with the groups of a batch's rows that agree. -/
structure SplitsGroups (schema : Schema) (columnNames : List String) (rows : List Row)
    (targets : List RecordBatch) : Prop where
  schemas : ∀ target ∈ targets, target.schema = schema
  groups : Groups (RowsAgree schema columnNames) rows (targets.map RecordBatch.rows)

theorem keys_comparable_subset {schema : Schema} {columnNames : List String}
    {rows some : List Row} (comparable : KeysComparable schema columnNames rows)
    (within : some ⊆ rows) : KeysComparable schema columnNames some := by
  intro columnName listed type typed
  have both := comparable columnName listed type typed
  exact ⟨both.1, fun row member => both.2 row (within member)⟩

variable {Key : Type} [LinearOrder Key] {schema : Schema} {columnName : String} {type : DataType}
  {key : Scalar → Key} {rest : List String}

theorem agree_iff_keys (keys : KeyOf type key) {left right : Scalar}
    (inLeft : type.admits left = true) (inRight : type.admits right = true)
    (leftOwn : Comparable left) (rightOwn : Comparable right) :
    cellsAgree left right ↔ key left = key right := by
  rw [cellsAgree, keys.equals left right inLeft inRight leftOwn rightOwn]
  constructor
  · rintro (rfl | same)
    · rfl
    · exact same
  · exact Or.inr

theorem compare_equal_iff {left right : Scalar} (leftOwn : Comparable left)
    (rightOwn : Comparable right) :
    compareEqual left right = some (.boolean true) ↔ scalarEquals left right = true := by
  obtain ⟨first, rfl⟩ := Option.ne_none_iff_exists'.mp leftOwn.1
  obtain ⟨second, rfl⟩ := Option.ne_none_iff_exists'.mp rightOwn.1
  rw [compareEqual, Option.some.injEq, Value.boolean.injEq]

theorem compare_not_equal_iff {left right : Scalar} (leftOwn : Comparable left)
    (rightOwn : Comparable right) :
    compareNotEqual left right = some (.boolean true) ↔ scalarEquals left right = false := by
  obtain ⟨first, rfl⟩ := Option.ne_none_iff_exists'.mp leftOwn.1
  obtain ⟨second, rfl⟩ := Option.ne_none_iff_exists'.mp rightOwn.1
  rw [compareNotEqual, Option.some.injEq, Value.boolean.injEq, Bool.not_eq_true']

theorem groups_of_key {rows : List Row} {targets : List (List Row)}
    (groups : Groups (RowsAgree schema rest) rows targets)
    (all : ∀ first ∈ rows, ∀ second ∈ rows,
      cellsAgree (schema.cell columnName first) (schema.cell columnName second)) :
    Groups (RowsAgree schema (columnName :: rest)) rows targets := by
  apply groups_congr groups
  intro first inFirst second inSecond
  rw [RowsAgree, RowsAgree, List.forall_mem_cons]
  exact ⟨fun agree => ⟨all first inFirst second inSecond, agree⟩, And.right⟩

/-- Where the keys can be compared the loop ends with the groups. -/
theorem sort_loop_groups {sortRest : RecordBatch → Outcome (List RecordBatch)}
    (typed : keyType schema columnName = some type) (keys : KeyOf type key)
    (splits : ∀ part : RecordBatch, part.schema = schema → part.rows ≠ [] →
      KeysComparable schema rest part.rows →
        ∃ targets, sortRest part = .ok targets ∧ SplitsGroups schema rest part.rows targets)
    {rounds : Nat} {batch : RecordBatch} (same : batch.schema = schema)
    (nonempty : batch.rows ≠ []) (enough : batch.rows.length < rounds)
    (sorted : batch.rows.Pairwise fun earlier later =>
      key (schema.cell columnName earlier) ≤ key (schema.cell columnName later))
    (comparable : KeysComparable schema (columnName :: rest) batch.rows) :
    ∃ targets, sortLoop sortRest columnName rounds batch = .ok targets ∧
      SplitsGroups schema (columnName :: rest) batch.rows targets := by
  induction rounds generalizing batch with
  | zero => omega
  | succ rounds induction =>
      subst same
      have own := (comparable columnName List.mem_cons_self type typed).2
      have others := (List.forall_mem_cons.mp comparable).2
      have admitted := fun row listed => @key_admitted columnName batch type typed row listed
      have inHead := List.head_mem nonempty
      have inLast := List.getLast_mem nonempty
      have equals : ∀ row ∈ batch.rows, ∀ other ∈ batch.rows,
          scalarEquals (batch.schema.cell columnName row)
              (batch.schema.cell columnName other) = true ↔
            key (batch.schema.cell columnName row) = key (batch.schema.cell columnName other) := by
        intro row inRow other inOther
        exact keys.equals _ _ (admitted row inRow) (admitted other inOther) (own row inRow)
          (own other inOther)
      have agrees : ∀ row ∈ batch.rows, ∀ other ∈ batch.rows,
          cellsAgree (batch.schema.cell columnName row)
              (batch.schema.cell columnName other) ↔
            key (batch.schema.cell columnName row) = key (batch.schema.cell columnName other) := by
        intro row inRow other inOther
        exact agree_iff_keys keys (admitted row inRow) (admitted other inOther) (own row inRow)
          (own other inOther)
      have equalRows : (filterRows batch fun row => compareEqual
          (batch.schema.cell columnName row)
          (batch.schema.cell columnName (batch.rows.head nonempty))).rows =
            batch.rows.filter fun row => key (batch.schema.cell columnName row) =
              key (batch.schema.cell columnName (batch.rows.head nonempty)) := by
        apply List.filter_congr
        intro row listed
        rw [decide_eq_decide, compare_equal_iff (own row listed) (own _ inHead),
          equals row listed _ inHead]
      have otherRows : (filterRows batch fun row => compareNotEqual
          (batch.schema.cell columnName row)
          (batch.schema.cell columnName (batch.rows.head nonempty))).rows =
            batch.rows.filter fun row => !decide (key (batch.schema.cell columnName row) =
              key (batch.schema.cell columnName (batch.rows.head nonempty))) := by
        apply List.filter_congr
        intro row listed
        rw [← decide_not, decide_eq_decide,
          compare_not_equal_iff (own row listed) (own _ inHead), ← Bool.not_eq_true,
          equals row listed _ inHead]
      have headKept : batch.rows.head nonempty ∈ batch.rows.filter fun row =>
          key (batch.schema.cell columnName row) =
            key (batch.schema.cell columnName (batch.rows.head nonempty)) :=
        List.mem_filter.mpr ⟨inHead, decide_eq_true rfl⟩
      obtain ⟨targets, first, split⟩ := splits (filterRows batch fun row => compareEqual
          (batch.schema.cell columnName row)
          (batch.schema.cell columnName (batch.rows.head nonempty))) rfl
        (by rw [equalRows]; exact List.ne_nil_of_mem headKept)
        (keys_comparable_subset others fun _ member => List.mem_of_mem_filter member)
      rw [equalRows] at split
      have ofKey : Groups (RowsAgree batch.schema (columnName :: rest)) _ _ :=
        groups_of_key split.groups fun row inRow other inOther => by
          have rowKey := List.mem_filter.mp inRow
          have otherKey := List.mem_filter.mp inOther
          rw [agrees row rowKey.1 other otherKey.1, of_decide_eq_true rowKey.2,
            of_decide_eq_true otherKey.2]
      rw [sort_loop_round typed nonempty]
      dsimp only
      rw [first]
      by_cases last : scalarEquals (batch.schema.cell columnName (batch.rows.head nonempty))
          (batch.schema.cell columnName (batch.rows.getLast nonempty)) = true
      · have whole : (batch.rows.filter fun row => key (batch.schema.cell columnName row) =
            key (batch.schema.cell columnName (batch.rows.head nonempty))) = batch.rows := by
          rw [List.filter_eq_self]
          intro row listed
          have fromHead := sorted.rel_head_of_rel_head_head listed le_rfl
          have toLast := sorted.rel_getLast_of_rel_getLast_getLast listed le_rfl
          rw [← (equals _ inHead _ inLast).mp last] at toLast
          exact decide_eq_true (le_antisymm toLast fromHead)
        rw [whole] at ofKey
        refine ⟨targets, ?_, split.schemas, ofKey⟩
        show (if _ then _ else _) = _
        rw [if_pos last]
        rfl
      · have lastKept : batch.rows.getLast nonempty ∈ batch.rows.filter fun row =>
            !decide (key (batch.schema.cell columnName row) =
              key (batch.schema.cell columnName (batch.rows.head nonempty))) := by
          rw [equals _ inHead _ inLast] at last
          refine List.mem_filter.mpr ⟨inLast, ?_⟩
          rw [decide_eq_false (Ne.symm last)]
          rfl
        have fewer : (batch.rows.filter fun row =>
            !decide (key (batch.schema.cell columnName row) =
              key (batch.schema.cell columnName (batch.rows.head nonempty)))).length <
                batch.rows.length := by
          apply List.length_filter_lt_length_iff_exists.mpr
          exact ⟨_, inHead, by simp⟩
        obtain ⟨later, looped, splitLater⟩ := @induction
          (filterRows batch fun row => compareNotEqual (batch.schema.cell columnName row)
            (batch.schema.cell columnName (batch.rows.head nonempty))) rfl
          (by rw [otherRows]; exact List.ne_nil_of_mem lastKept) (by rw [otherRows]; omega)
          (sorted.sublist List.filter_sublist)
          (keys_comparable_subset comparable fun _ member => List.mem_of_mem_filter member)
        rw [otherRows] at splitLater
        refine ⟨targets ++ later, ?_, List.forall_mem_append.mpr ⟨split.schemas, splitLater.schemas⟩,
          ?_⟩
        · show (if _ then _ else _) = _
          rw [if_neg last, looped]
          rfl
        · rw [List.map_append]
          apply groups_append ofKey splitLater.groups
          intro row inRow isKept other inOther isDropped agree
          have sameKey := (agrees row inRow other inOther).mp (agree columnName List.mem_cons_self)
          rw [of_decide_eq_true isKept] at sameKey
          exact of_decide_eq_false isDropped sameKey.symm

theorem sort_groups {columnNames : List String} {source : RecordBatch}
    (nonempty : source.rows ≠ [])
    (comparable : KeysComparable source.schema columnNames source.rows) :
    ∃ targets, sort columnNames source = .ok targets ∧
      SplitsGroups source.schema columnNames source.rows targets := by
  induction columnNames generalizing source with
  | nil =>
      refine ⟨[source], rfl, List.forall_mem_singleton.mpr rfl, groups_one nonempty ?_⟩
      exact fun _ _ _ _ _ listed => absurd listed List.not_mem_nil
  | cons columnName rest induction =>
      have others := (List.forall_mem_cons.mp comparable).2
      rw [sort]
      cases typed : keyType source.schema columnName with
      | none =>
          obtain ⟨missing, absent⟩ := no_column typed
          rw [if_pos absent]
          obtain ⟨targets, returned, split⟩ := induction nonempty others
          refine ⟨targets, returned, split.schemas, groups_of_key split.groups ?_⟩
          intro first _ second _
          simp only [Schema.cell, missing]
          exact .inl rfl
      | some type =>
          obtain ⟨column, found, isType, _⟩ := column_of_type typed
          obtain ⟨index, located, _⟩ := Option.bind_eq_some_iff.mp typed
          obtain ⟨kernel, own⟩ := comparable columnName List.mem_cons_self type typed
          obtain ⟨Key, _, key, keys⟩ := sortable_keys kernel
          rw [if_neg (by rw [found]; exact Option.some_ne_none _)]
          have sorts : sortByKeyColumn columnName source = .ok (source.sortRows index) := by
            rw [sortByKeyColumn, found]
            dsimp only
            rw [has_sort_kernel_iff, isType, if_pos kernel, sortByColumn, located]
          have cell : source.schema.cell columnName = fun row => row.getD index none := by
            funext row
            rw [Schema.cell, located, Option.map_some, Option.getD_some]
          have sorted : (source.sortRows index).rows.Pairwise fun earlier later =>
              key (source.schema.cell columnName earlier) ≤
                key (source.schema.cell columnName later) := by
            have mapped := List.map_insertionSort
              (r := fun left right : Row =>
                sortsBefore (left.getD index none) (right.getD index none) = true)
              (s := fun left right : Key => left ≤ right)
              (fun row => key (source.schema.cell columnName row)) source.rows (by
                intro left inLeft right inRight
                have both := keys.sorts _ _ (key_admitted typed inLeft) (key_admitted typed inRight)
                  (own left inLeft) (own right inRight)
                rw [cell] at both ⊢
                exact both)
            have ordered := List.pairwise_insertionSort (r := fun left right : Key => left ≤ right)
              (source.rows.map fun row => key (source.schema.cell columnName row))
            rw [← mapped, List.pairwise_map] at ordered
            exact ordered
          have perm := sort_rows_perm source index
          obtain ⟨targets, looped, split⟩ := @sort_loop_groups Key _ source.schema columnName type
            key rest (sort rest) typed keys
            (fun part same nonempty comparable => by
              rw [← same] at comparable ⊢
              exact induction nonempty comparable)
            ((source.sortRows index).numRows + 1) (source.sortRows index) rfl
            (sort_rows_ne_nil index nonempty) (Nat.lt_succ_self _) sorted
            (keys_comparable_subset comparable perm.subset)
          refine ⟨targets, ?_, split.schemas, groups_perm split.groups perm⟩
          rw [sorts]
          exact looped

end Groups

/-- A batch is split into its groups just when the columns of the keys can be sorted, and no key
is null or NaN. -/
theorem group_sorting_iff (columnNames : List String) (recordBatch : RecordBatch)
    (nonempty : recordBatch.rows ≠ []) :
    (∃ targets, groupSortingByColumns columnNames recordBatch = .ok targets ∧
        SplitsGroups recordBatch.schema columnNames recordBatch.rows targets) ↔
      KeysComparable recordBatch.schema columnNames recordBatch.rows := by
  constructor
  · rintro ⟨targets, returned, split⟩ columnName listed type typed
    obtain ⟨kernels, each⟩ := sort_targets returned
    refine ⟨kernels columnName listed type typed, fun row member => ?_⟩
    have inTargets := split.groups.whole.symm.subset member
    obtain ⟨rows, inRows, own⟩ := List.mem_flatten.mp inTargets
    obtain ⟨target, isTarget, rfl⟩ := List.mem_map.mp inRows
    exact ((each target isTarget).2.2 columnName listed type typed).2 row own
  · exact sort_groups nonempty

def keyBatch (cells : List Double) : RecordBatch where
  schema := { fields := [{ name := "key", type := .double }] }
  rows := cells.map fun value => [some (.double value)]
  conforms := by
    intro row listed
    obtain ⟨value, _, rfl⟩ := List.mem_map.mp listed
    exact .cons rfl .nil

theorem two_keys_split :
    ∃ targets, groupSortingByColumns ["key"] (keyBatch [.finite 2, .negativeZero, .finite 0]) =
        .ok targets ∧
      SplitsGroups (keyBatch [.finite 2, .negativeZero, .finite 0]).schema ["key"]
        (keyBatch [.finite 2, .negativeZero, .finite 0]).rows targets := by
  apply (group_sorting_iff ["key"] _ (by decide)).mpr
  decide +kernel

/-- A batch with NaN for a key is split forever. -/
theorem nan_key_never_splits :
    ¬∃ targets, groupSortingByColumns ["key"] (keyBatch [.finite 1, .nan]) = .ok targets ∧
      SplitsGroups (keyBatch [.finite 1, .nan]).schema ["key"]
        (keyBatch [.finite 1, .nan]).rows targets := by
  rintro ⟨targets, returned, _⟩
  have fails : Except.toBool
      (groupSortingByColumns ["key"] (keyBatch [.finite 1, .nan])) = false := by
    decide +kernel
  rw [returned] at fails
  cases fails

end StreamDataProcessor.Utils
