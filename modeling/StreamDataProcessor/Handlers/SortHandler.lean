import StreamDataProcessor.Utils.GroupSorting
import StreamDataProcessor.Handlers.ColumnTypes
import StreamDataProcessor.Handlers.Derivative
import StreamDataProcessor.Handlers.Window

/-!
# The sort handler

`SortHandler` of `sort_handler.cpp`: the groups of a batch, concatenated again. The loop that
splits a batch puts the rows of a lesser key first, so the rows come out in the order of the
first column, rows that agree on it in the order of the second, and so on.
-/

namespace StreamDataProcessor.Handlers.Sort

open Foundation Foundation.Grouping Arrow Utils Handlers.Derivative Window

set_option autoImplicit false

def handle (sortByColumns : List String) (recordBatch : RecordBatch) :
    Outcome (List RecordBatch) := do
  let sortedRecordBatches ← groupSortingByColumns sortByColumns recordBatch
  let sortedRecordBatch ← concatenateRecordBatches sortedRecordBatches
  let described := copySchemaMetadata recordBatch sortedRecordBatch
  let typed ← copyColumnTypes recordBatch described
  return [typed]

/-- Whether a row may come before another: of the first column on which they do not agree, its
cell sorts before the other's. -/
def RowsBefore (schema : Schema) : List String → Row → Row → Prop
  | [], _, _ => True
  | columnName :: rest, first, second =>
      (cellsAgree (schema.cell columnName first) (schema.cell columnName second) →
        RowsBefore schema rest first second) ∧
      (¬cellsAgree (schema.cell columnName first) (schema.cell columnName second) →
        sortsBefore (schema.cell columnName first) (schema.cell columnName second) = true)

abbrev rowsOf (batches : List RecordBatch) : List Row := batches.flatMap RecordBatch.rows

section Loop

variable {Key : Type} [LinearOrder Key] {schema : Schema} {columnName : String} {type : DataType}
  {key : Scalar → Key} {rest : List String}

theorem rows_before_of_agree {first second : Row}
    (agree : cellsAgree (schema.cell columnName first) (schema.cell columnName second))
    (before : RowsBefore schema rest first second) :
    RowsBefore schema (columnName :: rest) first second :=
  ⟨fun _ => before, fun differ => absurd agree differ⟩

theorem rows_before_of_differ {first second : Row}
    (differ : ¬cellsAgree (schema.cell columnName first) (schema.cell columnName second))
    (sorts : sortsBefore (schema.cell columnName first) (schema.cell columnName second) = true) :
    RowsBefore schema (columnName :: rest) first second :=
  ⟨fun agree => absurd agree differ, fun _ => sorts⟩

theorem sort_by_key_column {source : RecordBatch} (typed : keyType source.schema columnName = some type)
    (kernel : sortable type = true) :
    ∃ index, sortByKeyColumn columnName source = .ok (source.sortRows index) ∧
      source.schema.cell columnName = fun row => row.getD index none := by
  obtain ⟨column, found, isType, _⟩ := column_of_type typed
  obtain ⟨index, located, _⟩ := Option.bind_eq_some_iff.mp typed
  refine ⟨index, ?_, ?_⟩
  · rw [sortByKeyColumn, found]
    dsimp only
    rw [has_sort_kernel_iff, isType, if_pos kernel, sortByColumn, located]
  · funext row
    rw [Schema.cell, located, Option.map_some, Option.getD_some]

theorem sorted_by_key {source : RecordBatch} {index : Nat} (keys : KeyOf type key)
    (typed : keyType source.schema columnName = some type)
    (own : ∀ row ∈ source.rows, Comparable (source.schema.cell columnName row))
    (cell : source.schema.cell columnName = fun row => row.getD index none) :
    (source.sortRows index).rows.Pairwise fun earlier later =>
      key (source.schema.cell columnName earlier) ≤ key (source.schema.cell columnName later) := by
  have mapped := List.map_insertionSort
    (r := fun left right : Row =>
      sortsBefore (left.getD index none) (right.getD index none) = true)
    (s := fun left right : Key => left ≤ right)
    (fun row => key (source.schema.cell columnName row)) source.rows (by
      intro left inLeft right inRight
      have both := keys.sorts _ _ (key_admitted typed inLeft) (key_admitted typed inRight)
        (own left inLeft) (own right inRight)
      rw [cell] at both ⊢
      exact both)
  have ordered := List.pairwise_insertionSort (r := fun left right : Key => left ≤ right)
    (source.rows.map fun row => key (source.schema.cell columnName row))
  rw [← mapped, List.pairwise_map] at ordered
  exact ordered

theorem sort_loop_ordered {sortRest : RecordBatch → Outcome (List RecordBatch)}
    (typed : keyType schema columnName = some type) (keys : KeyOf type key)
    (orders : ∀ (part : RecordBatch) (own : List RecordBatch), part.schema = schema →
      KeysComparable schema rest part.rows → sortRest part = .ok own →
        rowsOf own ⊆ part.rows ∧ (rowsOf own).Pairwise (RowsBefore schema rest))
    {rounds : Nat} {batch : RecordBatch} {targets : List RecordBatch}
    (same : batch.schema = schema)
    (sorted : batch.rows.Pairwise fun earlier later =>
      key (schema.cell columnName earlier) ≤ key (schema.cell columnName later))
    (comparable : KeysComparable schema (columnName :: rest) batch.rows)
    (returned : sortLoop sortRest columnName rounds batch = .ok targets) :
    rowsOf targets ⊆ batch.rows ∧
      (rowsOf targets).Pairwise (RowsBefore schema (columnName :: rest)) := by
  induction rounds generalizing batch targets with
  | zero => cases returned
  | succ rounds induction =>
      subst same
      have own := (comparable columnName List.mem_cons_self type typed).2
      have others := (List.forall_mem_cons.mp comparable).2
      have admitted := fun row listed => @key_admitted columnName batch type typed row listed
      by_cases empty : batch.rows = []
      · rw [sort_loop_empty typed empty] at returned
        cases returned
      have inHead := List.head_mem empty
      have agrees : ∀ row ∈ batch.rows, ∀ other ∈ batch.rows,
          cellsAgree (batch.schema.cell columnName row) (batch.schema.cell columnName other) ↔
            key (batch.schema.cell columnName row) = key (batch.schema.cell columnName other) := by
        intro row inRow other inOther
        exact agree_iff_keys keys (admitted row inRow) (admitted other inOther) (own row inRow)
          (own other inOther)
      have ofHead : ∀ row ∈ batch.rows,
          scalarEquals (batch.schema.cell columnName row)
              (batch.schema.cell columnName (batch.rows.head empty)) = true ↔
            key (batch.schema.cell columnName row) =
              key (batch.schema.cell columnName (batch.rows.head empty)) := by
        intro row inRow
        exact keys.equals _ _ (admitted row inRow) (admitted _ inHead) (own row inRow)
          (own _ inHead)
      rw [sort_loop_round typed empty] at returned
      obtain ⟨least, first, returned⟩ := Effect.except_bind_ok_cases returned
      obtain ⟨within, ordered⟩ := orders
        (filterRows batch fun row => compareEqual (batch.schema.cell columnName row)
          (batch.schema.cell columnName (batch.rows.head empty))) least rfl
        (keys_comparable_subset others fun _ member => List.mem_of_mem_filter member) first
      have leastKey : ∀ row ∈ rowsOf least, row ∈ batch.rows ∧
          key (batch.schema.cell columnName row) =
            key (batch.schema.cell columnName (batch.rows.head empty)) := by
        intro row member
        obtain ⟨inRow, equal⟩ := List.mem_filter.mp (within member)
        rw [decide_eq_true_eq, compare_equal_iff (own row inRow) (own _ inHead),
          ofHead row inRow] at equal
        exact ⟨inRow, equal⟩
      have leastOrdered : (rowsOf least).Pairwise (RowsBefore batch.schema (columnName :: rest)) := by
        apply List.Pairwise.imp_of_mem _ ordered
        intro earlier later inEarlier inLater before
        have earlierKey := leastKey earlier inEarlier
        have laterKey := leastKey later inLater
        apply rows_before_of_agree _ before
        rw [agrees earlier earlierKey.1 later laterKey.1, earlierKey.2, laterKey.2]
      split at returned
      · cases returned
        exact ⟨fun row member => (leastKey row member).1, leastOrdered⟩
      · obtain ⟨greater, looped, returned⟩ := Effect.except_bind_ok_cases returned
        cases returned
        obtain ⟨inOthers, othersOrdered⟩ := @induction
          (filterRows batch fun row => compareNotEqual (batch.schema.cell columnName row)
            (batch.schema.cell columnName (batch.rows.head empty))) greater rfl
          (sorted.sublist List.filter_sublist)
          (keys_comparable_subset comparable fun _ member => List.mem_of_mem_filter member) looped
        have greaterKey : ∀ row ∈ rowsOf greater, row ∈ batch.rows ∧
            key (batch.schema.cell columnName (batch.rows.head empty)) ≠
              key (batch.schema.cell columnName row) := by
          intro row member
          obtain ⟨inRow, unequal⟩ := List.mem_filter.mp (inOthers member)
          rw [decide_eq_true_eq, compare_not_equal_iff (own row inRow) (own _ inHead),
            ← Bool.not_eq_true, ofHead row inRow] at unequal
          exact ⟨inRow, Ne.symm unequal⟩
        rw [rowsOf, List.flatMap_append]
        constructor
        · intro row member
          rcases List.mem_append.mp member with inLeast | inGreater
          · exact (leastKey row inLeast).1
          · exact (greaterKey row inGreater).1
        · rw [List.pairwise_append]
          refine ⟨leastOrdered, othersOrdered, ?_⟩
          intro earlier inLeast later inGreater
          have earlierKey := leastKey earlier inLeast
          have laterKey := greaterKey later inGreater
          have fromHead := sorted.rel_head_of_rel_head_head laterKey.1 le_rfl
          have sorts := keys.sorts _ _ (admitted earlier earlierKey.1) (admitted later laterKey.1)
            (own earlier earlierKey.1) (own later laterKey.1)
          apply rows_before_of_differ
          · rw [agrees earlier earlierKey.1 later laterKey.1, earlierKey.2]
            exact laterKey.2
          · rw [sorts, earlierKey.2]
            exact fromHead

end Loop

theorem sort_ordered {columnNames : List String} {source : RecordBatch}
    {targets : List RecordBatch}
    (comparable : KeysComparable source.schema columnNames source.rows)
    (returned : sort columnNames source = .ok targets) :
    (rowsOf targets).Pairwise (RowsBefore source.schema columnNames) := by
  induction columnNames generalizing source targets with
  | nil => exact List.pairwise_of_forall fun _ _ => trivial
  | cons columnName rest induction =>
      have others := (List.forall_mem_cons.mp comparable).2
      rw [sort] at returned
      cases typed : keyType source.schema columnName with
      | none =>
          obtain ⟨missing, absent⟩ := no_column typed
          rw [if_pos absent] at returned
          apply List.Pairwise.imp _ (induction others returned)
          intro first second before
          apply rows_before_of_agree _ before
          rw [Schema.cell, Schema.cell, missing]
          exact .inl rfl
      | some type =>
          obtain ⟨kernel, own⟩ := comparable columnName List.mem_cons_self type typed
          obtain ⟨Key, _, key, keys⟩ := sortable_keys kernel
          obtain ⟨index, sorts, cell⟩ := sort_by_key_column typed kernel
          obtain ⟨column, found, _⟩ := column_of_type typed
          rw [if_neg (by rw [found]; exact Option.some_ne_none _), sorts] at returned
          have sorted := sorted_by_key keys typed own cell
          have perm := sort_rows_perm source index
          refine (@sort_loop_ordered Key _ source.schema columnName type key rest (sort rest) typed
            keys ?_ _ (source.sortRows index) targets rfl sorted
            (keys_comparable_subset comparable perm.subset) returned).2
          intro part own same comparable returned
          rw [← same] at comparable ⊢
          refine ⟨?_, induction comparable returned⟩
          intro row member
          obtain ⟨target, listed, inTarget⟩ := List.mem_flatMap.mp member
          exact ((sort_targets returned).2 target listed).2.1 inTarget

section Handler

variable {source : RecordBatch} {targets : List RecordBatch} {columnNames : List String}

theorem sort_untouched (missing : ∀ columnName ∈ columnNames, keyType source.schema columnName = none) :
    sort columnNames source = .ok [source] := by
  induction columnNames with
  | nil => rfl
  | cons columnName rest induction =>
      rw [List.forall_mem_cons] at missing
      rw [sort, if_pos (no_column missing.1).2]
      exact induction missing.2

theorem sort_empty (empty : source.rows = [])
    (returned : sort columnNames source = .ok targets) :
    ∀ columnName ∈ columnNames, keyType source.schema columnName = none := by
  induction columnNames with
  | nil => exact fun _ listed => absurd listed List.not_mem_nil
  | cons columnName rest induction =>
      rw [sort] at returned
      cases typed : keyType source.schema columnName with
      | none =>
          rw [if_pos (no_column typed).2] at returned
          exact List.forall_mem_cons.mpr ⟨typed, induction returned⟩
      | some type =>
          obtain ⟨column, found, isType, _⟩ := column_of_type typed
          rw [if_neg (by rw [found]; exact Option.some_ne_none _)] at returned
          obtain ⟨sorted, sorts, loops⟩ := Effect.except_bind_ok_cases returned
          have kernel : sortable type = true := by
            by_contra other
            rw [sortByKeyColumn, found] at sorts
            dsimp only at sorts
            rw [has_sort_kernel_iff, isType, if_neg other] at sorts
            cases sorts
          obtain ⟨index, sortsBy, _⟩ := sort_by_key_column typed kernel
          rw [sortsBy] at sorts
          cases sorts
          have perm := sort_rows_perm source index
          rw [empty, List.perm_nil] at perm
          rw [@sort_loop_empty (sort rest) columnName (source.sortRows index) type typed perm] at loops
          cases loops

theorem concatenate_same (some : targets ≠ [])
    (schemas : ∀ target ∈ targets, target.schema = source.schema) :
    ∃ joined, concatenateRecordBatches targets = .ok joined ∧ joined.schema = source.schema ∧
      joined.rows = rowsOf targets := by
  cases targets with
  | nil => exact absurd rfl some
  | cons first rest =>
      obtain ⟨own, others⟩ := List.forall_mem_cons.mp schemas
      obtain ⟨joined, returned, isJoined⟩ := @concatenate_joins first rest (by
        intro batch listed
        rw [others batch listed, own]
        exact equal_fields_refl _)
      have schema := isJoined.schema
      rw [List.head?_cons, Option.map_some, Option.some.injEq] at schema
      exact ⟨joined, returned, schema.symm.trans own, isJoined.rows⟩

theorem copy_own_metadata {own : RecordBatch} (same : own.schema = source.schema) :
    copySchemaMetadata source own = own := by
  unfold copySchemaMetadata
  split
  · rfl
  · refine RecordBatch.ext_rows ?_ rfl
    show { own.schema with metadata := source.schema.metadata } = own.schema
    rw [same]

theorem handle_eq (sorted : groupSortingByColumns columnNames source = .ok targets)
    (some : targets ≠ []) :
    ∃ joined, handle columnNames source = .ok [joined] ∧ joined.schema = source.schema ∧
      joined.rows = rowsOf targets := by
  obtain ⟨joined, returned, schema, rows⟩ := concatenate_same some
    fun target listed => ((sort_targets sorted).2 target listed).1
  refine ⟨joined, ?_, schema, rows⟩
  rw [handle, sorted]
  change (concatenateRecordBatches targets >>= _) = _
  rw [returned]
  change (copyColumnTypes source (copySchemaMetadata source joined) >>= _) = _
  rw [copy_own_metadata schema, copy_column_types_eq]
  rfl

/-- What a batch has to be for its columns to be sorted. -/
def Sorts (columnNames : List String) (source : RecordBatch) : Prop :=
  KeysComparable source.schema columnNames source.rows ∧
    (source.rows = [] → ∀ columnName ∈ columnNames, keyType source.schema columnName = none)

/-- The batch is returned with its rows in order just when the columns can be sorted, no cell of
them is null or NaN, and one without rows has none of them. -/
theorem sort_handler_sorts_iff (sortByColumns : List String) (recordBatch : RecordBatch) :
    (∃ sorted, handle sortByColumns recordBatch = .ok [sorted] ∧
        sorted.schema = recordBatch.schema ∧ sorted.rows.Perm recordBatch.rows ∧
        sorted.rows.Pairwise (RowsBefore recordBatch.schema sortByColumns)) ↔
      Sorts sortByColumns recordBatch := by
  constructor
  · rintro ⟨sorted, returned, schema, perm, _⟩
    obtain ⟨targets, splits, concatenates⟩ := Effect.except_bind_ok_cases returned
    have each := sort_targets splits
    cases targets with
    | nil => cases concatenates
    | cons first rest =>
    obtain ⟨joined, handled, _, rows⟩ := handle_eq splits (List.cons_ne_nil _ _)
    rw [handled, Except.ok.injEq, List.cons.injEq] at returned
    obtain ⟨rfl, _⟩ := returned
    refine ⟨?_, fun empty => sort_empty empty splits⟩
    intro columnName listed type typed
    refine ⟨each.1 columnName listed type typed, ?_⟩
    intro row member
    have inSorted := perm.symm.subset member
    rw [rows] at inSorted
    obtain ⟨target, isTarget, own⟩ := List.mem_flatMap.mp inSorted
    exact ((each.2 target isTarget).2.2 columnName listed type typed).2 row own
  · rintro ⟨comparable, missing⟩
    by_cases empty : recordBatch.rows = []
    · obtain ⟨joined, handled, schema, rows⟩ := handle_eq (sort_untouched (missing empty))
        (List.cons_ne_nil _ _)
      have none : joined.rows = [] := by
        rw [rows, rowsOf, List.flatMap_singleton, empty]
      refine ⟨joined, handled, schema, ?_, ?_⟩
      · rw [none, empty]
      · rw [none]
        exact .nil
    · obtain ⟨targets, splits, groups⟩ := sort_groups empty comparable
      have whole : (rowsOf targets).Perm recordBatch.rows := by
        rw [rowsOf, List.flatMap_def]
        exact groups.groups.whole
      have some : targets ≠ [] := by
        rintro rfl
        exact empty (whole.symm.eq_nil)
      obtain ⟨joined, handled, schema, rows⟩ := handle_eq splits some
      exact ⟨joined, handled, schema, rows ▸ whole, rows ▸ sort_ordered comparable splits⟩

def hostsAndLoads : RecordBatch where
  schema := { fields := [{ name := "host", type := .utf8 }, { name := "load", type := .int64 }] }
  rows := [("b", 1), ("a", 3), ("a", 2)].map fun row =>
    [some (.string row.1), some (.integer row.2)]
  conforms := by
    intro row listed
    obtain ⟨own, _, rfl⟩ := List.mem_map.mp listed
    exact .cons rfl (.cons rfl .nil)

example : (handle ["host", "load"] hostsAndLoads).toOption.map rowsOf =
    some ([("a", 2), ("a", 3), ("b", 1)].map fun row =>
      [some (.string row.1), some (.integer row.2)]) := by
  decide +kernel

end Handler

end StreamDataProcessor.Handlers.Sort
