import StreamDataProcessor.Foundation.TwinSearch
import StreamDataProcessor.Handlers.AggregateFunctions

/-!
# The rows of the extreme times

`argMinMax` stops as soon as it has both indices. Until then an equal value moves an index on, so
that the index of one extreme depends on where the other extreme lies.
-/

namespace StreamDataProcessor.Utils

open Foundation Foundation.TwinSearch Arrow Metadata Handlers

set_option autoImplicit false

def isIntegral : DataType → Bool
  | .int8 | .int16 | .int32 | .int64 | .uint8 | .uint16 | .uint32 | .uint64 => true
  | .timestamp _ => true
  | _ => false

/-- A row holds a value that no other value of the column goes beyond. -/
def HoldsExtreme (beyond : Int → Int → Prop) (cells : List Scalar) (index : Nat) : Prop :=
  ∃ value, cells[index]? = some (some (.integer value)) ∧
    ∀ other, some (.integer other) ∈ cells → beyond value other

/-- The smallest index of a row that holds the extreme. -/
structure EarliestExtreme (beyond : Int → Int → Prop) (cells : List Scalar) (index : Nat) :
    Prop where
  holds : HoldsExtreme beyond cells index
  first : ∀ earlier, earlier < index → cells[earlier]? ≠ cells[index]?

def HasTimes (data : RecordBatch) (array : Column) : Prop :=
  ∃ timeColumnName, getTimeColumnNameMetadata data = .ok timeColumnName ∧
    data.getColumnByName timeColumnName = some array

/-- The functions read the rows at the indices, whatever the column they aggregate. -/
def AggregatesRead (array : Column) (first last : Nat) : Prop :=
  ∀ data columnName column, HasTimes data array →
    data.getColumnByName columnName = some column →
    ∃ firstCell lastCell, column.cells[first]? = some firstCell ∧
      column.cells[last]? = some lastCell ∧
      firstAggregateFunction data columnName = .ok firstCell ∧
      lastAggregateFunction data columnName = .ok lastCell

def LocatesEarliest (array : Column) : Prop :=
  ∃ first last : Nat, argMinMax array = .ok ((first : Int), (last : Int)) ∧
    EarliestExtreme (· ≤ ·) array.cells first ∧ EarliestExtreme (· ≥ ·) array.cells last ∧
    AggregatesRead array first last

/-- Between the earliest rows of the two extremes, neither of these is there again. -/
def Unrepeated (array : Column) : Prop :=
  ∀ first last, EarliestExtreme (· ≤ ·) array.cells first →
    EarliestExtreme (· ≥ ·) array.cells last →
    ∀ index, min first last < index → index < max first last →
      array.cells[index]? ≠ array.cells[first]? ∧ array.cells[index]? ≠ array.cells[last]?

theorem mem_integers {cells : List Scalar} {value : Int} :
    value ∈ integers cells ↔ some (.integer value) ∈ cells := by
  rw [integers, List.mem_filterMap]
  constructor
  · intro found
    obtain ⟨cell, member, own⟩ := found
    split at own
    · rw [← Option.some.inj own]
      exact member
    · cases own
  · intro member
    exact ⟨_, member, rfl⟩

theorem integral_cell {type : DataType} {cell : Scalar} (integral : isIntegral type = true)
    (admitted : type.admits cell = true) (present : cell ≠ none) :
    ∃ value, cell = some (.integer value) := by
  cases cell with
  | none => exact absurd rfl present
  | some value =>
      cases value with
      | integer value => exact ⟨value, rfl⟩
      | double value => cases type <;> cases integral <;> cases admitted
      | string value => cases type <;> cases integral <;> cases admitted
      | boolean value => cases type <;> cases integral <;> cases admitted

theorem min_max_integral {array : Column} (integral : isIntegral array.type = true) :
    minMax (viewInt64 array) array.cells = .ok (integerMinMax (integers array.cells)) := by
  rw [viewInt64]
  cases type : array.type <;> rw [type] at integral <;> first | rfl | cases integral

theorem scalar_equals_of_integer (cell : Scalar) (value : Int) :
    scalarEquals cell (some (.integer value)) = decide (cell = some (.integer value)) := by
  cases cell with
  | none => rfl
  | some own => cases own <;> rfl

def argOf : Option Nat → Int
  | none => -1
  | some index => index

theorem arg_of_eq_iff (found : Option Nat) : argOf found = -1 ↔ found = none := by
  cases found with
  | none => simp [argOf]
  | some index => simp only [argOf, reduceCtorEq]

theorem arg_loop_eq_search (least greatest : Scalar) (index : Nat) (found other : Option Nat)
    (cells : List Scalar) :
    argLoop least greatest index (argOf found) (argOf other) cells =
      (argOf (search (scalarEquals · least) (scalarEquals · greatest) index found other cells).1,
        argOf (search (scalarEquals · least) (scalarEquals · greatest) index found other
          cells).2) := by
  induction cells generalizing index found other with
  | nil => rfl
  | cons cell rest induction =>
      have nextArg : ∀ (same : Bool) (held : Option Nat),
          (if same then (index : Int) else argOf held) =
            argOf (if same then some index else held) := by
        intro same held
        cases same <;> rfl
      rw [argLoop, search]
      simp only [arg_of_eq_iff, nextArg]
      split
      · exact induction _ _ _
      · rfl

def holds (value : Int) (cell : Scalar) : Bool := scalarEquals cell (some (.integer value))

theorem passes_iff_cell {value : Int} {index : Nat} (cells : List Scalar) :
    Passes (holds value) cells index ↔ cells[index]? = some (some (.integer value)) := by
  rw [Passes]
  cases cells[index]? with
  | none => simp
  | some cell => rw [Option.any_some, holds, scalar_equals_of_integer, decide_eq_true_iff,
      Option.some.injEq]

theorem passes_within {test : Scalar → Bool} {cells : List Scalar} {index : Nat}
    (passes : Passes test cells index) : index < cells.length := by
  by_contra late
  rw [Passes, List.getElem?_eq_none (Nat.not_lt.mp late)] at passes
  cases passes

theorem exists_earliest_cell {value : Int} {cells : List Scalar}
    (occurs : some (.integer value) ∈ cells) : ∃ index, Earliest (holds value) cells index := by
  obtain ⟨index, bound, own⟩ := List.mem_iff_getElem.mp occurs
  apply exists_earliest
  rw [passes_iff_cell, List.getElem?_eq_getElem bound, own]

theorem earliest_extreme_iff {beyond : Int → Int → Prop} {value : Int} {cells : List Scalar}
    (antisymmetric : ∀ left right, beyond left right → beyond right left → left = right)
    (occurs : some (.integer value) ∈ cells)
    (extreme : ∀ other, some (.integer other) ∈ cells → beyond value other) (index : Nat) :
    EarliestExtreme beyond cells index ↔ Earliest (holds value) cells index := by
  constructor
  · intro earliest
    obtain ⟨own, held, bound⟩ := earliest.holds
    have same : own = value := antisymmetric own value (bound value occurs)
      (extreme own (List.mem_of_getElem? held))
    subst same
    refine ⟨(passes_iff_cell cells).mpr held, ?_⟩
    intro earlier before passed
    apply earliest.first earlier before
    rw [(passes_iff_cell cells).mp passed, held]
  · intro earliest
    have held := (passes_iff_cell cells).mp earliest.passes
    refine ⟨⟨value, held, extreme⟩, ?_⟩
    intro earlier before same
    exact earliest.first earlier before ((passes_iff_cell cells).mpr (same.trans held))

structure Extremes (array : Column) (least greatest : Int) : Prop where
  found : integerMinMax (integers array.cells) = (some (.integer least), some (.integer greatest))
  leastOccurs : some (.integer least) ∈ array.cells
  greatestOccurs : some (.integer greatest) ∈ array.cells
  minimal : ∀ other, some (.integer other) ∈ array.cells → least ≤ other
  maximal : ∀ other, some (.integer other) ∈ array.cells → greatest ≥ other

theorem exists_extremes {array : Column} (integral : isIntegral array.type = true)
    (present : ∃ cell ∈ array.cells, cell ≠ none) :
    ∃ least greatest, Extremes array least greatest := by
  obtain ⟨cell, member, valid⟩ := present
  obtain ⟨value, rfl⟩ := integral_cell integral (array.conforms cell member) valid
  have nonempty : integers array.cells ≠ [] := List.ne_nil_of_mem (mem_integers.mpr member)
  obtain ⟨least, isLeast⟩ := Option.ne_none_iff_exists'.mp
    (fun missing => nonempty (List.min?_eq_none_iff.mp missing))
  obtain ⟨greatest, isGreatest⟩ := Option.ne_none_iff_exists'.mp
    (fun missing => nonempty (List.max?_eq_none_iff.mp missing))
  have minimal := List.min?_eq_some_iff.mp isLeast
  have maximal := List.max?_eq_some_iff.mp isGreatest
  have found : integerMinMax (integers array.cells) =
      (some (.integer least), some (.integer greatest)) := by
    rw [integerMinMax, isLeast, isGreatest]
    rfl
  refine ⟨least, greatest, found, mem_integers.mp minimal.1, mem_integers.mp maximal.1, ?_, ?_⟩
  · intro other occurs
    exact minimal.2 other (mem_integers.mpr occurs)
  · intro other occurs
    exact maximal.2 other (mem_integers.mpr occurs)

theorem arg_of_pair_eq_iff {found other : Option Nat} {first last : Nat} :
    (argOf found, argOf other) = ((first : Int), (last : Int)) ↔
      (found, other) = (some first, some last) := by
  have single : ∀ (held : Option Nat) (index : Nat), argOf held = (index : Int) ↔
      held = some index := by
    intro held index
    cases held with
    | none => simp only [argOf, reduceCtorEq]
    | some own => simp [argOf]
  rw [Prod.mk.injEq, Prod.mk.injEq, single, single]

theorem aggregates_read {array : Column} {first last : Nat}
    (located : argMinMax array = .ok ((first : Int), (last : Int)))
    (firstWithin : first < array.cells.length) (lastWithin : last < array.cells.length) :
    AggregatesRead array first last := by
  intro data columnName column times present
  obtain ⟨timeColumnName, named, found⟩ := times
  have length : column.cells.length = array.cells.length := by
    rw [(get_column_by_name_cells present).1, (get_column_by_name_cells found).1, List.length_map,
      List.length_map]
  have aggregated : ∀ choose : Int × Int → Int,
      aggregateAt choose data columnName =
        getScalarAt column (choose ((first : Int), (last : Int))) := by
    intro choose
    simp only [aggregateAt, named, found, located, aggregatedColumn, present, bind, Except.bind]
  have read : ∀ index : Nat, (bound : index < column.cells.length) →
      getScalarAt column index = .ok column.cells[index] := by
    intro index bound
    rw [getScalarAt, if_neg (by omega), Int.toNat_natCast, Column.getScalar,
      List.getElem?_eq_getElem bound]
  refine ⟨column.cells[first], column.cells[last], List.getElem?_eq_getElem _,
    List.getElem?_eq_getElem _, ?_, ?_⟩
  · exact (aggregated Prod.fst).trans (read first (by omega))
  · exact (aggregated Prod.snd).trans (read last (by omega))

section Extremes

variable {array : Column} {least greatest : Int} {first last : Nat}

theorem arg_min_max_eq (integral : isIntegral array.type = true)
    (extremes : Extremes array least greatest) :
    argMinMax array =
      .ok (argOf (search (holds least) (holds greatest) 0 none none array.cells).1,
        argOf (search (holds least) (holds greatest) 0 none none array.cells).2) := by
  have scanned := arg_loop_eq_search (some (.integer least)) (some (.integer greatest)) 0 none none
    array.cells
  unfold holds
  rw [← scanned, argMinMax, min_max_integral integral, extremes.found]
  rfl

theorem first_extreme_iff (extremes : Extremes array least greatest) (index : Nat) :
    EarliestExtreme (· ≤ ·) array.cells index ↔ Earliest (holds least) array.cells index :=
  earliest_extreme_iff (fun _ _ => Int.le_antisymm) extremes.leastOccurs extremes.minimal index

theorem last_extreme_iff (extremes : Extremes array least greatest) (index : Nat) :
    EarliestExtreme (· ≥ ·) array.cells index ↔ Earliest (holds greatest) array.cells index :=
  earliest_extreme_iff (fun _ _ above below => Int.le_antisymm below above)
    extremes.greatestOccurs extremes.maximal index

/-- A cell that holds both extremes is the only value there is. -/
theorem extremes_apart (ofLeast : Earliest (holds least) array.cells first)
    (ofGreatest : Earliest (holds greatest) array.cells last) {index : Nat}
    (asLeast : Passes (holds least) array.cells index)
    (asGreatest : Passes (holds greatest) array.cells index) : first = last := by
  rw [passes_iff_cell] at asLeast asGreatest
  rw [asLeast] at asGreatest
  cases asGreatest
  exact earliest_unique ofLeast ofGreatest

variable (extremes : Extremes array least greatest)
  (ofLeast : Earliest (holds least) array.cells first)
  (ofGreatest : Earliest (holds greatest) array.cells last)

include extremes ofLeast ofGreatest

theorem reads_extremes (integral : isIntegral array.type = true) :
    ∃ first last : Nat, argMinMax array = .ok ((first : Int), (last : Int)) ∧
      HoldsExtreme (· ≤ ·) array.cells first ∧ HoldsExtreme (· ≥ ·) array.cells last ∧
      AggregatesRead array first last := by
  obtain ⟨leastIndex, greatestIndex, found, latestLeast, latestGreatest⟩ :=
    search_all ofLeast ofGreatest
  have scanned := arg_min_max_eq integral extremes
  rw [found] at scanned
  refine ⟨leastIndex, greatestIndex, scanned,
    ⟨least, (passes_iff_cell _).mp latestLeast.passes, extremes.minimal⟩,
    ⟨greatest, (passes_iff_cell _).mp latestGreatest.passes, extremes.maximal⟩, ?_⟩
  exact aggregates_read scanned (passes_within latestLeast.passes)
    (passes_within latestGreatest.passes)

theorem locates_iff_search (integral : isIntegral array.type = true) :
    LocatesEarliest array ↔
      search (holds least) (holds greatest) 0 none none array.cells = (some first, some last) := by
  have scanned := arg_min_max_eq integral extremes
  constructor
  · intro locates
    obtain ⟨own, other, same, ownEarliest, otherEarliest, _⟩ := locates
    rw [scanned, Except.ok.injEq, arg_of_pair_eq_iff] at same
    rw [earliest_unique ofLeast ((first_extreme_iff extremes own).mp ownEarliest),
      earliest_unique ofGreatest ((last_extreme_iff extremes other).mp otherEarliest)]
    exact same
  · intro found
    rw [found] at scanned
    exact ⟨first, last, scanned, (first_extreme_iff extremes first).mpr ofLeast,
      (last_extreme_iff extremes last).mpr ofGreatest,
      aggregates_read scanned (passes_within ofLeast.passes) (passes_within ofGreatest.passes)⟩

theorem unrepeated_iff_cells :
    Unrepeated array ↔ ∀ index, min first last < index → index < max first last →
      ¬Passes (holds least) array.cells index ∧ ¬Passes (holds greatest) array.cells index := by
  have atFirst := (passes_iff_cell array.cells).mp ofLeast.passes
  have atLast := (passes_iff_cell array.cells).mp ofGreatest.passes
  constructor
  · intro unrepeated index after before
    have here := unrepeated first last ((first_extreme_iff extremes first).mpr ofLeast)
      ((last_extreme_iff extremes last).mpr ofGreatest) index after before
    rw [passes_iff_cell, passes_iff_cell, ← atFirst, ← atLast]
    exact here
  · intro alone own other ownEarliest otherEarliest index after before
    obtain rfl := earliest_unique ofLeast ((first_extreme_iff extremes own).mp ownEarliest)
    obtain rfl := earliest_unique ofGreatest ((last_extreme_iff extremes other).mp otherEarliest)
    have here := alone index after before
    rw [passes_iff_cell, passes_iff_cell] at here
    rw [atFirst, atLast]
    exact here

end Extremes

/-- Whatever the values, the indices are those of rows that hold the extremes, and the functions
read these rows; they are the earliest ones exactly when neither extreme is repeated between the
earliest rows of both. -/
theorem locates_earliest_iff {array : Column} (integral : isIntegral array.type = true)
    (present : ∃ cell ∈ array.cells, cell ≠ none) :
    (∃ first last : Nat, argMinMax array = .ok ((first : Int), (last : Int)) ∧
      HoldsExtreme (· ≤ ·) array.cells first ∧ HoldsExtreme (· ≥ ·) array.cells last ∧
      AggregatesRead array first last) ∧
    (LocatesEarliest array ↔ Unrepeated array) := by
  obtain ⟨least, greatest, extremes⟩ := exists_extremes integral present
  obtain ⟨first, ofLeast⟩ := exists_earliest_cell extremes.leastOccurs
  obtain ⟨last, ofGreatest⟩ := exists_earliest_cell extremes.greatestOccurs
  refine ⟨reads_extremes extremes ofLeast ofGreatest integral, ?_⟩
  rw [locates_iff_search extremes ofLeast ofGreatest integral,
    unrepeated_iff_cells extremes ofLeast ofGreatest, search_earliest_iff ofLeast ofGreatest]
  apply unrepeated_iff ofLeast ofGreatest
  intro index asLeast asGreatest
  exact extremes_apart ofLeast ofGreatest asLeast asGreatest

def timesOf (values : List Int) : Column :=
  Column.build (.timestamp .second) (values.map fun value => some (.integer value))

/-- The second of two equal times is taken for the earliest one, since the greatest time comes
after both. -/
theorem second_least_taken : ¬LocatesEarliest (timesOf [1, 1, 2]) := by
  intro locates
  obtain ⟨first, last, located, earliest, _⟩ := locates
  have indices : argMinMax (timesOf [1, 1, 2]) = .ok (1, 2) := by decide
  rw [indices, Except.ok.injEq, Prod.mk.injEq] at located
  obtain rfl : first = 1 := by omega
  exact earliest.first 0 Nat.one_pos rfl

/-- The least of the times is the second one, and the greatest the third. -/
theorem times_located : LocatesEarliest (timesOf [2, 1, 3]) := by
  have located := (@locates_earliest_iff (timesOf [2, 1, 3]) rfl
    ⟨some (.integer 2), List.mem_cons_self, Option.some_ne_none _⟩).2
  apply located.mpr
  intro first last least greatest index above below
  obtain ⟨value, cell, bound⟩ := least.holds
  obtain ⟨other, otherCell, otherBound⟩ := greatest.holds
  have isLeast := bound 1 (by decide)
  have isGreatest := otherBound 3 (by decide)
  have firstInside := (List.getElem?_eq_some_iff.mp cell).1
  have lastInside := (List.getElem?_eq_some_iff.mp otherCell).1
  have three : (timesOf [2, 1, 3]).cells.length = 3 := rfl
  have cells : ∀ index : Nat, index < 3 → ∀ value : Int,
      (timesOf [2, 1, 3]).cells[index]? = some (some (.integer value)) →
        value = [2, 1, 3].getD index 0 := by
    intro index inside value own
    obtain rfl | rfl | rfl : index = 0 ∨ index = 1 ∨ index = 2 := by omega
    all_goals
      cases own
      rfl
  have values : ∀ index : Nat, index < 3 → ([2, 1, 3] : List Int).getD index 0 ≤ 1 → index = 1 := by
    decide
  have greater : ∀ index : Nat, index < 3 → ([2, 1, 3] : List Int).getD index 0 ≥ 3 → index = 2 := by
    decide
  have second := values first (by omega) (cells first (by omega) value cell ▸ isLeast)
  have third := greater last (by omega) (cells last (by omega) other otherCell ▸ isGreatest)
  omega

end StreamDataProcessor.Utils
