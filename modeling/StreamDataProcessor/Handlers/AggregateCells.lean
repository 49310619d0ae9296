import StreamDataProcessor.Handlers.AggregateValues

/-!
# The cells of an aggregated column

A scalar is appended through a cast to the type of the builder, and a null one as the default
value of the type. The cell that a batch adds is the value of the function just when the types
are the same and the value is not null, or is the default one by chance.
-/

namespace StreamDataProcessor.Handlers.Aggregate

open Foundation Foundation.Effect Foundation.Binary64 Arrow Metadata Utils

set_option autoImplicit false

/-- What a null is appended as. -/
def defaultValue : DataType → Option Value
  | .int64 => some (.integer 0)
  | .double => some (.double (.finite 0))
  | .boolean => some (.boolean false)
  | .timestamp _ => some (.integer 0)
  | _ => none

def appendTo (type scalarType : DataType) (value : Scalar) : Outcome Scalar :=
  match type with
  | .timestamp unit => appendToTimestampBuilder unit scalarType value
  | _ => appendToBuilder type scalarType value

section Append

variable {type scalarType : DataType}

theorem aggregate_cell_eq (aggregateFunction : AggregateFunctionEnumType) (columnName : String)
    (type : DataType) (batch : RecordBatch) :
    aggregateCell aggregateFunction columnName type batch = (do
      let aggregatedValue ← aggregateFunction.aggregate batch columnName
      let column ← aggregatedColumn batch columnName
      appendTo type (aggregateFunction.resultType column.type) aggregatedValue) := rfl

theorem append_some {value : Value} (built : buildable type = true)
    (admitted : type.admits (some value) = true) : appendTo type type (some value) =
      .ok (some value) := by
  cases type with
  | timestamp unit =>
      cases value with
      | integer own =>
          have same := convert_timestamp_same unit own
          exact congrArg (fun time => Except.ok (some (Value.integer time))) same
      | double own => cases admitted
      | string own => cases admitted
      | boolean own => cases admitted
  | int64 => cases value <;> first | rfl | cases admitted
  | double => cases value <;> first | rfl | cases admitted
  | utf8 => rfl
  | boolean => cases value <;> first | rfl | cases admitted
  | _ => cases built

theorem append_none {value : Value} (isDefault : defaultValue type = some value) :
    appendTo type type none = .ok (some value) := by
  cases type <;> cases isDefault <;> rfl

theorem append_none_ok {cell : Scalar} (built : buildable type = true)
    (returned : appendTo type type none = .ok cell) :
    ∃ value, defaultValue type = some value ∧ cell = some value := by
  cases type with
  | int64 | double | boolean | timestamp unit =>
      cases returned
      exact ⟨_, rfl, rfl⟩
  | utf8 => cases returned
  | _ => cases built

theorem append_present {value cell : Scalar} (returned : appendTo type scalarType value = .ok cell) :
    ∃ own, cell = some own := by
  unfold appendTo at returned
  split at returned
  · obtain ⟨time, _, returned⟩ := except_bind_ok_cases returned
    cases returned
    exact ⟨_, rfl⟩
  · unfold appendToBuilder at returned
    split at returned
    · cases returned
    · split at returned <;> cases returned <;> exact ⟨_, rfl⟩

theorem append_type {value cell : Scalar} (untimed : isTimestampType type = false)
    (returned : appendTo type scalarType value = .ok cell) : scalarType = type := by
  unfold appendTo at returned
  split at returned
  · cases untimed
  · unfold appendToBuilder at returned
    split at returned
    · cases returned
    · next same => exact not_not.mp same

theorem append_nan {value : Scalar}
    (returned : appendTo type scalarType value = .ok (some (.double .nan))) :
    value = some (.double .nan) := by
  unfold appendTo at returned
  split at returned
  · obtain ⟨time, _, returned⟩ := except_bind_ok_cases returned
    cases returned
  · unfold appendToBuilder at returned
    split at returned
    · cases returned
    · split at returned
      · cases returned
      · next isDouble =>
        have isNan : doubleValue value = .nan :=
          Value.double.inj (Option.some.inj (Except.ok.inj returned))
        unfold doubleValue at isNan
        split at isNan
        · rw [isNan]
        · cases isNan
      · exact Except.ok.inj returned
      · cases returned
      · cases returned
      · cases returned

theorem append_admitted {value cell : Scalar}
    (admitted : scalarType.admits value = true)
    (returned : appendTo type scalarType value = .ok cell) : type.admits cell = true := by
  cases type with
  | timestamp unit =>
      obtain ⟨time, _, returned⟩ := except_bind_ok_cases returned
      cases returned
      rfl
  | _ =>
      have same := append_type rfl returned
      rw [same] at returned admitted
      simp only [appendTo, appendToBuilder, ne_eq, not_true_eq_false, if_false] at returned
      cases value with
      | none => cases returned <;> rfl
      | some own => cases returned <;> first | rfl | exact admitted

end Append

/-- The cell at the row that `argMinMax` has is not null, or the default value is the cell at
another row of extreme time. -/
def SettlesAt (choose : Int × Int → Int) (beyond : Int → Int → Prop) (type : DataType)
    (batch : RecordBatch) (column : Column) : Prop :=
  column.type = type ∧ ∃ times indices, HasTimes batch times ∧ isIntegral times.type = true ∧
    (∃ cell ∈ times.cells, cell ≠ none) ∧ argMinMax times = .ok indices ∧
    ((∃ value, column.cells[(choose indices).toNat]? = some (some value)) ∨
      ∃ value, defaultValue type = some value ∧
        ∃ row, AtExtreme beyond batch row ∧ column.cells[row]? = some (some value))

/-- The column is of the type, and has a value other than NaN. -/
def SettlesExtreme (type : DataType) (column : Column) : Prop :=
  column.type = type ∧ hasKernel type = true ∧
    ∃ value, some value ∈ column.cells ∧ value ≠ .double .nan

/-- The result is a double, and the column has a value. -/
def SettlesMean (type : DataType) (column : Column) : Prop :=
  type = .double ∧ hasKernel column.type = true ∧ ∃ value, some value ∈ column.cells

/-- When the cell that a batch adds to a column of a type is the value of the function. -/
def Settles (aggregateFunction : AggregateFunctionEnumType) (type : DataType)
    (batch : RecordBatch) (column : Column) : Prop :=
  match aggregateFunction with
  | .first => SettlesAt Prod.fst (· ≤ ·) type batch column
  | .last => SettlesAt Prod.snd (· ≥ ·) type batch column
  | .max => SettlesExtreme type column
  | .min => SettlesExtreme type column
  | .mean => SettlesMean type column

section Cells

variable {batch : RecordBatch} {columnName : String} {column : Column} {type : DataType}

theorem get_scalar_at_ok {array : Column} {index : Int} {value : Scalar}
    (returned : getScalarAt array index = .ok value) :
    0 ≤ index ∧ array.cells[index.toNat]? = some value := by
  unfold getScalarAt at returned
  split at returned
  · cases returned
  · next within =>
    refine ⟨Int.not_lt.mp within, ?_⟩
    unfold Column.getScalar at returned
    split at returned
    · next cell found => rw [found, Except.ok.inj returned]
    · cases returned

theorem aggregate_at_returns_iff {choose : Int × Int → Int} {value : Scalar} :
    aggregateAt choose batch columnName = .ok value ↔
      ∃ times indices column, HasTimes batch times ∧ argMinMax times = .ok indices ∧
        batch.getColumnByName columnName = some column ∧ 0 ≤ choose indices ∧
        column.cells[(choose indices).toNat]? = some value := by
  constructor
  · intro returned
    obtain ⟨timeColumnName, named, returned⟩ := except_bind_ok_cases returned
    split at returned
    · cases returned
    · next times located =>
      obtain ⟨indices, searched, returned⟩ := except_bind_ok_cases returned
      obtain ⟨own, isOwn, returned⟩ := except_bind_ok_cases returned
      exact ⟨times, indices, own, ⟨timeColumnName, named, located⟩, searched,
        aggregated_column_ok isOwn, get_scalar_at_ok returned⟩
  · rintro ⟨times, indices, own, ⟨timeColumnName, named, located⟩, searched, isOwn, nonneg, read⟩
    simp only [aggregateAt, named, located, searched, aggregatedColumn, isOwn, bind, Except.bind]
    rw [getScalarAt, if_neg (Int.not_lt.mpr nonneg), Column.getScalar, read]

theorem has_times_unique {first second : Column} (left : HasTimes batch first)
    (right : HasTimes batch second) : first = second := by
  obtain ⟨name, named, located⟩ := left
  obtain ⟨other, namedToo, locatedToo⟩ := right
  rw [named, Except.ok.injEq] at namedToo
  rw [← namedToo, located, Option.some.injEq] at locatedToo
  exact locatedToo

theorem integral_of_searched {times : Column} {indices : Int × Int} {value : Int}
    (searched : argMinMax times = .ok indices) (occurs : some (.integer value) ∈ times.cells) :
    isIntegral times.type = true := by
  have admitted := times.conforms _ occurs
  obtain ⟨extremes, ranged, _⟩ := except_bind_ok_cases searched
  cases type : times.type <;> rw [type] at admitted <;> first
    | rfl
    | exact absurd admitted Bool.false_ne_true
    | (simp only [viewInt64, type] at ranged; cases ranged)

theorem column_length_times {times : Column} (timed : HasTimes batch times)
    (found : batch.getColumnByName columnName = some column) :
    column.cells.length = times.cells.length := by
  obtain ⟨name, _, located⟩ := timed
  rw [column_length found, column_length located]

/-- What `argMinMax` has is a row of extreme time, for either of the two. -/
theorem searched_extreme {times : Column} {indices : Int × Int} (timed : HasTimes batch times)
    (integral : isIntegral times.type = true) (present : ∃ cell ∈ times.cells, cell ≠ none)
    (searched : argMinMax times = .ok indices) :
    (0 ≤ indices.1 ∧ AtExtreme (· ≤ ·) batch indices.1.toNat ∧
      indices.1.toNat < times.cells.length) ∧
    (0 ≤ indices.2 ∧ AtExtreme (· ≥ ·) batch indices.2.toNat ∧
      indices.2.toNat < times.cells.length) := by
  obtain ⟨⟨first, last, located, holdsFirst, holdsLast, _⟩, _⟩ :=
    locates_earliest_iff integral present
  obtain rfl := Except.ok.inj (located.symm.trans searched)
  have within : ∀ {beyond : Int → Int → Prop} {row : Nat},
      HoldsExtreme beyond times.cells row → row < times.cells.length := by
    intro beyond row holds
    obtain ⟨value, read, _⟩ := holds
    exact (List.getElem?_eq_some_iff.mp read).1
  exact ⟨⟨Int.natCast_nonneg _, ⟨times, timed, holdsFirst⟩, within holdsFirst⟩,
    ⟨Int.natCast_nonneg _, ⟨times, timed, holdsLast⟩, within holdsLast⟩⟩

theorem settles_at_iff {choose : Int × Int → Int} {beyond : Int → Int → Prop}
    (found : batch.getColumnByName columnName = some column) (built : buildable type = true)
    (extreme : ∀ times indices, HasTimes batch times → isIntegral times.type = true →
      (∃ cell ∈ times.cells, cell ≠ none) → argMinMax times = .ok indices →
      0 ≤ choose indices ∧ AtExtreme beyond batch (choose indices).toNat ∧
        (choose indices).toNat < times.cells.length) :
    (∃ cell, (aggregateAt choose batch columnName >>= fun value =>
        aggregatedColumn batch columnName >>= fun column => appendTo type column.type value) =
          .ok cell ∧ ReadsAt beyond batch column type cell) ↔
      SettlesAt choose beyond type batch column := by
  have isColumn : aggregatedColumn batch columnName = .ok column := by
    rw [aggregatedColumn, found]
  constructor
  · rintro ⟨cell, returned, reads⟩
    obtain ⟨value, aggregated, returned⟩ := except_bind_ok_cases returned
    obtain ⟨own, isOwn, appended⟩ := except_bind_ok_cases returned
    obtain rfl := Except.ok.inj (isColumn.symm.trans isOwn)
    obtain ⟨times, indices, other, timed, searched, isOther, _, read⟩ :=
      aggregate_at_returns_iff.mp aggregated
    obtain rfl := Option.some.inj (found.symm.trans isOther)
    obtain ⟨result, rfl⟩ := append_present appended
    rcases reads with ⟨row, atRow, cellAtRow, typed⟩ | ⟨_, missing⟩
    · have same := typed (Option.some_ne_none _)
      obtain ⟨others, otherTimed, time, held, beyondAll⟩ := atRow
      obtain rfl := has_times_unique timed otherTimed
      have occurs := List.mem_of_getElem? held
      refine ⟨same.symm, times, indices, timed, integral_of_searched searched occurs,
        ⟨_, occurs, Option.some_ne_none _⟩, searched, ?_⟩
      cases value with
      | some value => exact .inl ⟨value, read⟩
      | none =>
          rw [← same] at appended
          obtain ⟨own, isDefault, isOwn⟩ := append_none_ok built appended
          obtain rfl := Option.some.inj isOwn
          exact .inr ⟨result, isDefault, row, ⟨times, timed, time, held, beyondAll⟩, cellAtRow⟩
    · cases missing
  · rintro ⟨rfl, times, indices, timed, integral, present, searched, settled⟩
    obtain ⟨nonneg, atRow, within⟩ := extreme times indices timed integral present searched
    rw [← column_length_times timed found] at within
    have aggregated : aggregateAt choose batch columnName =
        .ok column.cells[(choose indices).toNat] :=
      aggregate_at_returns_iff.mpr ⟨times, indices, column, timed, searched, found, nonneg,
        List.getElem?_eq_getElem within⟩
    rw [aggregated, isColumn]
    change ∃ cell, appendTo column.type column.type _ = .ok cell ∧ _
    cases own : column.cells[(choose indices).toNat] with
    | some value =>
        have admitted := column.conforms _ (List.getElem_mem within)
        rw [own] at admitted
        exact ⟨_, append_some built admitted, .inl ⟨_, atRow,
          by rw [List.getElem?_eq_getElem within, own], fun _ => rfl⟩⟩
    | none =>
        rcases settled with ⟨value, read⟩ | ⟨value, isDefault, row, atOther, cellAtOther⟩
        · rw [List.getElem?_eq_getElem within, own] at read
          cases read
        · exact ⟨_, append_none isDefault, .inl ⟨row, atOther, cellAtOther, fun _ => rfl⟩⟩

theorem settles_extreme_iff {choose : Scalar × Scalar → Scalar} {beyond : Value → Value → Prop}
    (built : buildable type = true)
    (number : ∀ extremes, minMax column.type column.cells = .ok extremes →
      choose extremes ≠ some (.double .nan))
    (extreme : ∀ least greatest, Extremal column least greatest → ∃ value,
      choose (some least, some greatest) = some value ∧ some value ∈ column.cells ∧
        ∀ other, some other ∈ column.cells → beyond value other) :
    (∃ cell, (minMax column.type column.cells >>= fun extremes =>
        appendTo type column.type (choose extremes)) = .ok cell ∧
        ReadsExtreme beyond column type cell) ↔
      SettlesExtreme type column := by
  constructor
  · rintro ⟨cell, returned, reads⟩
    obtain ⟨extremes, ranged, appended⟩ := except_bind_ok_cases returned
    obtain ⟨result, rfl⟩ := append_present appended
    rcases reads with ⟨value, isValue, same, occurs, _⟩ | ⟨_, missing⟩
    · obtain rfl := Option.some.inj isValue
      refine ⟨same.symm, same ▸ min_max_kernel ranged, result, occurs, ?_⟩
      intro isNan
      rw [isNan] at appended
      exact number extremes ranged (append_nan appended)
    · cases missing
  · rintro ⟨rfl, kernel, present⟩
    obtain ⟨least, greatest, extremal⟩ := exists_extremal kernel present
    obtain ⟨value, isValue, occurs, beyondAll⟩ := extreme least greatest extremal
    refine ⟨some value, ?_, .inl ⟨value, rfl, rfl, occurs, beyondAll⟩⟩
    rw [extremal.found]
    change appendTo column.type column.type (choose (some least, some greatest)) = _
    rw [isValue]
    exact append_some built (column.conforms _ occurs)

theorem settles_mean_iff (built : buildable type = true) :
    (∃ cell, (mean column.type column.cells >>= fun value => appendTo type .double value) =
        .ok cell ∧ ReadsMean column type cell) ↔
      SettlesMean type column := by
  constructor
  · rintro ⟨cell, returned, reads⟩
    obtain ⟨value, averaged, appended⟩ := except_bind_ok_cases returned
    obtain ⟨result, rfl⟩ := append_present appended
    rcases reads with ⟨average, isMean, typed⟩ | ⟨_, missing⟩
    · have kernel := mean_kernel averaged
      rcases typed with ⟨isDouble, _⟩ | ⟨integer, _⟩
      · exact ⟨isDouble, kernel, (mean_of_iff kernel).mpr ⟨average, isMean⟩⟩
      · have same : DataType.double = type := append_type (by
          cases type <;> first | rfl | exact absurd integer Bool.false_ne_true) appended
        rw [← same] at integer
        cases integer
    · cases missing
  · rintro ⟨rfl, kernel, present⟩
    obtain ⟨average, isMean⟩ := (mean_of_iff kernel).mp present
    refine ⟨some (.double average), ?_, .inl ⟨average, isMean, .inl ⟨rfl, rfl⟩⟩⟩
    rw [mean_eq kernel, isMean]
    exact append_some built rfl

/-- A batch that has the column adds the value of the function just when the cell settles. -/
theorem cell_settles_iff {aggregateFunction : AggregateFunctionEnumType}
    (found : batch.getColumnByName columnName = some column) (built : buildable type = true) :
    (∃ cell, aggregateCell aggregateFunction columnName type batch = .ok cell ∧
        Computes aggregateFunction batch columnName type cell) ↔
      Settles aggregateFunction type batch column := by
  have isColumn : aggregatedColumn batch columnName = .ok column := by
    rw [aggregatedColumn, found]
  simp only [aggregate_cell_eq, Computes, found]
  cases aggregateFunction with
  | first =>
      exact settles_at_iff found built fun times indices timed integral present searched =>
        (searched_extreme timed integral present searched).1
  | last =>
      exact settles_at_iff found built fun times indices timed integral present searched =>
        (searched_extreme timed integral present searched).2
  | max =>
      simp only [AggregateFunctionEnumType.aggregate, maxAggregateFunction, isColumn]
      change (∃ cell, ((minMax column.type column.cells >>= fun extremes => pure extremes.2) >>=
        appendTo type column.type) = .ok cell ∧ _) ↔ _
      refine Iff.trans ?_ (@settles_extreme_iff column type Prod.snd NotBelow built
        (fun extremes ranged => (min_max_number ranged).2)
        fun least greatest extremal => ⟨greatest, rfl, extremal.greatestOccurs, extremal.maximal⟩)
      cases minMax column.type column.cells <;> rfl
  | min =>
      simp only [AggregateFunctionEnumType.aggregate, minAggregateFunction, isColumn]
      change (∃ cell, ((minMax column.type column.cells >>= fun extremes => pure extremes.1) >>=
        appendTo type column.type) = .ok cell ∧ _) ↔ _
      refine Iff.trans ?_ (@settles_extreme_iff column type Prod.fst NotAbove built
        (fun extremes ranged => (min_max_number ranged).1)
        fun least greatest extremal => ⟨least, rfl, extremal.leastOccurs, extremal.minimal⟩)
      cases minMax column.type column.cells <;> rfl
  | mean =>
      simp only [AggregateFunctionEnumType.aggregate, meanAggregateFunction, isColumn]
      refine Iff.trans ?_ (settles_mean_iff built)
      rfl

end Cells

end StreamDataProcessor.Handlers.Aggregate
