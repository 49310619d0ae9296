import StreamDataProcessor.Handlers.DerivativeSteps
import Mathlib.Data.List.TakeWhile

/-!
# When the derivative handler succeeds

On batches that have their time column and the value columns, in any time order, a
run fails for a unit of zero, a negative neighbourhood, fields that change, a first
calculation before each value column has had a value, a value in a decimal column, and the
one quotient of 64 bits that leaves them.
-/

namespace StreamDataProcessor.Handlers.Derivative

open Foundation.Effect Foundation.Binary64 Arrow Metadata Utils

set_option autoImplicit false

/-- A batch with the timestamps and the numeric columns that the handler reads. -/
structure Admissible (options : DerivativeOptions) (timeName : String) (batch : RecordBatch) :
    Prop where
  nonempty : batch.rows ≠ []
  named : batch.schema.metadata.timeColumnName = some timeName
  timed : ∃ index unit, batch.schema.fieldIndex timeName = some index ∧
    batch.schema.types[index]? = some (.timestamp unit)
  numeric : ∀ name ∈ caseColumns options, ∃ index type,
    batch.schema.fieldIndex name = some index ∧ batch.schema.types[index]? = some type ∧
      isNumericType type = true

section Domain

variable [Numbers]

def sortedRows (timeName : String) (batch : RecordBatch) : List Row :=
  match batch.schema.fieldIndex timeName with
  | none => batch.rows
  | some index => (batch.sortRows index).rows

/-- The rows before the first one that is out of reach of the first row. -/
def reachedFromFirst (options : DerivativeOptions) (schema : Schema) : List Row → List Row
  | [] => []
  | first :: rest => taken options schema (scaledTime options schema first) (first :: rest)

def HaveValues (options : DerivativeOptions) (schema : Schema) (rows : List Row) : Prop :=
  ∀ name ∈ caseColumns options, ∃ row ∈ rows, (schema.cell name row).isSome

/-- What the first calculation of a run needs of the rows received, in their order. -/
def ValuesInTime (options : DerivativeOptions) (schema : Schema) (timeName : String)
    (first : RecordBatch) (rest : List RecordBatch) : Prop :=
  if options.noWaitFuture = true then
    HaveValues options schema (reachedFromFirst options schema (sortedRows timeName first))
  else
    let stream := (first :: rest).flatMap (sortedRows timeName)
    reachedFromFirst options schema stream = stream ∨
      HaveValues options schema (reachedFromFirst options schema stream)

/-- The times of the rows are divided by the unit, and their values are cast: those of a
decimal column are not. -/
structure ReadableRows (options : DerivativeOptions) (schema : Schema) (rows : List Row) :
    Prop where
  divides : Divides options schema rows
  casts : ∀ name ∈ caseColumns options, ∀ index, schema.fieldIndex name = some index →
    schema.types[index]? = some .decimal → ∀ row ∈ rows, schema.cell name row = none

/-- The runs on which nothing the handler does is out of its domain. -/
def InDomain (options : DerivativeOptions) (timeName : String) : List RecordBatch → Prop
  | [] => True
  | first :: rest =>
      options.unitTimeSegment ≠ 0 ∧ 0 ≤ options.derivativeNeighbourhood ∧
      (∀ batch ∈ first :: rest, ReadableRows options batch.schema batch.rows) ∧
      (∀ batch ∈ rest, batch.schema.equalFields first.schema) ∧
      ValuesInTime options first.schema timeName first rest

/-- An answer of one batch, with a null cell where the calculator has no value. -/
def Calculated (calculator : DerivativeCalculator)
    (answer : List RecordBatch × List (List CalculatorCall)) : Prop :=
  ∃ result rows, answer.1 = [result] ∧ rows.length = answer.2.length ∧
    result.rows = List.zipWith (withDerivatives calculator) rows answer.2

def Succeeds (calculator : DerivativeCalculator) (options : DerivativeOptions)
    (handler : DerivativeHandler) : List RecordBatch → Prop
  | [] => True
  | batch :: rest => ∃ answer after,
      handleWithCalls calculator options batch handler = .ok answer after ∧
      Calculated calculator answer ∧ Succeeds calculator options after rest

end Domain

section Batches

variable {options : DerivativeOptions} {timeName : String} {batch : RecordBatch}

theorem sort_of_admissible (admissible : Admissible options timeName batch) :
    ∃ sorted, sortByColumn timeName batch = .ok sorted ∧ sorted.schema = batch.schema ∧
      sorted.rows = sortedRows timeName batch ∧ sorted.rows ≠ [] := by
  obtain ⟨index, _, located, _⟩ := admissible.timed
  refine ⟨batch.sortRows index, by rw [sortByColumn, located], rfl, by rw [sortedRows, located],
    sort_rows_ne_nil index admissible.nonempty⟩

theorem time_column_name_of_admissible (admissible : Admissible options timeName batch) :
    getTimeColumnNameMetadata batch = .ok timeName := by
  have named := admissible.named
  have present : batch.schema.metadata ≠ {} := by
    intro empty
    rw [empty] at named
    cases named
  simp only [getTimeColumnNameMetadata, getColumnNameMetadata, if_neg present, named]

theorem cast_of_numeric {type : DataType} (numeric : isNumericType type = true) {cell : Scalar}
    (admits : type.admits cell = true) (decimal : type = .decimal → cell = none) :
    ∃ cast, castToFloat64 type cell = .ok cast := by
  cases cell with
  | none => exact ⟨_, rfl⟩
  | some value =>
      have castable : type ≠ .decimal := fun isDecimal => nomatch decimal isDecimal
      rw [castToFloat64, if_neg castable]
      cases value with
      | string text => cases type <;> simp [isNumericType, DataType.admits] at numeric admits
      | _ => exact ⟨_, rfl⟩

theorem decimal_of_cast {value : Value} {cast : Scalar} :
    castToFloat64 .decimal (some value) ≠ .ok cast := by
  rw [castToFloat64, if_pos rfl]
  exact fun isCast => nomatch isCast

theorem cast_timestamp_of_admitted {unit : Arrow.TimeUnit} {cell : Scalar}
    (admits : (DataType.timestamp unit).admits cell = true) :
    ∃ timestamp, castTimestampScalar (.timestamp unit) cell .nano = .ok timestamp := by
  cases cell with
  | none => exact ⟨_, rfl⟩
  | some value =>
      cases value with
      | integer value => exact ⟨_, rfl⟩
      | _ => cases admits

theorem find_value_columns_exists {cases : List (String × DerivativeCase)}
    (columns : ∀ entry ∈ cases, ∃ column,
      batch.getColumnByName entry.2.valuesColumnName = some column)
    (found : List (String × Column)) : ∃ valueColumns,
      findValueColumns batch cases found = .ok valueColumns := by
  induction cases generalizing found with
  | nil => exact ⟨found, rfl⟩
  | cons entry cases induction =>
      have others := fun other member => columns other (List.mem_cons_of_mem entry member)
      obtain ⟨column, isColumn⟩ := columns entry (by simp)
      rw [findValueColumns]
      split
      · exact induction others _
      · rw [isColumn]
        exact induction others _

theorem field_index_of_equal {left right : Schema} (same : left.equalFields right)
    (name : String) : left.fieldIndex name = right.fieldIndex name := by
  unfold Schema.fieldIndex
  rw [equal_fields_names same]

theorem cell_of_equal {left right : Schema} (same : left.equalFields right) (name : String) :
    left.cell name = right.cell name := by
  funext row
  rw [Schema.cell, Schema.cell, field_index_of_equal same]

theorem time_type_of_equal {left right : Schema} (same : left.equalFields right)
    (named : left.metadata.timeColumnName = right.metadata.timeColumnName) :
    timeType left = timeType right := by
  have indices : left.fieldIndex = right.fieldIndex := funext (field_index_of_equal same)
  rw [timeType, timeType, named, indices, equal_fields_types same]

theorem time_cell_of_equal {left right : Schema} (same : left.equalFields right)
    (named : left.metadata.timeColumnName = right.metadata.timeColumnName) :
    timeCell left = timeCell right := by
  funext row
  simp only [timeCell, named, cell_of_equal same]

theorem mem_sorted_rows {row : Row} : row ∈ sortedRows timeName batch ↔ row ∈ batch.rows := by
  unfold sortedRows
  cases batch.schema.fieldIndex timeName with
  | none => exact Iff.rfl
  | some index => exact (sort_rows_perm batch index).mem_iff

end Batches

section Reads

variable [Numbers] {options : DerivativeOptions} {timeColumn : Column}
  {valueColumns : List (String × Column)}

def CastsAt (valueColumns : List (String × Column)) (row : Nat) : Prop :=
  ∀ entry ∈ valueColumns, ∃ scalar, entry.2.getScalar row = .ok scalar ∧
    ∃ cast, castToFloat64 entry.2.type scalar = .ok cast

structure ReadsRow (options : DerivativeOptions) (timeColumn : Column)
    (valueColumns : List (String × Column)) (row : Nat) : Prop where
  time : ∃ time, getScaledPositionTime options row timeColumn = .ok time
  values : CastsAt valueColumns row

omit [Numbers] in
theorem casts_at_of_pushed {time : Int} {row : Nat} {handler after : DerivativeHandler}
    (returned : pushValues time row valueColumns handler = .ok () after) :
    CastsAt valueColumns row := by
  induction valueColumns generalizing handler with
  | nil => exact fun entry member => absurd member List.not_mem_nil
  | cons entry columns induction =>
      obtain ⟨name, column⟩ := entry
      rw [pushValues] at returned
      obtain ⟨scalar, isScalar, returned⟩ := bind_of_except_cases returned
      unfold CastsAt
      rw [List.forall_mem_cons]
      cases scalar with
      | none => exact ⟨⟨none, isScalar, _, rfl⟩, induction returned⟩
      | some value =>
          obtain ⟨cast, isCast, returned⟩ := bind_of_except_cases returned
          rw [bind_of_ok (get_apply _), bind_of_ok (set_apply _ _)] at returned
          exact ⟨⟨some value, isScalar, cast, isCast⟩, induction returned⟩

/-- A right bound that stops has read the rows that it passed, and its own. -/
theorem move_right_bound_reads {derivativeTime : Int} (coming : Nat) {time : Int} {position : Nat}
    {handler after : DerivativeHandler} {result : Int × Nat}
    (read : coming ≠ 0 → getScaledPositionTime options position timeColumn = .ok time)
    (returned : moveRightBound options timeColumn valueColumns derivativeTime coming time position
      handler = .ok result after) :
    position ≤ result.2 ∧
      (∀ row, position ≤ row → row < result.2 →
        ReadsRow options timeColumn valueColumns row) ∧
      (result.2 < position + coming →
        getScaledPositionTime options result.2 timeColumn = .ok result.1 ∧
          ¬isReached options derivativeTime result.1) := by
  induction coming generalizing time position handler with
  | zero =>
      obtain ⟨rfl, _⟩ := returned
      exact ⟨le_rfl, fun row since before => absurd before (by dsimp only; omega),
        fun before => absurd before (by dsimp only; omega)⟩
  | succ coming induction =>
      rw [moveRightBound] at returned
      split at returned
      · obtain ⟨_, middle, _, returned⟩ := bind_ok_cases returned
        obtain ⟨_, pushed, pushes, returned⟩ := bind_ok_cases returned
        have own : ReadsRow options timeColumn valueColumns position :=
          ⟨⟨time, read (by omega)⟩, casts_at_of_pushed pushes⟩
        split at returned
        · next done =>
          obtain ⟨rfl, _⟩ := returned
          refine ⟨Nat.le_succ _, fun row since before => ?_, fun before => ?_⟩
          · obtain rfl : row = position := by dsimp only at before; omega
            exact own
          · dsimp only at before
            omega
        · obtain ⟨next, isNext, returned⟩ := bind_of_except_cases returned
          obtain ⟨further, passed, stops⟩ := induction (fun _ => isNext) returned
          refine ⟨by omega, fun row since before => ?_, fun before => stops (by omega)⟩
          rcases Nat.eq_or_lt_of_le since with rfl | later
          · exact own
          · exact passed row later before
      · next ahead =>
        obtain ⟨rfl, _⟩ := returned
        exact ⟨le_rfl, fun row since before => absurd before (by dsimp only; omega),
          fun _ => ⟨read (by omega), ahead⟩⟩

/-- The rows from the right bound on are all read before a call returns. -/
theorem calculate_rows_reads (self : ∀ time, isReached options time time) {totalRows : Nat}
    (rowsLeft : Nat) {position : Nat} {bounds : Bounds} {handler after : DerivativeHandler}
    {calls : List (List CalculatorCall)} (count : position + rowsLeft = totalRows)
    (ahead : position ≤ bounds.rightBoundRow)
    (read : bounds.rightBoundRow < totalRows →
      getScaledPositionTime options bounds.rightBoundRow timeColumn = .ok bounds.rightBoundTime)
    (returned : calculateRows options timeColumn valueColumns totalRows rowsLeft position bounds
      handler = .ok calls after) :
    ∀ row, bounds.rightBoundRow ≤ row → row < totalRows →
      ReadsRow options timeColumn valueColumns row := by
  induction rowsLeft generalizing position bounds handler after calls with
  | zero =>
      intro row since before
      omega
  | succ rowsLeft induction =>
      rw [calculateRows] at returned
      obtain ⟨derivativeTime, isTime, returned⟩ := bind_of_except_cases returned
      rw [bind_of_ok (get_apply _)] at returned
      obtain ⟨⟨leftBoundTime, times, values⟩, _, returned⟩ := bind_of_except_cases returned
      dsimp only at returned
      rw [bind_of_ok (set_apply _ _)] at returned
      obtain ⟨⟨rightBoundTime, rightBoundRow⟩, middle, moves, returned⟩ := bind_ok_cases returned
      obtain ⟨further, passed, stops⟩ :=
        move_right_bound_reads _ (fun some => read (by omega)) moves
      intro row since before
      rcases Nat.lt_or_ge row rightBoundRow with isPassed | isLater
      · exact passed row since isPassed
      -- the row that the bound stops at is out of reach, so it is not the row of the turn
      obtain ⟨isRight, unreached⟩ := stops (by omega)
      have beyond : position + 1 ≤ rightBoundRow := by
        rcases Nat.lt_or_ge position rightBoundRow with lt | ge
        · exact lt
        · obtain rfl : rightBoundRow = position := by omega
          rw [isTime, Except.ok.injEq] at isRight
          exact absurd (isRight ▸ self derivativeTime) unreached
      dsimp only at returned
      rw [if_neg fun waits => unreached waits.2] at returned
      obtain ⟨_, _, _, returned⟩ := bind_ok_cases returned
      obtain ⟨later, _, calculated, _⟩ := bind_ok_cases returned
      exact (@induction (position + 1) ⟨leftBoundTime, rightBoundTime, rightBoundRow⟩ _ _ _) (by omega) beyond
        (fun _ => isRight) calculated row isLater before

end Reads

section Calls

variable [Numbers] {options : DerivativeOptions} {timeName : String}

theorem readable_rows_of_subset {schema : Schema} {rows others : List Row}
    (readable : ReadableRows options schema rows) (subset : others ⊆ rows) :
    ReadableRows options schema others :=
  ⟨fun isUnit row member => readable.divides isUnit row (subset member),
    fun name isCase index located decimal row member =>
      readable.casts name isCase index located decimal row (subset member)⟩

theorem readable_rows_append {schema : Schema} {rows others : List Row}
    (first : ReadableRows options schema rows) (second : ReadableRows options schema others) :
    ReadableRows options schema (rows ++ others) := by
  refine ⟨fun isUnit row member => ?_, fun name isCase index located decimal row member => ?_⟩
  · rcases List.mem_append.mp member with inFirst | inSecond
    · exact first.divides isUnit row inFirst
    · exact second.divides isUnit row inSecond
  · rcases List.mem_append.mp member with inFirst | inSecond
    · exact first.casts name isCase index located decimal row inFirst
    · exact second.casts name isCase index located decimal row inSecond

theorem readable_rows_of_equal {left right : Schema} {rows : List Row}
    (same : left.equalFields right)
    (named : left.metadata.timeColumnName = right.metadata.timeColumnName)
    (readable : ReadableRows options left rows) : ReadableRows options right rows := by
  refine ⟨fun isUnit row member => ?_, fun name isCase index located decimal row member => ?_⟩
  · have divides := readable.divides isUnit row member
    rw [keptNanoseconds, time_type_of_equal same named, time_cell_of_equal same named] at divides
    exact divides
  · rw [← field_index_of_equal same] at located
    rw [← equal_fields_types same] at decimal
    rw [← cell_of_equal same]
    exact readable.casts name isCase index located decimal row member

structure Buffers (options : DerivativeOptions) (schema : Schema) (waiting : List Row)
    (handler : DerivativeHandler) : Prop where
  schemas : ∀ batch ∈ handler.bufferedBatch, batch.schema = schema
  rows : (handler.bufferedBatch.map RecordBatch.rows).getD [] = waiting
  times : ∃ front, handler.allBufferedTimes =
    front ++ waiting.map (scaledTime options schema)
  readable : ReadableRows options schema waiting

theorem reads_of_admissible {schema : Schema} {waiting : List Row} {handler : DerivativeHandler}
    {batch : RecordBatch} (unit : options.unitTimeSegment ≠ 0)
    (named : schema.metadata.timeColumnName = some timeName)
    (buffers : Buffers options schema waiting handler)
    (own : handler.bufferedBatch = none → batch.schema = schema)
    (same : batch.schema.equalFields schema) (admissible : Admissible options timeName batch)
    (readable : ReadableRows options batch.schema batch.rows) :
    ∃ sorted concat timeColumn valueColumns,
      CallReads options handler batch sorted concat timeColumn valueColumns ∧
      Castable valueColumns ∧ sorted.rows ≠ [] ∧ sorted.rows = sortedRows timeName batch ∧
      concat.schema = schema ∧ concat.rows = waiting ++ sortedRows timeName batch ∧
      ReadableRows options schema concat.rows := by
  obtain ⟨sorted, sorts, sortedSchema, rows, nonempty⟩ := sort_of_admissible admissible
  obtain ⟨concat, concatenates⟩ : ∃ concat,
      concatenateBuffered handler.bufferedBatch sorted = .ok concat := by
    cases buffered : handler.bufferedBatch with
    | none => exact ⟨sorted, rfl⟩
    | some bufferedBatch =>
        have equal : ∀ other ∈ [sorted], other.schema.equalFields bufferedBatch.schema := by
          intro other member
          rw [List.mem_singleton.mp member, sortedSchema, buffers.schemas bufferedBatch buffered]
          exact same
        rw [concatenateBuffered, concatenateTables, dif_pos equal]
        exact ⟨_, rfl⟩
  obtain ⟨concatSchema, concatRows⟩ := concatenate_buffered_ok concatenates
  have schemaOf : concat.schema = schema := by
    rw [concatSchema]
    cases buffered : handler.bufferedBatch with
    | none => exact sortedSchema.trans (own buffered)
    | some bufferedBatch => exact buffers.schemas bufferedBatch buffered
  obtain ⟨index, timeUnit, located, typed⟩ := admissible.timed
  rw [field_index_of_equal same] at located
  rw [equal_fields_types same] at typed
  have found := get_column_by_name_eq concat (by rw [schemaOf]; exact located)
    (by rw [schemaOf]; exact typed)
  obtain ⟨cells, type⟩ := time_column_cells (by rw [schemaOf]; exact named) found
  have isTimestamp : timeType concat.schema = .timestamp timeUnit := type.symm
  have timed : ∀ row ∈ concat.rows, ∃ timestamp,
      castTimestampScalar (timeType concat.schema) (timeCell concat.schema row) .nano =
        .ok timestamp := by
    intro row member
    rw [isTimestamp]
    apply cast_timestamp_of_admitted
    have cell : timeCell concat.schema row = row.getD index none := by
      rw [timeCell, schemaOf, named, Option.map_some, Option.getD_some, Schema.cell, located,
        Option.map_some, Option.getD_some]
    rw [cell]
    exact row_conforms_cell (concat.conforms row member) (by rw [schemaOf]; exact typed)
  have allReadable : ReadableRows options concat.schema concat.rows := by
    rw [schemaOf, concatRows, buffers.rows, rows]
    refine readable_rows_append buffers.readable
      (readable_rows_of_equal same (admissible.named.trans named.symm) ?_)
    exact readable_rows_of_subset readable fun row => mem_sorted_rows.mp
  have columnOf : ∀ name ∈ caseColumns options, ∃ column type,
      concat.getColumnByName name = some column ∧ column.type = type ∧
        isNumericType type = true := by
    intro name member
    obtain ⟨index, type, located, typed, numeric⟩ := admissible.numeric name member
    rw [field_index_of_equal same] at located
    rw [equal_fields_types same] at typed
    exact ⟨_, type, get_column_by_name_eq concat (by rw [schemaOf]; exact located)
      (by rw [schemaOf]; exact typed), rfl, numeric⟩
  have columns : ∀ entry ∈ options.derivativeCases, ∃ column,
      concat.getColumnByName entry.2.valuesColumnName = some column := by
    intro entry member
    obtain ⟨column, _, isColumn, _⟩ := columnOf entry.2.valuesColumnName
      (List.mem_map_of_mem member)
    exact ⟨column, isColumn⟩
  obtain ⟨valueColumns, values⟩ := find_value_columns_exists columns []
  obtain ⟨_, readColumns, names⟩ :=
    find_value_columns_ok values List.nodup_nil fun _ member => absurd member List.not_mem_nil
  refine ⟨sorted, concat, _, valueColumns,
    ⟨⟨timeName, time_column_name_of_admissible admissible, sorts, found⟩, concatenates, values,
      reads_scaled_of_castable cells type unit allReadable.divides timed⟩, ?_, nonempty, rows,
    schemaOf, ?_, schemaOf ▸ allReadable⟩
  · intro entry member cell inCells
    have isCase : entry.1 ∈ caseColumns options := by
      have known := (names entry.1).mp (List.mem_map_of_mem member)
      simpa [caseColumns] using known
    obtain ⟨column, type, isColumn, typeOf, numeric⟩ := columnOf entry.1 isCase
    rw [readColumns entry member, Option.some.injEq] at isColumn
    subst isColumn
    obtain ⟨ownCells, ownType⟩ := get_column_by_name_cells (readColumns entry member)
    refine cast_of_numeric (typeOf ▸ numeric) (entry.2.conforms cell inCells) fun decimal => ?_
    rw [ownCells] at inCells
    obtain ⟨row, inRows, rfl⟩ := List.mem_map.mp inCells
    obtain ⟨index, located, ownType⟩ := Option.bind_eq_some_iff.mp ownType
    exact allReadable.casts entry.1 isCase index located (decimal ▸ ownType) row inRows
  · rw [concatRows, buffers.rows, rows]

omit [Numbers] in
theorem concatenated_equal_fields {buffered : Option RecordBatch} {sorted concat : RecordBatch}
    (returned : concatenateBuffered buffered sorted = .ok concat) :
    sorted.schema.equalFields concat.schema := by
  cases buffered with
  | none =>
      rw [concatenateBuffered, Except.ok.injEq] at returned
      exact returned ▸ equal_fields_refl _
  | some bufferedBatch =>
      rw [concatenateBuffered, concatenateTables] at returned
      split at returned
      · next equal =>
        rw [Except.ok.injEq] at returned
        subst returned
        exact equal sorted (by simp)
      · cases returned

theorem readable_of_returned {handler after : DerivativeHandler}
    {calculator : DerivativeCalculator} {batch : RecordBatch}
    {answer : List RecordBatch × List (List CalculatorCall)}
    (self : ∀ time, isReached options time time) (admissible : Admissible options timeName batch)
    (returned : handleWithCalls calculator options batch handler = .ok answer after) :
    ReadableRows options batch.schema batch.rows := by
  obtain ⟨name, sorted, concat, timeColumn, valueColumns, bounds, isName, sorts, concatenates,
    found, values, _, isFirst, isRight, calls, middle, calculated⟩ := reads_of_returned returned
  have isTime : timeName = name := by
    have named := time_column_name_of_returned isName
    rw [admissible.named, Option.some.injEq] at named
    exact named
  subst isTime
  obtain ⟨own, ownSorts, sortedSchema, rows, _⟩ := sort_of_admissible admissible
  rw [ownSorts, Except.ok.injEq] at sorts
  subst sorts
  obtain ⟨_, concatRows⟩ := concatenate_buffered_ok concatenates
  have same : batch.schema.equalFields concat.schema :=
    sortedSchema ▸ concatenated_equal_fields concatenates
  have readsOf : ∀ row ∈ batch.rows, ∃ position, concat.rows[position]? = some row ∧
      ReadsRow options timeColumn valueColumns position := by
    intro row member
    rw [← @mem_sorted_rows timeName, ← rows] at member
    obtain ⟨position, bound, isRow⟩ := List.getElem_of_mem member
    have count : bounds.rightBoundRow =
        ((handler.bufferedBatch.map RecordBatch.rows).getD []).length := by
      rw [isFirst]
      cases handler.bufferedBatch <;> rfl
    have total : concat.numRows = bounds.rightBoundRow + own.rows.length := by
      rw [RecordBatch.numRows, concatRows, List.length_append, count]
    refine ⟨bounds.rightBoundRow + position, ?_,
      calculate_rows_reads self _ (Nat.zero_add _) (Nat.zero_le _) (fun _ => isRight) calculated
        _ (Nat.le_add_right _ _) (by omega)⟩
    rw [concatRows, count, List.getElem?_append_right (Nat.le_add_right _ _),
      Nat.add_sub_cancel_left, List.getElem?_eq_getElem bound, isRow]
  obtain ⟨timeCells, timeTyped⟩ := get_column_by_name_cells found
  have cells : timeColumn.cells = concat.rows.map (timeCell batch.schema) := by
    rw [timeCells]
    apply List.map_congr_left
    intro row _
    rw [timeCell, admissible.named, Option.map_some, Option.getD_some, cell_of_equal same]
  have type : timeColumn.type = timeType batch.schema := by
    rw [timeType, admissible.named, Option.bind_some, field_index_of_equal same,
      equal_fields_types same, timeTyped, Option.getD_some]
  constructor
  · intro isUnit row member least
    obtain ⟨position, isRow, ⟨time, isTime⟩, _⟩ := readsOf row member
    rw [scaled_position_time_eq cells type isRow] at isTime
    rw [keptNanoseconds] at least
    cases cast : castTimestampScalar (timeType batch.schema) (timeCell batch.schema row) .nano with
    | error fault => rw [cast] at isTime; cases isTime
    | ok timestamp =>
        rw [cast] at isTime least
        dsimp only at least
        simp only [bind, Except.bind, isUnit, least, and_self, if_true] at isTime
        cases isTime
  · intro name isCase index located decimal row member
    obtain ⟨position, isRow, _, casts⟩ := readsOf row member
    obtain ⟨_, readColumns, names⟩ :=
      find_value_columns_ok values List.nodup_nil fun _ member => absurd member List.not_mem_nil
    obtain ⟨entry, inColumns, rfl⟩ := List.mem_map.mp ((names name).mpr (.inr isCase))
    obtain ⟨ownCells, ownType⟩ := get_column_by_name_cells (readColumns entry inColumns)
    obtain ⟨scalar, isScalar, cast, isCast⟩ := casts entry inColumns
    rw [← field_index_of_equal same, ← equal_fields_types same, located, Option.bind_some,
      decimal, Option.some.injEq] at ownType
    have isCell : scalar = batch.schema.cell entry.1 row := by
      simp only [Column.getScalar, ownCells, List.getElem?_map, isRow, Option.map_some,
        Except.ok.injEq] at isScalar
      rw [← isScalar, cell_of_equal same]
    rw [← isCell]
    cases scalar with
    | none => rfl
    | some value => exact absurd (ownType ▸ isCast) decimal_of_cast

theorem readable_of_succeeds {calculator : DerivativeCalculator} {handler : DerivativeHandler}
    (self : ∀ time, isReached options time time) (batches : List RecordBatch)
    (admissible : ∀ batch ∈ batches, Admissible options timeName batch)
    (succeeds : Succeeds calculator options handler batches) :
    ∀ batch ∈ batches, ReadableRows options batch.schema batch.rows := by
  induction batches generalizing handler with
  | nil => exact fun batch member => absurd member List.not_mem_nil
  | cons batch rest induction =>
      obtain ⟨_, _, returned, _, later⟩ := succeeds
      rw [List.forall_mem_cons] at admissible ⊢
      exact ⟨readable_of_returned self admissible.1 returned, induction admissible.2 later⟩

theorem equal_fields_of_returned {schema : Schema} {waiting : List Row}
    {handler after : DerivativeHandler} {calculator : DerivativeCalculator} {batch : RecordBatch}
    {answer : List RecordBatch × List (List CalculatorCall)}
    (buffers : Buffers options schema waiting handler) (started : handler.bufferedBatch ≠ none)
    (returned : handleWithCalls calculator options batch handler = .ok answer after) :
    batch.schema.equalFields schema := by
  obtain ⟨name, sorted, concat, _, _, _, _, sorts, concatenates, _⟩ := reads_of_returned returned
  have sortedSchema : sorted.schema = batch.schema := by
    unfold sortByColumn at sorts
    split at sorts
    · cases sorts
    · rw [Except.ok.injEq] at sorts
      rw [← sorts]
      rfl
  obtain ⟨bufferedBatch, buffered⟩ := Option.ne_none_iff_exists'.mp started
  have concatSchema := (concatenate_buffered_ok concatenates).1
  rw [buffered, Option.map_some, Option.getD_some, buffers.schemas bufferedBatch buffered]
    at concatSchema
  rw [← sortedSchema, ← concatSchema]
  exact concatenated_equal_fields concatenates

/-- What is left after a call that returned: the deques of times hold the rows that wait. -/
theorem buffers_after {schema : Schema} {waiting : List Row} {handler after : DerivativeHandler}
    {calculator : DerivativeCalculator} {batch sorted concat : RecordBatch}
    {answer : List RecordBatch × List (List CalculatorCall)}
    (own : ∀ time, ¬isBehind options time time) (self : ∀ time, isReached options time time)
    (buffers : Buffers options schema waiting handler) (schemaOf : concat.schema = schema)
    (rows : concat.rows = waiting ++ sorted.rows) (nonempty : sorted.rows ≠ [])
    (readable : ReadableRows options schema concat.rows) (answers : CallAnswers calculator options handler batch sorted concat answer after) :
    Buffers options schema (concat.rows.drop answer.2.length) after := by
  obtain ⟨last, isLast⟩ : ∃ last, concat.rows.getLast? = some last :=
    Option.ne_none_iff_exists'.mp (by
      rw [rows]
      simp [nonempty])
  have turned := answers.turned last isLast
  have held := (@turns_held _ _ schema) (scaledTime options schema last) own self concat.rows
    rows buffers.times
  rw [schemaOf] at turned
  rw [← turned] at held
  refine ⟨fun other isBuffered => ?_, ?_, held,
    readable_rows_of_subset readable (List.drop_subset _ _)⟩
  · rw [answers.buffered, Option.mem_some_iff] at isBuffered
    rw [← isBuffered, slice_from_schema, schemaOf]
  · rw [answers.buffered, Option.map_some, Option.getD_some, slice_from_rows]

omit [Numbers] in
theorem last_of_admissible {batch : RecordBatch} (waiting : List Row)
    (admissible : Admissible options timeName batch) :
    ∃ last, (waiting ++ sortedRows timeName batch).getLast? = some last := by
  obtain ⟨sorted, _, _, rows, nonempty⟩ := sort_of_admissible admissible
  rw [rows] at nonempty
  exact Option.ne_none_iff_exists'.mp (by simp [nonempty])

theorem succeeds_cons_of_returned {calculator : DerivativeCalculator}
    {handler after : DerivativeHandler} {batch : RecordBatch} {rest : List RecordBatch}
    {answer : List RecordBatch × List (List CalculatorCall)}
    (returned : handleWithCalls calculator options batch handler = .ok answer after)
    (calculated : Calculated calculator answer) :
    Succeeds calculator options handler (batch :: rest) ↔
      Succeeds calculator options after rest := by
  constructor
  · rintro ⟨_, _, again, _, later⟩
    rw [returned, EStateM.Result.ok.injEq] at again
    exact again.2 ▸ later
  · exact fun later => ⟨answer, after, returned, calculated, later⟩

/-- A call on admissible rows returns, unless it would calculate while a column has had no
value. -/
theorem call_outcome {schema : Schema} {waiting : List Row} {handler : DerivativeHandler}
    {batch : RecordBatch} {last : Row} (calculator : DerivativeCalculator)
    (unit : options.unitTimeSegment ≠ 0)
    (own : ∀ time, ¬isBehind options time time) (self : ∀ time, isReached options time time)
    (named : schema.metadata.timeColumnName = some timeName)
    (buffers : Buffers options schema waiting handler)
    (first : handler.bufferedBatch = none → batch.schema = schema)
    (same : batch.schema.equalFields schema) (admissible : Admissible options timeName batch)
    (readable : ReadableRows options batch.schema batch.rows) (isLast : (waiting ++ sortedRows timeName batch).getLast? = some last) :
    (Blocked options schema (scaledTime options schema last)
        (waiting ++ sortedRows timeName batch) (sortedRows timeName batch) handler ∧
      ∀ rest, ¬Succeeds calculator options handler (batch :: rest)) ∨
    ¬Blocked options schema (scaledTime options schema last)
        (waiting ++ sortedRows timeName batch) (sortedRows timeName batch) handler ∧
      ∃ answer after,
        (∀ rest, Succeeds calculator options handler (batch :: rest) ↔
          Succeeds calculator options after rest) ∧
        after.bufferedBatch ≠ none ∧
        Buffers options schema
          ((waiting ++ sortedRows timeName batch).drop answer.length) after ∧
        (answer, { after with bufferedBatch := handler.bufferedBatch }) =
          turns options schema (scaledTime options schema last)
            (waiting ++ sortedRows timeName batch) (sortedRows timeName batch) handler := by
  obtain ⟨sorted, concat, timeColumn, valueColumns, reads, castable, nonempty, rows, schemaOf,
    concatRows, allReadable⟩ :=
      reads_of_admissible unit named buffers first same admissible readable
  have ends := handle_with_calls_ends calculator reads nonempty own self
    (by rw [buffers.rows, schemaOf]; exact buffers.times)
  cases outcome : handleWithCalls calculator options batch handler with
  | error fault after =>
      left
      rw [outcome] at ends
      rcases ends with uncastable | blocked
      · exact absurd castable uncastable
      · refine ⟨?_, fun rest => ?_⟩
        · rw [concatRows, schemaOf, rows] at blocked
          exact blocked last isLast
        · rintro ⟨_, _, returned, _⟩
          rw [outcome] at returned
          cases returned
  | ok answer after =>
      right
      rw [outcome] at ends
      obtain ⟨answers, unblocked⟩ := ends
      rw [concatRows, schemaOf, rows] at unblocked
      have turned := answers.turned last (by rw [concatRows]; exact isLast)
      rw [schemaOf, concatRows, rows] at turned
      have short := ((@turns_calls_length _ options) schema
        (scaledTime options schema last) (waiting ++ sortedRows timeName batch)
        (sortedRows timeName batch) handler).1
      rw [← turned] at short
      have calculated : Calculated calculator answer := by
        obtain ⟨result, isResult, _, resultRows⟩ := answers.result
        refine ⟨result, _, isResult, ?_, resultRows⟩
        rw [List.length_take, Nat.min_eq_left]
        rw [concatRows]
        exact short
      have after := buffers_after own self buffers schemaOf (rows ▸ concatRows) nonempty
        allReadable answers
      rw [concatRows] at after
      refine ⟨unblocked last isLast, answer.2, _,
        fun rest => succeeds_cons_of_returned outcome calculated, ?_, after, turned⟩
      rw [answers.buffered]
      exact Option.some_ne_none _

theorem turns_present {schema : Schema} {last : Int} {name : String} (remaining : List Row)
    {coming : List Row} {handler : DerivativeHandler}
    (present : (handler.bufferedValues name).isSome) :
    ((turns options schema last remaining coming handler).2.bufferedValues name).isSome := by
  induction remaining generalizing coming handler with
  | nil => exact present
  | cons row rest induction =>
      rw [turns]
      dsimp only
      split
      · exact induction (row_turn_present present)
      · exact row_turn_present present

/-- Once each column has a deque, a run returns exactly when the fields stay the same. -/
theorem succeeds_of_present {schema : Schema} (calculator : DerivativeCalculator)
    (unit : options.unitTimeSegment ≠ 0)
    (own : ∀ time, ¬isBehind options time time) (self : ∀ time, isReached options time time)
    (named : schema.metadata.timeColumnName = some timeName) (batches : List RecordBatch)
    (admissible : ∀ batch ∈ batches, Admissible options timeName batch)
    (readable : ∀ batch ∈ batches, ReadableRows options batch.schema batch.rows)
    {waiting : List Row} {handler : DerivativeHandler}
    (buffers : Buffers options schema waiting handler) (started : handler.bufferedBatch ≠ none)
    (present : ∀ name ∈ caseColumns options, (handler.bufferedValues name).isSome) :
    Succeeds calculator options handler batches ↔
      ∀ batch ∈ batches, batch.schema.equalFields schema := by
  induction batches generalizing waiting handler with
  | nil => simp [Succeeds]
  | cons batch rest induction =>
      have others := fun other member => admissible other (List.mem_cons_of_mem _ member)
      have readableLater := fun other member => readable other (List.mem_cons_of_mem _ member)
      rw [List.forall_mem_cons]
      by_cases same : batch.schema.equalFields schema
      · obtain ⟨last, isLast⟩ := last_of_admissible waiting (admissible batch (by simp))
        rcases call_outcome calculator unit own self named buffers (absurd · started) same
          (admissible batch (by simp)) (readable batch (by simp)) isLast with ⟨blocked, _⟩ | ⟨_, answer, after, succeeds,
            startedAfter, buffersAfter, turned⟩
        · obtain ⟨row, _, _, name, member, missing⟩ := blocked
          have some := @row_turn_present _ options schema row (sortedRows timeName batch) _ _
            (present name member)
          rw [missing] at some
          cases some
        · rw [succeeds, induction others readableLater buffersAfter startedAfter fun name member => ?_]
          · exact ⟨fun later => ⟨same, later⟩, And.right⟩
          · have kept := (@turns_present _ options schema (scaledTime options schema last) _
              (waiting ++ sortedRows timeName batch) (sortedRows timeName batch))
              (present name member)
            rw [← turned] at kept
            exact kept
      · constructor
        · rintro ⟨_, _, returned, _⟩
          exact absurd (equal_fields_of_returned buffers started returned) same
        · rintro ⟨equal, _⟩
          exact absurd equal same

/-- Nothing was calculated yet: the first row reaches all others, and the columns with a
deque are those that have had a value. -/
structure Pending (options : DerivativeOptions) (schema : Schema) (rows : List Row)
    (handler : DerivativeHandler) : Prop where
  buffers : Buffers options schema rows handler
  reached : reachedFromFirst options schema rows = rows
  present : ∀ name ∈ caseColumns options,
    (handler.bufferedValues name).isSome ↔ ∃ row ∈ rows, (schema.cell name row).isSome

theorem pending_initially (options : DerivativeOptions) (schema : Schema) :
    Pending options schema [] {} := by
  refine ⟨⟨?_, rfl, ⟨[], rfl⟩, ⟨?_, ?_⟩⟩, rfl, ?_⟩
  · intro batch isBuffered
    cases isBuffered
  · intro _ row member
    cases member
  · intro _ _ _ _ _ row member
    cases member
  · intro name _
    simp

theorem reached_append {schema : Schema} {rows fresh : List Row} {first : Row}
    {others : List Row} (reached : reachedFromFirst options schema rows = rows)
    (whole : rows ++ fresh = first :: others) :
    reachedFromFirst options schema (rows ++ fresh) =
        rows ++ taken options schema (scaledTime options schema first) fresh ∧
      (left options schema (scaledTime options schema first) fresh = [] ↔
        reachedFromFirst options schema (rows ++ fresh) = rows ++ fresh) := by
  have parts : taken options schema (scaledTime options schema first) fresh ++
      left options schema (scaledTime options schema first) fresh = fresh :=
    List.takeWhile_append_dropWhile
  have front : reachedFromFirst options schema (rows ++ fresh) =
      rows ++ taken options schema (scaledTime options schema first) fresh := by
    rw [whole, reachedFromFirst, ← whole]
    cases rows with
    | nil => rfl
    | cons row rest =>
        rw [List.cons_append, List.cons.injEq] at whole
        obtain ⟨rfl, _⟩ := whole
        apply List.takeWhile_append_of_pos
        intro other member
        rw [reachedFromFirst, taken, List.takeWhile_eq_self_iff] at reached
        exact reached other member
  refine ⟨front, ?_⟩
  rw [front]
  constructor
  · intro none
    rw [none, List.append_nil] at parts
    rw [parts]
  · intro all
    have lengths := congrArg List.length (List.append_cancel_left all)
    have split := congrArg List.length parts
    rw [List.length_append] at split
    exact List.length_eq_zero_iff.mp (by omega)

/-- The first row is calculated at once, or when one comes that it does not reach. -/
theorem first_settled_iff {schema : Schema} {rows fresh : List Row} {first last : Row}
    {others : List Row} (reached : reachedFromFirst options schema rows = rows)
    (whole : rows ++ fresh = first :: others) (isLast : (rows ++ fresh).getLast? = some last) :
    isSettled options schema (scaledTime options schema last) first fresh ↔
      options.noWaitFuture = true ∨
        reachedFromFirst options schema (rows ++ fresh) ≠ rows ++ fresh := by
  obtain ⟨_, none⟩ := reached_append reached whole
  unfold isSettled
  apply or_congr_right
  rw [ne_eq, ← none]
  cases shape : left options schema (scaledTime options schema first) fresh with
  | nil =>
      have all := none.mp shape
      rw [whole, reachedFromFirst, taken, List.takeWhile_eq_self_iff] at all
      have lastReached := all last (by rw [← whole]; exact List.mem_of_getLast? isLast)
      simpa [rightTime] using lastReached
  | cons next later =>
      have ahead := List.head?_dropWhile_not
        (fun other => decide (isReached options (scaledTime options schema first)
          (scaledTime options schema other))) fresh
      have unfolded : fresh.dropWhile (fun other => decide (isReached options
          (scaledTime options schema first) (scaledTime options schema other))) =
            next :: later := shape
      rw [unfolded] at ahead
      simpa [rightTime] using ahead

/-- A call before the first calculation. -/
theorem pending_call {schema : Schema} {rows : List Row} {handler : DerivativeHandler}
    {batch : RecordBatch} (calculator : DerivativeCalculator)
    (unit : options.unitTimeSegment ≠ 0)
    (own : ∀ time, ¬isBehind options time time) (self : ∀ time, isReached options time time)
    (named : schema.metadata.timeColumnName = some timeName)
    (pending : Pending options schema rows handler)
    (isFirst : handler.bufferedBatch = none → batch.schema = schema)
    (same : batch.schema.equalFields schema) (admissible : Admissible options timeName batch)
    (readable : ReadableRows options batch.schema batch.rows) :
    let received := rows ++ sortedRows timeName batch
    let due := options.noWaitFuture = true ∨ reachedFromFirst options schema received ≠ received
    (due → ¬HaveValues options schema (reachedFromFirst options schema received) →
      ∀ rest, ¬Succeeds calculator options handler (batch :: rest)) ∧
    (due → HaveValues options schema (reachedFromFirst options schema received) →
      ∃ waiting after, (∀ rest, Succeeds calculator options handler (batch :: rest) ↔
          Succeeds calculator options after rest) ∧ after.bufferedBatch ≠ none ∧
        Buffers options schema waiting after ∧
        ∀ name ∈ caseColumns options, (after.bufferedValues name).isSome) ∧
    (¬due → ∃ after, (∀ rest, Succeeds calculator options handler (batch :: rest) ↔
        Succeeds calculator options after rest) ∧ after.bufferedBatch ≠ none ∧
      Pending options schema received after) := by
  intro received due
  obtain ⟨last, isLast⟩ := last_of_admissible rows admissible
  obtain ⟨first, others, whole⟩ : ∃ first others, received = first :: others :=
    List.exists_cons_of_ne_nil fun empty => by
      rw [show rows ++ sortedRows timeName batch = [] from empty] at isLast
      cases isLast
  obtain ⟨front, _⟩ := reached_append pending.reached whole
  have settled := first_settled_iff pending.reached whole isLast
  have presentAfter : ∀ name ∈ caseColumns options,
      ((rowTurn options schema first (sortedRows timeName batch) handler).bufferedValues
        name).isSome ↔
      ∃ row ∈ reachedFromFirst options schema received, (schema.cell name row).isSome := by
    intro name member
    rw [rowTurn, push_rows_present, move_left_present, pending.present name member, front]
    simp only [List.mem_append, member, true_and]
    constructor
    · rintro (⟨row, inRows, some⟩ | ⟨row, inTaken, some⟩)
      · exact ⟨row, .inl inRows, some⟩
      · exact ⟨row, .inr inTaken, some⟩
    · rintro ⟨row, inRows | inTaken, some⟩
      · exact .inl ⟨row, inRows, some⟩
      · exact .inr ⟨row, inTaken, some⟩
  have blocked : Blocked options schema (scaledTime options schema last) received
      (sortedRows timeName batch) handler ↔
        due ∧ ¬HaveValues options schema (reachedFromFirst options schema received) := by
    unfold Blocked HaveValues
    rw [whole, List.head?_cons, ← whole]
    constructor
    · rintro ⟨row, isRow, isDue, name, member, missing⟩
      rw [Option.mem_some_iff] at isRow
      subst isRow
      refine ⟨settled.mp isDue, fun values => ?_⟩
      have some := (presentAfter name member).mpr (values name member)
      rw [missing] at some
      cases some
    · rintro ⟨isDue, missing⟩
      rw [not_forall] at missing
      obtain ⟨name, missing⟩ := missing
      rw [Classical.not_imp] at missing
      obtain ⟨member, none⟩ := missing
      refine ⟨first, rfl, settled.mpr isDue, name, member, ?_⟩
      rw [← presentAfter name member, Option.not_isSome_iff_eq_none] at none
      exact none
  rcases call_outcome calculator unit own self named pending.buffers isFirst same admissible
    readable isLast with ⟨isBlocked, fails⟩ | ⟨unblocked, answer, after, succeeds, started, buffers, turned⟩
  · obtain ⟨isDue, missing⟩ := blocked.mp isBlocked
    exact ⟨fun _ _ => fails, fun _ values => absurd values missing, absurd isDue⟩
  · have turns := turned
    rw [show rows ++ sortedRows timeName batch = first :: others from whole,
      Derivative.turns] at turns
    dsimp only at turns
    refine ⟨fun isDue missing => absurd (blocked.mpr ⟨isDue, missing⟩) unblocked, ?_, ?_⟩
    · intro isDue values
      refine ⟨_, after, succeeds, started, buffers, fun name member => ?_⟩
      rw [if_pos (settled.mpr isDue)] at turns
      have kept := (@turns_present _ options schema (scaledTime options schema last) _ others
          (left options schema (scaledTime options schema first)
          (sortedRows timeName batch))) ((presentAfter name member).mpr (values name member))
      have deques := congrArg Prod.snd turns
      dsimp only at deques
      rw [← deques] at kept
      exact kept
    · intro notDue
      rw [if_neg fun isSettled => notDue (settled.mp isSettled), Prod.mk.injEq] at turns
      obtain ⟨none, deques⟩ := turns
      have all : reachedFromFirst options schema received = received :=
        not_not.mp fun some => notDue (.inr some)
      rw [none, List.length_nil, List.drop_zero] at buffers
      refine ⟨after, succeeds, started, buffers, all, fun name member => ?_⟩
      have present := presentAfter name member
      rw [← deques, all] at present
      exact present

theorem reached_of_unreached {schema : Schema} {rows : List Row} (later : List Row)
    (some : reachedFromFirst options schema rows ≠ rows) :
    reachedFromFirst options schema (rows ++ later) = reachedFromFirst options schema rows ∧
      reachedFromFirst options schema (rows ++ later) ≠ rows ++ later := by
  cases rows with
  | nil => exact absurd rfl some
  | cons first rest =>
      have same : reachedFromFirst options schema ((first :: rest) ++ later) =
          reachedFromFirst options schema (first :: rest) := by
        change taken options schema (scaledTime options schema first) ((first :: rest) ++ later) =
          taken options schema (scaledTime options schema first) (first :: rest)
        unfold taken
        rw [List.takeWhile_append, if_neg]
        intro full
        exact some ((List.takeWhile_prefix _).eq_of_length full)
      refine ⟨same, fun all => ?_⟩
      rw [same] at all
      have short : (reachedFromFirst options schema (first :: rest)).length ≤
          (first :: rest).length := (List.takeWhile_sublist _).length_le
      have none : later = [] := by
        have lengths := congrArg List.length all
        rw [List.length_append] at lengths
        exact List.length_eq_zero_iff.mp (by omega)
      rw [none, List.append_nil] at all
      exact some all

theorem succeeds_of_pending {schema : Schema} (calculator : DerivativeCalculator)
    (unit : options.unitTimeSegment ≠ 0)
    (own : ∀ time, ¬isBehind options time time) (self : ∀ time, isReached options time time)
    (named : schema.metadata.timeColumnName = some timeName)
    (waits : options.noWaitFuture ≠ true) (batches : List RecordBatch)
    (admissible : ∀ batch ∈ batches, Admissible options timeName batch)
    (readable : ∀ batch ∈ batches, ReadableRows options batch.schema batch.rows)
    {rows : List Row} {handler : DerivativeHandler}
    (pending : Pending options schema rows handler) (started : handler.bufferedBatch ≠ none) :
    Succeeds calculator options handler batches ↔
      (∀ batch ∈ batches, batch.schema.equalFields schema) ∧
        (reachedFromFirst options schema (rows ++ batches.flatMap (sortedRows timeName)) =
            rows ++ batches.flatMap (sortedRows timeName) ∨
          HaveValues options schema
            (reachedFromFirst options schema (rows ++ batches.flatMap (sortedRows timeName)))) := by
  induction batches generalizing rows handler with
  | nil => simp [Succeeds, pending.reached]
  | cons batch rest induction =>
      have others := fun other member => admissible other (List.mem_cons_of_mem _ member)
      have readableLater := fun other member => readable other (List.mem_cons_of_mem _ member)
      rw [List.forall_mem_cons, List.flatMap_cons, ← List.append_assoc]
      by_cases same : batch.schema.equalFields schema
      · obtain ⟨fails, starts, waitsOn⟩ := pending_call calculator unit own self named pending
          (absurd · started) same (admissible batch (by simp)) (readable batch (by simp))
        by_cases all : reachedFromFirst options schema (rows ++ sortedRows timeName batch) =
            rows ++ sortedRows timeName batch
        · obtain ⟨after, succeeds, startedAfter, pendingAfter⟩ :=
            waitsOn (not_or.mpr ⟨waits, not_not.mpr all⟩)
          rw [succeeds, induction others readableLater pendingAfter startedAfter]
          exact ⟨fun ⟨equal, values⟩ => ⟨⟨same, equal⟩, values⟩,
            fun ⟨⟨_, equal⟩, values⟩ => ⟨equal, values⟩⟩
        · obtain ⟨kept, some⟩ := reached_of_unreached
            (rest.flatMap (sortedRows timeName)) all
          rw [kept]
          by_cases values : HaveValues options schema
              (reachedFromFirst options schema (rows ++ sortedRows timeName batch))
          · obtain ⟨_, after, succeeds, startedAfter, buffers, present⟩ :=
              starts (.inr all) values
            rw [succeeds, succeeds_of_present calculator unit own self named rest others
              readableLater buffers startedAfter present]
            exact ⟨fun equal => ⟨⟨same, equal⟩, .inr values⟩, fun ⟨⟨_, equal⟩, _⟩ => equal⟩
          · refine iff_of_false (fails (.inr all) values rest) ?_
            rintro ⟨_, whole | now⟩
            · exact some (kept.trans whole)
            · exact values now
      · refine iff_of_false ?_ fun inDomain => same inDomain.1.1
        rintro ⟨_, _, returned, _⟩
        exact same (equal_fields_of_returned pending.buffers started returned)

/-- A first call divides by the unit, and pops an empty deque when the row is behind itself. -/
theorem domain_of_returned {calculator : DerivativeCalculator} {after : DerivativeHandler}
    {batch : RecordBatch} {answer : List RecordBatch × List (List CalculatorCall)}
    (admissible : Admissible options timeName batch)
    (returned : handleWithCalls calculator options batch {} = .ok answer after) :
    options.unitTimeSegment ≠ 0 ∧ 0 ≤ options.derivativeNeighbourhood := by
  obtain ⟨name, sorted, concat, timeColumn, valueColumns, bounds, isName, sorts, concatenates,
    found, values, isLeft, _, _, calls, middle, calculated⟩ := reads_of_returned returned
  have zero : getScaledPositionTime options 0 timeColumn = .ok bounds.leftBoundTime := isLeft
  have unit : options.unitTimeSegment ≠ 0 := by
    intro isZero
    unfold getScaledPositionTime at zero
    simp only [isZero, if_true] at zero
    cases scalar : timeColumn.getScalar 0 with
    | error fault => rw [scalar] at zero; cases zero
    | ok timeScalar =>
        rw [scalar] at zero
        cases cast : castTimestampScalar timeColumn.type timeScalar .nano with
        | error fault =>
            simp only [bind, Except.bind, cast] at zero
            cases zero
        | ok timestamp =>
            simp only [bind, Except.bind, cast] at zero
            cases zero
  refine ⟨unit, ?_⟩
  by_contra negative
  have behind : isBehind options bounds.leftBoundTime bounds.leftBoundTime := by
    rw [isBehind, scaled_distance_self, gt_iff_lt, ← not_le, Numbers.round_nonneg_iff]
    exact negative
  have rows : concat.numRows ≠ 0 := by
    obtain ⟨_, concatRows⟩ := concatenate_buffered_ok concatenates
    obtain ⟨own, ownSorts, _, _, nonempty⟩ := sort_of_admissible admissible
    have isTime : name = timeName := by
      have named := time_column_name_of_returned isName
      rw [admissible.named, Option.some.injEq] at named
      exact named.symm
    rw [isTime, ownSorts, Except.ok.injEq] at sorts
    subst sorts
    rw [RecordBatch.numRows, concatRows]
    simpa using nonempty
  obtain ⟨count, isCount⟩ := Nat.exists_eq_succ_of_ne_zero rows
  rw [isCount, calculateRows, zero, bind_of_ok (of_except_ok _ _), bind_of_ok (get_apply _),
    moveLeftBound, if_pos behind] at calculated
  cases calculated

/-- A run on admissible batches succeeds exactly when it is in the domain. -/
theorem succeeds_iff_in_domain (calculator : DerivativeCalculator) (batches : List RecordBatch)
    (admissible : ∀ batch ∈ batches, Admissible options timeName batch) :
    Succeeds calculator options {} batches ↔ InDomain options timeName batches := by
  cases batches with
  | nil => exact Iff.rfl
  | cons batch rest =>
      have firstAdmissible := admissible batch (by simp)
      have others := fun other member => admissible other (List.mem_cons_of_mem _ member)
      by_cases domain : options.unitTimeSegment ≠ 0 ∧ 0 ≤ options.derivativeNeighbourhood
      · obtain ⟨unit, reaches⟩ := domain
        have own := not_behind_self reaches
        have self := reached_self reaches
        by_cases readable : ∀ other ∈ batch :: rest,
            ReadableRows options other.schema other.rows
        swap
        · exact iff_of_false
            (fun succeeds => readable (readable_of_succeeds self _ admissible succeeds))
            fun inDomain => readable inDomain.2.2.1
        have readableLater := fun other member => readable other (List.mem_cons_of_mem _ member)
        obtain ⟨fails, starts, waitsOn⟩ := pending_call calculator unit own self
          firstAdmissible.named (pending_initially options batch.schema) (fun _ => rfl)
          (equal_fields_refl batch.schema) firstAdmissible (readable batch (by simp))
        rw [List.nil_append] at fails starts waitsOn
        have condition : InDomain options timeName (batch :: rest) ↔
            (∀ other ∈ rest, other.schema.equalFields batch.schema) ∧
              ValuesInTime options batch.schema timeName batch rest :=
          ⟨fun inDomain => inDomain.2.2.2, fun inDomain => ⟨unit, reaches, readable, inDomain⟩⟩
        rw [condition]
        have named := firstAdmissible.named
        unfold ValuesInTime
        by_cases noWait : options.noWaitFuture = true
        · rw [if_pos noWait]
          by_cases values : HaveValues options batch.schema
              (reachedFromFirst options batch.schema (sortedRows timeName batch))
          · obtain ⟨_, after, succeeds, started, buffers, present⟩ := starts (.inl noWait) values
            rw [succeeds, succeeds_of_present calculator unit own self named rest others
              readableLater buffers started present]
            exact ⟨fun equal => ⟨equal, values⟩, And.left⟩
          · exact iff_of_false (fails (.inl noWait) values rest) fun inDomain => values inDomain.2
        · rw [if_neg noWait]
          dsimp only
          rw [List.flatMap_cons]
          by_cases all : reachedFromFirst options batch.schema (sortedRows timeName batch) =
              sortedRows timeName batch
          · obtain ⟨after, succeeds, started, pending⟩ :=
              waitsOn (not_or.mpr ⟨noWait, not_not.mpr all⟩)
            rw [succeeds, succeeds_of_pending calculator unit own self named noWait rest others
              readableLater pending started]
          · obtain ⟨kept, some⟩ := reached_of_unreached (rest.flatMap (sortedRows timeName)) all
            rw [kept]
            by_cases values : HaveValues options batch.schema
                (reachedFromFirst options batch.schema (sortedRows timeName batch))
            · obtain ⟨_, after, succeeds, started, buffers, present⟩ := starts (.inr all) values
              rw [succeeds, succeeds_of_present calculator unit own self named rest others
                readableLater buffers started present]
              exact ⟨fun equal => ⟨equal, .inr values⟩, And.left⟩
            · refine iff_of_false (fails (.inr all) values rest) ?_
              rintro ⟨_, whole | now⟩
              · exact some (kept.trans whole)
              · exact values now
      · refine iff_of_false ?_ fun inDomain => domain ⟨inDomain.1, inDomain.2.1⟩
        rintro ⟨_, _, returned, _⟩
        exact domain (domain_of_returned firstAdmissible returned)

end Calls

end StreamDataProcessor.Handlers.Derivative
