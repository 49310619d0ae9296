import StreamDataProcessor.Handlers.Derivative

/-!
# The steps of the derivative handler

What one call reads of its rows, what each of its loops does to the deques, and
what is left of the value columns: the loops as operations on lists of rows.
-/

namespace StreamDataProcessor.Handlers.Derivative

open Foundation.Effect Foundation.Binary64 Arrow Metadata Utils

set_option autoImplicit false

def timeCell (schema : Schema) (row : Row) : Scalar :=
  (schema.metadata.timeColumnName.map fun name => schema.cell name row).getD none

def timeType (schema : Schema) : DataType :=
  ((schema.metadata.timeColumnName.bind schema.fieldIndex).bind (schema.types[·]?)).getD .na

section Steps

variable [Numbers]

/-- The nanoseconds of a row, where its time can be read. -/
def keptNanoseconds (schema : Schema) (row : Row) : Int :=
  match castTimestampScalar (timeType schema) (timeCell schema row) .nano with
  | .ok timestamp => Numbers.keep (integerValue timestamp)
  | .error _ => 0

def scaledTime (options : DerivativeOptions) (schema : Schema) (row : Row) : Int :=
  Numbers.round ((keptNanoseconds schema row).tdiv options.unitTimeSegment)

/-- The only quotient of 64 bits that leaves them is not taken. -/
def Divides (options : DerivativeOptions) (schema : Schema) (rows : List Row) : Prop :=
  options.unitTimeSegment = -1 → ∀ row ∈ rows, keptNanoseconds schema row ≠ -2 ^ 63

def doubleOf (cell : Scalar) : Double := (cell.bind Value.toDouble).getD (.finite 0)

theorem scaled_distance_self (options : DerivativeOptions) (time : Int) :
    scaledDistance options time time = 0 := by
  rw [scaledDistance, Int.sub_self, Numbers.round_zero, Int.zero_mul, Numbers.round_zero]

theorem not_behind_self {options : DerivativeOptions}
    (reaches : 0 ≤ options.derivativeNeighbourhood) (time : Int) :
    ¬isBehind options time time := by
  rw [isBehind, scaled_distance_self, gt_iff_lt, not_lt, Numbers.round_nonneg_iff]
  exact reaches

theorem reached_self {options : DerivativeOptions}
    (reaches : 0 ≤ options.derivativeNeighbourhood) (time : Int) :
    isReached options time time := by
  rw [isReached, scaled_distance_self, Numbers.round_nonneg_iff]
  exact reaches

def caseColumns (options : DerivativeOptions) : List String :=
  options.derivativeCases.map fun derivativeCase => derivativeCase.2.valuesColumnName

def pushRow (options : DerivativeOptions) (schema : Schema) (handler : DerivativeHandler)
    (row : Row) : DerivativeHandler :=
  let time := scaledTime options schema row
  { handler with
    allBufferedTimes := handler.allBufferedTimes ++ [time]
    bufferedValues := fun name =>
      if name ∈ caseColumns options ∧ (schema.cell name row).isSome then
        let buffered := (handler.bufferedValues name).getD {}
        some ⟨buffered.times ++ [time], buffered.values ++ [doubleOf (schema.cell name row)]⟩
      else handler.bufferedValues name }

def pushRows (options : DerivativeOptions) (schema : Schema) (handler : DerivativeHandler)
    (rows : List Row) : DerivativeHandler :=
  rows.foldl (pushRow options schema) handler

@[simp] theorem push_rows_nil (options : DerivativeOptions) (schema : Schema)
    (handler : DerivativeHandler) : pushRows options schema handler [] = handler := rfl

@[simp] theorem push_rows_cons (options : DerivativeOptions) (schema : Schema)
    (handler : DerivativeHandler) (row : Row) (rows : List Row) :
    pushRows options schema handler (row :: rows) =
      pushRows options schema (pushRow options schema handler row) rows := rfl

@[simp] theorem push_rows_times (options : DerivativeOptions) (schema : Schema)
    (handler : DerivativeHandler) (rows : List Row) :
    (pushRows options schema handler rows).allBufferedTimes =
      handler.allBufferedTimes ++ rows.map (scaledTime options schema) := by
  induction rows generalizing handler with
  | nil => simp
  | cons row rows induction => simp [induction, pushRow]

/-- A column has a deque once a value of it was pushed. -/
theorem push_rows_present (options : DerivativeOptions) (schema : Schema)
    (handler : DerivativeHandler) (rows : List Row) (name : String) :
    ((pushRows options schema handler rows).bufferedValues name).isSome ↔
      (handler.bufferedValues name).isSome ∨
        name ∈ caseColumns options ∧ ∃ row ∈ rows, (schema.cell name row).isSome := by
  induction rows generalizing handler with
  | nil => simp
  | cons row rows induction =>
      rw [push_rows_cons, induction]
      simp only [pushRow, List.mem_cons, exists_eq_or_imp]
      split
      · next pushed => simp [pushed]
      · next not =>
        constructor
        · rintro (before | ⟨named, later⟩)
          · exact .inl before
          · exact .inr ⟨named, .inr later⟩
        · rintro (before | ⟨named, here | later⟩)
          · exact .inl before
          · exact absurd ⟨named, here⟩ not
          · exact .inr ⟨named, later⟩

section Columns

variable {options : DerivativeOptions}

/-- The time column of the rows, as the handler reads it. -/
def ReadsScaled (options : DerivativeOptions) (schema : Schema) (timeColumn : Column)
    (rows : List Row) : Prop :=
  ∀ position row, rows[position]? = some row →
    getScaledPositionTime options position timeColumn = .ok (scaledTime options schema row)

structure ReadsValues (options : DerivativeOptions) (schema : Schema)
    (valueColumns : List (String × Column)) (rows : List Row) : Prop where
  nodup : (valueColumns.map Prod.fst).Nodup
  names : ∀ name, name ∈ valueColumns.map Prod.fst ↔ name ∈ caseColumns options
  cells : ∀ entry ∈ valueColumns, entry.2.cells = rows.map (schema.cell entry.1)

def Castable (valueColumns : List (String × Column)) : Prop :=
  ∀ entry ∈ valueColumns, ∀ cell ∈ entry.2.cells, ∃ cast,
    castToFloat64 entry.2.type cell = .ok cast

theorem scaled_position_time_eq {schema : Schema} {timeColumn : Column} {rows : List Row}
    (cells : timeColumn.cells = rows.map (timeCell schema))
    (type : timeColumn.type = timeType schema) {position : Nat} {row : Row}
    (found : rows[position]? = some row) :
    getScaledPositionTime options position timeColumn =
      (castTimestampScalar (timeType schema) (timeCell schema row) .nano >>= fun timestamp =>
        if options.unitTimeSegment = 0 then .error (.undefined "division by zero")
        else if options.unitTimeSegment = -1 ∧
            Numbers.keep (integerValue timestamp) = -2 ^ 63 then
          .error (.undefined "the quotient does not fit 64 bits")
        else .ok (Numbers.round
          ((Numbers.keep (integerValue timestamp)).tdiv options.unitTimeSegment))) := by
  simp only [getScaledPositionTime, Column.getScalar, cells, type, List.getElem?_map, found,
    Option.map_some]
  rfl

theorem reads_scaled_of_castable {schema : Schema} {timeColumn : Column} {rows : List Row}
    (cells : timeColumn.cells = rows.map (timeCell schema))
    (type : timeColumn.type = timeType schema) (unit : options.unitTimeSegment ≠ 0)
    (divides : Divides options schema rows) (castable : ∀ row ∈ rows, ∃ timestamp,
      castTimestampScalar (timeType schema) (timeCell schema row) .nano = .ok timestamp) :
    ReadsScaled options schema timeColumn rows := by
  intro position row found
  have member := List.mem_of_getElem? found
  obtain ⟨timestamp, cast⟩ := castable row member
  have fits : ¬(options.unitTimeSegment = -1 ∧
      Numbers.keep (integerValue timestamp) = -2 ^ 63) := by
    rintro ⟨isUnit, least⟩
    have divided := divides isUnit row member
    rw [keptNanoseconds, cast] at divided
    exact divided least
  rw [scaled_position_time_eq cells type found, scaledTime, keptNanoseconds, cast]
  simp only [bind, Except.bind, if_neg unit, if_neg fits]

omit [Numbers] in
theorem time_column_name_of_returned {batch : RecordBatch} {name : String}
    (returned : getTimeColumnNameMetadata batch = .ok name) :
    batch.schema.metadata.timeColumnName = some name := by
  unfold getTimeColumnNameMetadata getColumnNameMetadata at returned
  split at returned
  · cases returned
  · cases found : batch.schema.metadata.timeColumnName with
    | none => rw [found] at returned; cases returned
    | some own => rw [found, Except.ok.injEq] at returned; rw [returned]

omit [Numbers] in
theorem time_column_cells {batch : RecordBatch} {name : String} {timeColumn : Column}
    (named : batch.schema.metadata.timeColumnName = some name)
    (found : batch.getColumnByName name = some timeColumn) :
    timeColumn.cells = batch.rows.map (timeCell batch.schema) ∧
      timeColumn.type = timeType batch.schema := by
  obtain ⟨cells, typed⟩ := get_column_by_name_cells found
  constructor
  · rw [cells]
    apply List.map_congr_left
    intro row _
    rw [timeCell, named, Option.map_some, Option.getD_some]
  · rw [timeType, named, Option.bind_some, typed, Option.getD_some]

omit [Numbers] in
theorem find_value_columns_ok {batch : RecordBatch}
    {cases : List (String × DerivativeCase)} {found columns : List (String × Column)}
    (returned : findValueColumns batch cases found = .ok columns)
    (nodup : (found.map Prod.fst).Nodup)
    (read : ∀ entry ∈ found, batch.getColumnByName entry.1 = some entry.2) :
    (columns.map Prod.fst).Nodup ∧
      (∀ entry ∈ columns, batch.getColumnByName entry.1 = some entry.2) ∧
      ∀ name, name ∈ columns.map Prod.fst ↔
        name ∈ found.map Prod.fst ∨ name ∈ cases.map fun entry => entry.2.valuesColumnName := by
  induction cases generalizing found with
  | nil =>
      rw [findValueColumns, Except.ok.injEq] at returned
      subst returned
      exact ⟨nodup, read, by simp⟩
  | cons entry cases induction =>
      obtain ⟨_, derivativeCase⟩ := entry
      rw [findValueColumns] at returned
      split at returned
      · next known =>
        obtain ⟨distinct, reads, names⟩ := induction returned nodup read
        refine ⟨distinct, reads, fun name => ?_⟩
        rw [names name, List.map_cons, List.mem_cons]
        constructor
        · rintro (inFound | inCases)
          · exact .inl inFound
          · exact .inr (.inr inCases)
        · rintro (inFound | rfl | inCases)
          · exact .inl inFound
          · exact .inl known
          · exact .inr inCases
      · next new =>
        cases column : batch.getColumnByName derivativeCase.valuesColumnName with
        | none => rw [column] at returned; cases returned
        | some values =>
            rw [column] at returned
            have nodupNext : ((found ++ [(derivativeCase.valuesColumnName, values)]).map
                Prod.fst).Nodup := by
              rw [List.map_append, List.nodup_append]
              refine ⟨nodup, by simp, ?_⟩
              intro name inFound other isNew
              rw [List.map_singleton, List.mem_singleton] at isNew
              subst isNew
              rintro rfl
              exact new inFound
            have readNext : ∀ entry ∈ found ++ [(derivativeCase.valuesColumnName, values)],
                batch.getColumnByName entry.1 = some entry.2 := by
              intro entry member
              rcases List.mem_append.mp member with inFound | isNew
              · exact read entry inFound
              · rw [List.mem_singleton.mp isNew]
                exact column
            obtain ⟨distinct, reads, names⟩ := induction returned nodupNext readNext
            refine ⟨distinct, reads, fun name => ?_⟩
            rw [names name]
            simp only [List.map_append, List.map_cons, List.map_nil, List.mem_append,
              List.mem_cons, List.not_mem_nil, or_false, or_assoc]

omit [Numbers] in
theorem reads_values_of_found {batch : RecordBatch} {valueColumns : List (String × Column)}
    (returned : findValueColumns batch options.derivativeCases [] = .ok valueColumns) :
    ReadsValues options batch.schema valueColumns batch.rows := by
  obtain ⟨nodup, reads, names⟩ :=
    find_value_columns_ok returned List.nodup_nil fun entry member => nomatch member
  refine ⟨nodup, fun name => ?_, fun entry member => ?_⟩
  · rw [names name, caseColumns]
    simp
  · exact (get_column_by_name_cells (reads entry member)).1

end Columns

section Loops

variable {options : DerivativeOptions} {schema : Schema} {rows : List Row}
  {timeColumn : Column} {valueColumns : List (String × Column)}

omit [Numbers] in
theorem double_of_cast {type : DataType} {value : Value} {cast : Scalar}
    (isCast : castToFloat64 type (some value) = .ok cast) :
    doubleValue cast = doubleOf (some value) := by
  unfold castToFloat64 at isCast
  dsimp only at isCast
  split at isCast
  · cases isCast
  · cases double : value.toDouble with
    | none => rw [double] at isCast; cases isCast
    | some number =>
        rw [double, Except.ok.injEq] at isCast
        rw [← isCast, doubleOf, Option.bind_some, double, Option.getD_some, doubleValue]

omit [Numbers] in
theorem mem_names_cons {name other : String} {column : Column}
    {columns : List (String × Column)} (differ : ¬other = name) :
    other ∈ ((name, column) :: columns).map Prod.fst ↔ other ∈ columns.map Prod.fst := by
  rw [List.map_cons, List.mem_cons]
  exact ⟨fun member => member.resolve_left differ, .inr⟩

omit [Numbers] in
theorem push_values_ends (columns : List (String × Column)) (handler : DerivativeHandler)
    {position : Nat} {row : Row} (found : rows[position]? = some row) (time : Int)
    (nodup : (columns.map Prod.fst).Nodup)
    (cells : ∀ entry ∈ columns, entry.2.cells = rows.map (schema.cell entry.1)) :
    Ends (fun _ _ => ¬Castable columns)
      (fun _ after => after = { handler with
        bufferedValues := fun name =>
          if name ∈ columns.map Prod.fst ∧ (schema.cell name row).isSome then
            let buffered := (handler.bufferedValues name).getD {}
            some ⟨buffered.times ++ [time], buffered.values ++ [doubleOf (schema.cell name row)]⟩
          else handler.bufferedValues name })
      (pushValues time position columns handler) := by
  induction columns generalizing handler with
  | nil => simp [pushValues, Ends]
  | cons entry columns induction =>
      obtain ⟨name, column⟩ := entry
      rw [List.map_cons, List.nodup_cons] at nodup
      have cell : column.getScalar position = .ok (schema.cell name row) := by
        have own : column.cells = rows.map (schema.cell name) := cells (name, column) (by simp)
        simp only [Column.getScalar, own, List.getElem?_map, found, Option.map_some]
      have others := fun entry member => cells entry (List.mem_cons_of_mem _ member)
      have weaker : ¬Castable columns → ¬Castable ((name, column) :: columns) :=
        fun not all => not fun entry member => all entry (List.mem_cons_of_mem _ member)
      rw [pushValues, cell]
      dsimp only
      rw [bind_of_ok (of_except_ok _ _)]
      cases read : schema.cell name row with
      | none =>
          refine ends_mono (induction handler nodup.2 others) (fun _ _ => weaker) ?_
          rintro _ after rfl
          congr 1
          funext other
          by_cases same : other = name
          · subst same
            simp [read]
          · have known := @mem_names_cons name other column columns same
            simp only [known]
      | some value =>
          dsimp only
          refine (@ends_bind _ _ _ _ _ _ _ _ (fun cast after =>
            castToFloat64 column.type (some value) = .ok cast ∧ after = handler)) ?_ ?_
          · apply ends_of_except
            · intro error raised all
              have inCells : some value ∈ column.cells := by
                have own := cells (name, column) (by simp)
                rw [own]
                exact List.mem_map.mpr ⟨row, List.mem_of_getElem? found, read⟩
              obtain ⟨cast, isCast⟩ := all (name, column) (by simp) (some value) inCells
              rw [isCast] at raised
              cases raised
            · exact fun cast isCast => ⟨isCast, rfl⟩
          · rintro cast after ⟨isCast, rfl⟩
            rw [bind_of_ok (get_apply _), bind_of_ok (set_apply _ _)]
            refine ends_mono (induction (pushValue name time (doubleValue cast) after)
              nodup.2 others) (fun _ _ => weaker) ?_
            rintro _ _ rfl
            simp only [pushValue]
            congr 1
            funext other
            by_cases same : other = name
            · subst same
              simp [nodup.1, read, double_of_cast isCast]
            · have known := @mem_names_cons name other column columns same
              simp only [known, if_neg same]

theorem push_row_ends (reads : ReadsValues options schema valueColumns rows)
    (handler : DerivativeHandler) {position : Nat} {row : Row}
    (found : rows[position]? = some row) :
    Ends (fun _ _ => ¬Castable valueColumns)
      (fun _ after => after = pushRow options schema handler row)
      ((do pushTime (scaledTime options schema row)
           pushValues (scaledTime options schema row) position valueColumns : Step Unit)
        handler) := by
  have pushed : pushTime (scaledTime options schema row) handler = .ok ()
      { handler with
        allBufferedTimes := handler.allBufferedTimes ++ [scaledTime options schema row] } := rfl
  rw [bind_of_ok pushed]
  refine ends_mono (push_values_ends valueColumns _ found _ reads.nodup reads.cells)
    (fun _ _ raised => raised) ?_
  rintro _ after rfl
  simp only [pushRow, reads.names]

def taken (options : DerivativeOptions) (schema : Schema) (derivativeTime : Int)
    (coming : List Row) : List Row :=
  coming.takeWhile fun row => isReached options derivativeTime (scaledTime options schema row)

def left (options : DerivativeOptions) (schema : Schema) (derivativeTime : Int)
    (coming : List Row) : List Row :=
  coming.dropWhile fun row => isReached options derivativeTime (scaledTime options schema row)

/-- The time of the first row to come, or else of the last row. -/
def rightTime (options : DerivativeOptions) (schema : Schema) (last : Int)
    (coming : List Row) : Int :=
  (coming.head?.map (scaledTime options schema)).getD last

theorem move_right_bound_ends (reads : ReadsScaled options schema timeColumn rows)
    (values : ReadsValues options schema valueColumns rows) (derivativeTime : Int) {last : Int}
    (isLast : ∀ row ∈ rows.getLast?, last = scaledTime options schema row)
    (coming : List Row) {position : Nat} (handler : DerivativeHandler)
    (dropped : rows.drop position = coming) :
    Ends (fun _ _ => ¬Castable valueColumns)
      (fun result after =>
        after = pushRows options schema handler (taken options schema derivativeTime coming) ∧
        rows.drop result.2 = left options schema derivativeTime coming ∧
        result.1 = rightTime options schema last (left options schema derivativeTime coming))
      (moveRightBound options timeColumn valueColumns derivativeTime coming.length
        (rightTime options schema last coming) position handler) := by
  induction coming generalizing position handler with
  | nil => exact ⟨rfl, dropped, rfl⟩
  | cons row coming induction =>
      have found : rows[position]? = some row := by
        rw [← List.head?_drop, dropped, List.head?_cons]
      have later : rows.drop (position + 1) = coming := by
        rw [← List.tail_drop, dropped, List.tail_cons]
      have bound : rightTime options schema last (row :: coming) =
          scaledTime options schema row := rfl
      rw [bound, List.length_cons, moveRightBound]
      split
      · next reached =>
        have takes : taken options schema derivativeTime (row :: coming) =
            row :: taken options schema derivativeTime coming :=
          List.takeWhile_cons_of_pos (by simpa using reached)
        have leaves : left options schema derivativeTime (row :: coming) =
            left options schema derivativeTime coming :=
          List.dropWhile_cons_of_pos (by simpa using reached)
        rw [takes, leaves, ← bind_assoc]
        refine ends_bind (push_row_ends values handler found) ?_
        rintro _ _ rfl
        cases coming with
        | nil =>
            have ends := congrArg List.getLast? dropped
            rw [List.getLast?_drop] at ends
            split at ends
            · cases ends
            · exact ⟨rfl, later, (isLast row ends).symm⟩
        | cons next coming =>
            have foundNext : rows[position + 1]? = some next := by
              rw [← List.head?_drop, later, List.head?_cons]
            rw [if_neg (by simp), reads _ _ foundNext, bind_of_ok (of_except_ok _ _)]
            exact induction _ later
      · next ahead =>
        have takes : taken options schema derivativeTime (row :: coming) = [] :=
          List.takeWhile_cons_of_neg (by simpa using ahead)
        have leaves : left options schema derivativeTime (row :: coming) = row :: coming :=
          List.dropWhile_cons_of_neg (by simpa using ahead)
        rw [takes, leaves]
        exact ⟨rfl, dropped, rfl⟩

theorem pop_values_idem (options : DerivativeOptions) (derivativeTime : Int) (times : List Int)
    (values : List Double) :
    (popValues options derivativeTime times values).pop options derivativeTime =
      popValues options derivativeTime times values := by
  induction times generalizing values with
  | nil => rfl
  | cons time times induction =>
      by_cases behind : isBehind options derivativeTime time
      · simp only [popValues, if_pos behind, induction]
      · simp only [popValues, if_neg behind, BufferedValues.pop]

theorem pop_idem (options : DerivativeOptions) (derivativeTime : Int)
    (buffered : BufferedValues) :
    (buffered.pop options derivativeTime).pop options derivativeTime =
      buffered.pop options derivativeTime :=
  pop_values_idem options derivativeTime buffered.times buffered.values

def moveLeft (options : DerivativeOptions) (derivativeTime : Int) (handler : DerivativeHandler) :
    DerivativeHandler :=
  if ∃ time ∈ handler.allBufferedTimes.head?, isBehind options derivativeTime time then
    { handler with
      allBufferedTimes := handler.allBufferedTimes.dropWhile (isBehind options derivativeTime ·)
      bufferedValues := fun name =>
        (handler.bufferedValues name).map (BufferedValues.pop options derivativeTime) }
  else handler

theorem move_left_times (options : DerivativeOptions) (derivativeTime : Int)
    (handler : DerivativeHandler) :
    (moveLeft options derivativeTime handler).allBufferedTimes =
      handler.allBufferedTimes.dropWhile (isBehind options derivativeTime ·) := by
  unfold moveLeft
  split
  · rfl
  · next none =>
    cases times : handler.allBufferedTimes with
    | nil => rfl
    | cons time rest =>
        rw [List.dropWhile_cons_of_neg]
        simpa [times] using none

theorem move_left_present (options : DerivativeOptions) (derivativeTime : Int)
    (handler : DerivativeHandler) (name : String) :
    ((moveLeft options derivativeTime handler).bufferedValues name).isSome =
      (handler.bufferedValues name).isSome := by
  unfold moveLeft
  split
  · exact Option.isSome_map
  · rfl

/-- The left bound stops at the first time that is not behind, and the deques of the
columns lose what is behind, if the deque of all times loses anything. -/
theorem move_left_bound_eq {derivativeTime : Int}
    (own : ¬isBehind options derivativeTime derivativeTime) (handler : DerivativeHandler) :
    moveLeftBound options derivativeTime (handler.allBufferedTimes.headD derivativeTime)
        handler.allBufferedTimes handler.bufferedValues =
      .ok ((moveLeft options derivativeTime handler).allBufferedTimes.headD derivativeTime,
        (moveLeft options derivativeTime handler).allBufferedTimes,
        (moveLeft options derivativeTime handler).bufferedValues) := by
  obtain ⟨times, values, batch⟩ := handler
  induction times generalizing values with
  | nil =>
      rw [List.headD_nil, moveLeftBound, if_neg own]
      rfl
  | cons time times induction =>
      by_cases behind : isBehind options derivativeTime time
      · have moves : moveLeft options derivativeTime ⟨time :: times, values, batch⟩ =
            { bufferedBatch := batch
              allBufferedTimes := times.dropWhile (isBehind options derivativeTime ·)
              bufferedValues := fun name =>
                (values name).map (BufferedValues.pop options derivativeTime) } := by
          rw [moveLeft, if_pos ⟨time, rfl, behind⟩]
          have drops : (time :: times).dropWhile (isBehind options derivativeTime ·) =
              times.dropWhile (isBehind options derivativeTime ·) :=
            List.dropWhile_cons_of_pos (by simpa using behind)
          exact congrArg (fun kept => DerivativeHandler.mk kept _ _) drops
        have again := induction fun name =>
          (values name).map (BufferedValues.pop options derivativeTime)
        have idempotent : (moveLeft options derivativeTime ⟨times, fun name =>
              (values name).map (BufferedValues.pop options derivativeTime), batch⟩) =
            { bufferedBatch := batch
              allBufferedTimes := times.dropWhile (isBehind options derivativeTime ·)
              bufferedValues := fun name =>
                (values name).map (BufferedValues.pop options derivativeTime) } := by
          unfold moveLeft
          split
          · congr 1
            funext name
            rw [Option.map_map]
            congr 1
            funext buffered
            exact pop_idem options derivativeTime buffered
          · next none =>
            congr 1
            cases times with
            | nil => rfl
            | cons next rest =>
                rw [List.dropWhile_cons_of_neg]
                simpa using none
        rw [idempotent] at again
        rw [moves, List.headD_cons, moveLeftBound, if_pos behind]
        exact again
      · have stays : moveLeft options derivativeTime ⟨time :: times, values, batch⟩ =
            ⟨time :: times, values, batch⟩ := by
          rw [moveLeft, if_neg]
          rintro ⟨other, isHead, isOld⟩
          rw [List.head?_cons, Option.mem_some_iff] at isHead
          exact behind (isHead ▸ isOld)
        rw [stays, List.headD_cons, moveLeftBound, if_neg behind]

/-- The deques after the turn of a row, with the rows to come. -/
def rowTurn (options : DerivativeOptions) (schema : Schema) (row : Row) (coming : List Row)
    (handler : DerivativeHandler) : DerivativeHandler :=
  pushRows options schema (moveLeft options (scaledTime options schema row) handler)
    (taken options schema (scaledTime options schema row) coming)

/-- A row is calculated once the right bound is out of its reach. -/
def isSettled (options : DerivativeOptions) (schema : Schema) (last : Int) (row : Row)
    (coming : List Row) : Prop :=
  options.noWaitFuture = true ∨
    ¬isReached options (scaledTime options schema row) (rightTime options schema last
      (left options schema (scaledTime options schema row) coming))

instance (options : DerivativeOptions) (schema : Schema) (last : Int) (row : Row)
    (coming : List Row) : Decidable (isSettled options schema last row coming) :=
  inferInstanceAs (Decidable (_ ∨ _))

def callsAt (options : DerivativeOptions) (schema : Schema) (row : Row)
    (handler : DerivativeHandler) : List CalculatorCall :=
  options.derivativeCases.map fun derivativeCase =>
    let buffered := (handler.bufferedValues derivativeCase.2.valuesColumnName).getD {}
    ⟨buffered.times, buffered.values, scaledTime options schema row, derivativeCase.2.order⟩

/-- The loop over rows as an operation on lists: the calls of each calculated row, and
the deques left. -/
def turns (options : DerivativeOptions) (schema : Schema) (last : Int) :
    List Row → List Row → DerivativeHandler → List (List CalculatorCall) × DerivativeHandler
  | [], _, handler => ([], handler)
  | row :: rest, coming, handler =>
      let moved := rowTurn options schema row coming handler
      if isSettled options schema last row coming then
        let (calls, after) := turns options schema last rest
          (left options schema (scaledTime options schema row) coming) moved
        (callsAt options schema row moved :: calls, after)
      else ([], moved)

/-- The first row would be calculated while a column has had no value. -/
def Blocked (options : DerivativeOptions) (schema : Schema) (last : Int) (rows coming : List Row)
    (handler : DerivativeHandler) : Prop :=
  ∃ row ∈ rows.head?, isSettled options schema last row coming ∧
    ∃ name ∈ caseColumns options,
      (rowTurn options schema row coming handler).bufferedValues name = none

omit [Numbers] in
theorem case_calls_ends (derivativeTime : Int) (cases : List (String × DerivativeCase))
    (handler : DerivativeHandler) :
    Ends (fun _ after => after = handler ∧
        ∃ entry ∈ cases, handler.bufferedValues entry.2.valuesColumnName = none)
      (fun calls after => after = handler ∧
        (∀ entry ∈ cases, handler.bufferedValues entry.2.valuesColumnName ≠ none) ∧
        calls = cases.map fun entry =>
          let buffered := (handler.bufferedValues entry.2.valuesColumnName).getD {}
          ⟨buffered.times, buffered.values, derivativeTime, entry.2.order⟩)
      (caseCalls derivativeTime cases handler) := by
  induction cases with
  | nil => exact ⟨rfl, by simp, rfl⟩
  | cons entry cases induction =>
      rw [caseCalls, bind_of_ok (get_apply _)]
      cases values : handler.bufferedValues entry.2.valuesColumnName with
      | none => exact ⟨rfl, entry, by simp, values⟩
      | some buffered =>
          refine ends_bind (ends_mono induction ?_ fun _ _ returned => returned) ?_
          · rintro _ _ ⟨same, missing, member, none⟩
            exact ⟨same, missing, List.mem_cons_of_mem _ member, none⟩
          · rintro calls _ ⟨rfl, present, rfl⟩
            refine ⟨rfl, ?_, by simp [values]⟩
            intro other member
            rcases List.mem_cons.mp member with rfl | inCases
            · simp [values]
            · exact present other inCases

/-- Before the turn of a row: the rows from it on are `held` in the deque of times or
still to come. -/
structure TurnStart (options : DerivativeOptions) (schema : Schema) (last : Int)
    (rows held coming : List Row) (position : Nat) (bounds : Bounds)
    (handler : DerivativeHandler) : Prop where
  remaining : rows.drop position = held ++ coming
  dropped : rows.drop bounds.rightBoundRow = coming
  times : ∃ front, handler.allBufferedTimes = front ++ held.map (scaledTime options schema)
  left : ∀ row ∈ (rows.drop position).head?,
    bounds.leftBoundTime = handler.allBufferedTimes.headD (scaledTime options schema row)
  right : bounds.rightBoundTime = rightTime options schema last coming

omit [Numbers] in
theorem drop_while_append_cons {Item : Type} {drops : Item → Bool} (front : List Item)
    {item : Item} (stops : drops item = false) (rest : List Item) :
    ∃ kept, (front ++ item :: rest).dropWhile drops = kept ++ item :: rest := by
  induction front with
  | nil =>
      refine ⟨[], ?_⟩
      rw [List.nil_append, List.dropWhile_cons_of_neg (by simp [stops])]
  | cons other front induction =>
      by_cases dropped : drops other = true
      · rw [List.cons_append, List.dropWhile_cons_of_pos dropped]
        exact induction
      · rw [List.cons_append, List.dropWhile_cons_of_neg dropped]
        exact ⟨other :: front, rfl⟩

/-- The turn of a row leaves it, and all that is reached, in the deque of times. -/
theorem row_turn_held {held coming : List Row} {handler : DerivativeHandler} {row : Row}
    {rest : List Row} (whole : row :: rest = held ++ coming)
    (holds : ∃ front, handler.allBufferedTimes = front ++ held.map (scaledTime options schema))
    (own : ¬isBehind options (scaledTime options schema row) (scaledTime options schema row))
    (self : isReached options (scaledTime options schema row) (scaledTime options schema row)) :
    ∃ kept, rest = kept ++ left options schema (scaledTime options schema row) coming ∧
      (∃ front, (rowTurn options schema row coming handler).allBufferedTimes =
        front ++ scaledTime options schema row :: kept.map (scaledTime options schema)) ∧
      ∀ other, (moveLeft options (scaledTime options schema row) handler).allBufferedTimes.headD
          (scaledTime options schema row) =
        (rowTurn options schema row coming handler).allBufferedTimes.headD other := by
  obtain ⟨front, times⟩ := holds
  have parts : taken options schema (scaledTime options schema row) coming ++
      left options schema (scaledTime options schema row) coming = coming :=
    List.takeWhile_append_dropWhile
  simp only [rowTurn, push_rows_times, move_left_times, times]
  cases held with
  | nil =>
      rw [List.nil_append] at whole
      have takes : taken options schema (scaledTime options schema row) coming =
          row :: taken options schema (scaledTime options schema row) rest := by
        rw [← whole]
        exact List.takeWhile_cons_of_pos (by simpa using self)
      have split : rest = taken options schema (scaledTime options schema row) rest ++
          left options schema (scaledTime options schema row) coming := by
        rw [takes, ← whole, List.cons_append, List.cons.injEq] at parts
        rw [← whole]
        exact parts.2.symm
      refine ⟨_, split, ⟨_, by rw [takes, List.map_cons]⟩, fun other => ?_⟩
      rw [takes, List.map_nil, List.append_nil, List.map_cons]
      cases front.dropWhile (isBehind options (scaledTime options schema row) ·) <;> rfl
  | cons first held =>
      rw [List.cons_append, List.cons.injEq] at whole
      obtain ⟨rfl, whole⟩ := whole
      obtain ⟨kept, drops⟩ := @drop_while_append_cons Int
          (fun time => decide (isBehind options (scaledTime options schema row) time)) front
          (scaledTime options schema row) (by simpa using own)
        (held.map (scaledTime options schema))
      refine ⟨held ++ taken options schema (scaledTime options schema row) coming, ?_, ?_, ?_⟩
      · rw [whole, List.append_assoc, parts]
      · refine ⟨kept, ?_⟩
        rw [List.map_cons, drops]
        simp
      · intro other
        rw [List.map_cons, drops]
        cases kept <;> rfl

theorem row_turn_present {row : Row} {coming : List Row} {handler : DerivativeHandler}
    {name : String} (present : (handler.bufferedValues name).isSome) :
    ((rowTurn options schema row coming handler).bufferedValues name).isSome := by
  rw [rowTurn, push_rows_present, move_left_present]
  exact .inl present

theorem calculate_rows_ends (reads : ReadsScaled options schema timeColumn rows)
    (values : ReadsValues options schema valueColumns rows) {last : Int}
    (isLast : ∀ row ∈ rows.getLast?, last = scaledTime options schema row)
    (own : ∀ time, ¬isBehind options time time) (self : ∀ time, isReached options time time)
    (remaining : List Row) {held coming : List Row} {position : Nat} {bounds : Bounds}
    {handler : DerivativeHandler} (dropped : rows.drop position = remaining)
    (start : TurnStart options schema last rows held coming position bounds handler) :
    Ends (fun _ _ => ¬Castable valueColumns ∨
        Blocked options schema last remaining coming handler)
      (fun calls after => ¬Blocked options schema last remaining coming handler ∧
        (calls, after) = turns options schema last remaining coming handler)
      (calculateRows options timeColumn valueColumns rows.length remaining.length position bounds
        handler) := by
  induction remaining generalizing held coming position bounds handler with
  | nil =>
      refine ⟨?_, rfl⟩
      rintro ⟨row, isHead, _⟩
      cases isHead
  | cons row rest induction =>
      have found : rows[position]? = some row := by
        rw [← List.head?_drop, dropped, List.head?_cons]
      have later : rows.drop (position + 1) = rest := by
        rw [← List.tail_drop, dropped, List.tail_cons]
      have leftBound := start.left row (by rw [dropped]; rfl)
      have count : rows.length - bounds.rightBoundRow = coming.length := by
        rw [← start.dropped, List.length_drop]
      obtain ⟨kept, split, ⟨front, times⟩, bound⟩ :=
        row_turn_held (dropped.symm.trans start.remaining) start.times (own _) (self _)
      rw [List.length_cons, calculateRows, reads _ _ found, bind_of_ok (of_except_ok _ _),
        bind_of_ok (get_apply _), leftBound, move_left_bound_eq (own _),
        bind_of_ok (of_except_ok _ _)]
      dsimp only
      have moved : ({ handler with
          allBufferedTimes :=
            (moveLeft options (scaledTime options schema row) handler).allBufferedTimes
          bufferedValues :=
            (moveLeft options (scaledTime options schema row) handler).bufferedValues } :
          DerivativeHandler) = moveLeft options (scaledTime options schema row) handler := by
        unfold moveLeft
        split <;> rfl
      rw [moved, bind_of_ok (set_apply _ _), count, start.right]
      refine ends_bind (ends_mono (move_right_bound_ends reads values _ isLast coming _
        start.dropped) (fun _ _ => .inl) fun _ _ returned => returned) ?_
      rintro ⟨rightBoundTime, rightBoundRow⟩ _ ⟨rfl, rightDropped, right⟩
      obtain rfl : rightBoundTime = _ := right
      dsimp only at rightDropped
      dsimp only
      by_cases settled : isSettled options schema last row coming
      · have calculates : ¬(¬options.noWaitFuture = true ∧
            isReached options (scaledTime options schema row) (rightTime options schema last
              (left options schema (scaledTime options schema row) coming))) := by
          rintro ⟨waits, reached⟩
          rcases settled with noWait | ahead
          · exact waits noWait
          · exact ahead reached
        have isTurn : pushRows options schema
            (moveLeft options (scaledTime options schema row) handler)
              (taken options schema (scaledTime options schema row) coming) =
            rowTurn options schema row coming handler := rfl
        rw [if_neg calculates, isTurn]
        refine ends_bind (ends_mono (case_calls_ends _ _ _) ?_ fun _ _ returned => returned) ?_
        · rintro _ _ ⟨_, entry, member, missing⟩
          exact .inr ⟨row, rfl, settled, _, List.mem_map.mpr ⟨entry, member, rfl⟩, missing⟩
        · rintro calls _ ⟨rfl, present, rfl⟩
          have free : ∀ name ∈ caseColumns options,
              (rowTurn options schema row coming handler).bufferedValues name ≠ none := by
            intro name member
            obtain ⟨entry, inCases, rfl⟩ := List.mem_map.mp member
            exact present entry inCases
          have unblocked : ¬Blocked options schema last (row :: rest) coming handler := by
            rintro ⟨other, isHead, _, name, member, missing⟩
            rw [List.head?_cons, Option.mem_some_iff] at isHead
            subst isHead
            exact free name member missing
          have unblockedLater : ¬Blocked options schema last rest
              (left options schema (scaledTime options schema row) coming)
              (rowTurn options schema row coming handler) := by
            rintro ⟨other, _, _, name, member, missing⟩
            have some := (@row_turn_present _ options schema other
                (left options schema (scaledTime options schema row) coming))
              (Option.isSome_iff_ne_none.mpr (free name member))
            rw [missing] at some
            cases some
          refine (@ends_bind _ _ _ _ _ _ _ _ (fun calls after => (calls, after) =
            turns options schema last rest
              (left options schema (scaledTime options schema row) coming)
              (rowTurn options schema row coming handler)))
            (ends_mono (induction later ⟨later.trans split, rightDropped, ⟨front ++
              [scaledTime options schema row], ?_⟩, ?_, rfl⟩) ?_ ?_) ?_
          · rw [times]
            simp
          · intro other _
            exact bound _
          · rintro _ _ (uncastable | blocked)
            · exact .inl uncastable
            · exact absurd blocked unblockedLater
          · exact fun _ _ returned => returned.2
          · intro laterCalls after isTurns
            refine ⟨unblocked, ?_⟩
            rw [turns]
            dsimp only
            rw [if_pos settled, ← isTurns]
            rfl
      · have waits : ¬options.noWaitFuture = true ∧
            isReached options (scaledTime options schema row) (rightTime options schema last
              (left options schema (scaledTime options schema row) coming)) := by
          rw [isSettled, not_or, not_not] at settled
          exact settled
        rw [if_pos waits]
        refine ⟨?_, ?_⟩
        · rintro ⟨other, isHead, isSettled, _⟩
          rw [List.head?_cons, Option.mem_some_iff] at isHead
          subst isHead
          exact settled isSettled
        · rw [turns]
          dsimp only
          rw [if_neg settled]
          rfl

theorem turns_held (last : Int) (own : ∀ time, ¬isBehind options time time)
    (self : ∀ time, isReached options time time) (remaining : List Row) {held coming : List Row}
    {handler : DerivativeHandler} (whole : remaining = held ++ coming)
    (holds : ∃ front, handler.allBufferedTimes = front ++ held.map (scaledTime options schema)) :
    ∃ front, (turns options schema last remaining coming handler).2.allBufferedTimes = front ++
      (remaining.drop (turns options schema last remaining coming handler).1.length).map
        (scaledTime options schema) := by
  induction remaining generalizing held coming handler with
  | nil =>
      obtain ⟨front, times⟩ := holds
      obtain ⟨rfl, _⟩ := List.append_eq_nil_iff.mp whole.symm
      exact ⟨front, times⟩
  | cons row rest induction =>
      obtain ⟨kept, split, ⟨front, times⟩, _⟩ := row_turn_held whole holds (own _) (self _)
      rw [turns]
      dsimp only
      split
      · exact induction split ⟨front ++ [scaledTime options schema row], by simp [times]⟩
      · next waits =>
        refine ⟨front, ?_⟩
        rw [isSettled, not_or, not_not] at waits
        have none : left options schema (scaledTime options schema row) coming = [] := by
          cases shape : left options schema (scaledTime options schema row) coming with
          | nil => rfl
          | cons next later =>
              have ahead := List.head?_dropWhile_not
                (fun other => decide (isReached options (scaledTime options schema row)
                  (scaledTime options schema other))) coming
              have unfolded : coming.dropWhile (fun other => decide (isReached options
                  (scaledTime options schema row) (scaledTime options schema other))) =
                    next :: later := shape
              rw [unfolded] at ahead
              have reached := waits.2
              rw [shape] at reached
              simp [rightTime] at reached
              simp [reached] at ahead
        rw [times, split, none]
        simp

end Loops

section Calls

variable {options : DerivativeOptions}

def withDerivatives (calculator : DerivativeCalculator) (row : Row)
    (calls : List CalculatorCall) : Row :=
  row ++ calls.map fun call => (calculator call).map .double

def derivativeFields (cases : List (String × DerivativeCase)) : List Field :=
  cases.map fun entry =>
    { name := entry.1, type := .double, metadata := { columnType := some .field } }

omit [Numbers] in
theorem add_derivatives_eq (calculator : DerivativeCalculator)
    (cases : List (String × DerivativeCase)) {index : Nat} {batch : RecordBatch}
    {calls : List (List CalculatorCall)} (count : calls.length = batch.rows.length)
    (lengths : ∀ row ∈ calls, row.length = index + cases.length) :
    ∃ result, addDerivatives calculator calls index cases batch = .ok result ∧
      result.schema = { batch.schema with
        fields := batch.schema.fields ++ derivativeFields cases } ∧
      result.rows = List.zipWith
        (fun row calls => withDerivatives calculator row (calls.drop index)) batch.rows calls := by
  induction cases generalizing index batch with
  | nil =>
      refine ⟨batch, rfl, by simp [derivativeFields], ?_⟩
      symm
      apply List.ext_getElem (by simp [count])
      intro position bound other
      have own := lengths _ (List.getElem_mem (show position < calls.length by omega))
      simp only [List.getElem_zipWith, withDerivatives]
      rw [List.drop_eq_nil_of_le (by simpa using own.le), List.map_nil, List.append_nil]
  | cons entry cases induction =>
      obtain ⟨name, derivativeCase⟩ := entry
      have cells : (derivativeColumn calculator (calls.map fun row => row[index]?)).cells.length =
          batch.numRows := by
        simp [derivativeColumn, RecordBatch.numRows, count]
      let field : Field :=
        { name := name, type := .double, metadata := { columnType := some .field } }
      obtain ⟨added, adds, addedSchema, addedRows⟩ :=
        (@add_column_eq _ field) (show field.type = DataType.double from rfl) cells
      have addedCount : calls.length = added.rows.length := by
        rw [addedRows]
        simp [derivativeColumn, count]
      obtain ⟨result, returned, schema, rows⟩ := @induction (index + 1) _ addedCount (by
        intro row member
        rw [lengths row member, List.length_cons]
        omega)
      refine ⟨result, ?_, ?_, ?_⟩
      · rw [addDerivatives, adds]
        exact returned
      · rw [schema, addedSchema]
        simp [derivativeFields, field]
      · rw [rows, addedRows]
        apply List.ext_getElem (by simp [derivativeColumn])
        intro position bound other
        have within : position < calls.length := by
          rw [List.length_zipWith] at other
          omega
        have long : index < calls[position].length := by
          rw [lengths _ (List.getElem_mem _), List.length_cons]
          omega
        simp only [List.getElem_zipWith, withDerivatives, derivativeColumn, List.getElem_map,
          List.append_assoc]
        rw [List.drop_eq_getElem_cons long, List.getElem?_eq_getElem long, List.map_cons]
        rfl

omit [Numbers] in
theorem concatenate_buffered_ok {buffered : Option RecordBatch} {sorted concat : RecordBatch}
    (returned : concatenateBuffered buffered sorted = .ok concat) :
    concat.schema = (buffered.map RecordBatch.schema).getD sorted.schema ∧
      concat.rows = (buffered.map RecordBatch.rows).getD [] ++ sorted.rows := by
  cases buffered with
  | none =>
      rw [concatenateBuffered, Except.ok.injEq] at returned
      subst returned
      exact ⟨rfl, rfl⟩
  | some bufferedBatch =>
      rw [concatenateBuffered, concatenateTables] at returned
      split at returned
      · rw [Except.ok.injEq] at returned
        subst returned
        exact ⟨rfl, by simp⟩
      · cases returned

theorem turns_calls_length (schema : Schema) (last : Int) (remaining coming : List Row)
    (handler : DerivativeHandler) :
    (turns options schema last remaining coming handler).1.length ≤ remaining.length ∧
      ∀ calls ∈ (turns options schema last remaining coming handler).1,
        calls.length = options.derivativeCases.length := by
  induction remaining generalizing coming handler with
  | nil => exact ⟨le_rfl, fun calls member => nomatch member⟩
  | cons row rest induction =>
      rw [turns]
      dsimp only
      split
      · obtain ⟨short, lengths⟩ := induction
          (left options schema (scaledTime options schema row) coming)
          (rowTurn options schema row coming handler)
        refine ⟨Nat.succ_le_succ short, fun calls member => ?_⟩
        rcases List.mem_cons.mp member with rfl | later
        · exact List.length_map _
        · exact lengths calls later
      · exact ⟨Nat.zero_le _, fun calls member => nomatch member⟩

structure CallReads (options : DerivativeOptions) (handler : DerivativeHandler)
    (batch sorted concat : RecordBatch) (timeColumn : Column)
    (valueColumns : List (String × Column)) : Prop where
  sorts : ∃ name, getTimeColumnNameMetadata batch = .ok name ∧
    sortByColumn name batch = .ok sorted ∧ concat.getColumnByName name = some timeColumn
  concatenates : concatenateBuffered handler.bufferedBatch sorted = .ok concat
  values : findValueColumns concat options.derivativeCases [] = .ok valueColumns
  times : ReadsScaled options concat.schema timeColumn concat.rows

/-- What a call that returns answers and leaves, by the turns of its rows. -/
structure CallAnswers (calculator : DerivativeCalculator) (options : DerivativeOptions)
    (handler : DerivativeHandler) (batch sorted concat : RecordBatch)
    (answer : List RecordBatch × List (List CalculatorCall)) (after : DerivativeHandler) :
    Prop where
  turned : ∀ row ∈ concat.rows.getLast?,
    (answer.2, { after with bufferedBatch := handler.bufferedBatch }) =
      turns options concat.schema (scaledTime options concat.schema row) concat.rows sorted.rows
        handler
  buffered : after.bufferedBatch = some (concat.sliceFrom answer.2.length)
  result : ∃ result, answer.1 = [result] ∧
    result.schema = {
      fields := concat.schema.fields ++ derivativeFields options.derivativeCases
      metadata := if batch.schema.metadata = {} then concat.schema.metadata
        else batch.schema.metadata } ∧
    result.rows = List.zipWith (withDerivatives calculator)
      (concat.rows.take answer.2.length) answer.2

theorem push_rows_batch (schema : Schema) (handler : DerivativeHandler) (rows : List Row) :
    (pushRows options schema handler rows).bufferedBatch = handler.bufferedBatch := by
  induction rows generalizing handler with
  | nil => rfl
  | cons row rows induction => exact (induction _).trans rfl

theorem turns_batch (schema : Schema) (last : Int) (remaining coming : List Row)
    (handler : DerivativeHandler) :
    (turns options schema last remaining coming handler).2.bufferedBatch =
      handler.bufferedBatch := by
  induction remaining generalizing coming handler with
  | nil => rfl
  | cons row rest induction =>
      have turned : (rowTurn options schema row coming handler).bufferedBatch =
          handler.bufferedBatch := by
        rw [rowTurn, push_rows_batch, moveLeft]
        split <;> rfl
      rw [turns]
      dsimp only
      split
      · exact (induction _ _).trans turned
      · exact turned

theorem handle_with_calls_ends (calculator : DerivativeCalculator)
    {handler : DerivativeHandler} {batch sorted concat : RecordBatch} {timeColumn : Column}
    {valueColumns : List (String × Column)}
    (reads : CallReads options handler batch sorted concat timeColumn valueColumns)
    (nonempty : sorted.rows ≠ [])
    (own : ∀ time, ¬isBehind options time time) (self : ∀ time, isReached options time time)
    (holds : ∃ front, handler.allBufferedTimes = front ++
      ((handler.bufferedBatch.map RecordBatch.rows).getD []).map
        (scaledTime options concat.schema)) :
    Ends (fun _ _ => ¬Castable valueColumns ∨ ∀ row ∈ concat.rows.getLast?,
        Blocked options concat.schema (scaledTime options concat.schema row) concat.rows
          sorted.rows handler)
      (fun answer after =>
        CallAnswers calculator options handler batch sorted concat answer after ∧
        ∀ row ∈ concat.rows.getLast?, ¬Blocked options concat.schema
          (scaledTime options concat.schema row) concat.rows sorted.rows handler)
      (handleWithCalls calculator options batch handler) := by
  obtain ⟨name, named, sorts, found⟩ := reads.sorts
  obtain ⟨_, rows⟩ := concatenate_buffered_ok reads.concatenates
  have concatNonempty : concat.rows ≠ [] := by
    rw [rows]
    exact List.append_ne_nil_of_right_ne_nil _ nonempty
  obtain ⟨first, others, shape⟩ := List.exists_cons_of_ne_nil concatNonempty
  obtain ⟨front, times⟩ := holds
  have leftBound : firstLeftBound options timeColumn handler.allBufferedTimes =
      .ok (handler.allBufferedTimes.headD (scaledTime options concat.schema first)) := by
    cases handler.allBufferedTimes with
    | nil => exact reads.times 0 first (by rw [shape]; rfl)
    | cons time times => rfl
  have dropped : concat.rows.drop
      ((handler.bufferedBatch.map RecordBatch.numRows).getD 0) = sorted.rows := by
    rw [rows]
    cases handler.bufferedBatch with
    | none => rfl
    | some buffered => exact List.drop_left
  obtain ⟨next, later, isNext⟩ := List.exists_cons_of_ne_nil nonempty
  have rightBound : getScaledPositionTime options
      ((handler.bufferedBatch.map RecordBatch.numRows).getD 0) timeColumn =
        .ok (scaledTime options concat.schema next) := by
    apply reads.times
    rw [← List.head?_drop, dropped, isNext, List.head?_cons]
  obtain ⟨last, isLast⟩ : ∃ last, concat.rows.getLast? = some last :=
    Option.ne_none_iff_exists'.mp (by simpa using concatNonempty)
  have start : TurnStart options concat.schema (scaledTime options concat.schema last)
      concat.rows ((handler.bufferedBatch.map RecordBatch.rows).getD []) sorted.rows 0
      ⟨handler.allBufferedTimes.headD (scaledTime options concat.schema first),
        scaledTime options concat.schema next,
        (handler.bufferedBatch.map RecordBatch.numRows).getD 0⟩ handler := by
    refine ⟨rows, dropped, ⟨front, times⟩, ?_, ?_⟩
    · intro row isHead
      rw [List.drop_zero, shape, List.head?_cons, Option.mem_some_iff] at isHead
      rw [isHead]
    · rw [isNext]
      rfl
  unfold handleWithCalls
  rw [named, bind_of_ok (of_except_ok _ _), sorts, bind_of_ok (of_except_ok _ _),
    bind_of_ok (get_apply _), reads.concatenates, bind_of_ok (of_except_ok _ _), found]
  dsimp only
  rw [reads.values, bind_of_ok (of_except_ok _ _), leftBound, bind_of_ok (of_except_ok _ _),
    rightBound, bind_of_ok (of_except_ok _ _)]
  have lastTime : ∀ row ∈ concat.rows.getLast?,
      scaledTime options concat.schema last = scaledTime options concat.schema row := by
    intro row isRow
    rw [isLast, Option.mem_some_iff] at isRow
    rw [isRow]
  refine ends_bind (ends_mono (calculate_rows_ends reads.times
    (reads_values_of_found reads.values) lastTime own self concat.rows rfl start) ?_
    fun _ _ returned => returned) ?_
  · rintro _ _ (uncastable | blocked)
    · exact .inl uncastable
    · refine .inr fun row isRow => ?_
      rw [isLast, Option.mem_some_iff] at isRow
      exact isRow ▸ blocked
  · rintro calls after ⟨unblocked, turned⟩
    obtain ⟨short, lengths⟩ := turns_calls_length concat.schema
      (scaledTime options concat.schema last) concat.rows sorted.rows handler
    rw [← turned] at short lengths
    have kept := @turns_batch _ options concat.schema (scaledTime options concat.schema last)
      concat.rows sorted.rows handler
    rw [← turned] at kept
    have copied : copySchemaMetadata batch (concat.slice 0 calls.length) =
        updateSchemaMetadata (concat.slice 0 calls.length) fun own =>
          if batch.schema.metadata = {} then own else batch.schema.metadata := by
      unfold copySchemaMetadata
      split <;> rfl
    obtain ⟨result, returned, resultSchema, resultRows⟩ :=
      (@add_derivatives_eq calculator options.derivativeCases 0
          (copySchemaMetadata batch (concat.slice 0 calls.length)) calls)
        (by
          rw [copied]
          simpa [updateSchemaMetadata] using short) (fun row member => by
          rw [lengths row member, Nat.zero_add])
    rw [bind_of_ok (get_apply _), bind_of_ok (set_apply _ _), returned,
      bind_of_ok (of_except_ok _ _)]
    refine ⟨⟨?_, rfl, result, rfl, ?_, ?_⟩, ?_⟩
    · intro row isRow
      rw [isLast, Option.mem_some_iff] at isRow
      subst isRow
      rw [← turned, ← kept]
    · rw [resultSchema, copied]
      rfl
    · rw [resultRows, copied]
      rfl
    · intro row isRow
      rw [isLast, Option.mem_some_iff] at isRow
      exact isRow ▸ unblocked

/-- What a call that returned had read and bound before its loop. -/
theorem reads_of_returned {calculator : DerivativeCalculator} {handler after : DerivativeHandler}
    {batch : RecordBatch} {answer : List RecordBatch × List (List CalculatorCall)}
    (returned : handleWithCalls calculator options batch handler = .ok answer after) :
    ∃ name sorted concat timeColumn valueColumns, ∃ bounds : Bounds,
      getTimeColumnNameMetadata batch = .ok name ∧ sortByColumn name batch = .ok sorted ∧
      concatenateBuffered handler.bufferedBatch sorted = .ok concat ∧
      concat.getColumnByName name = some timeColumn ∧
      findValueColumns concat options.derivativeCases [] = .ok valueColumns ∧
      firstLeftBound options timeColumn handler.allBufferedTimes = .ok bounds.leftBoundTime ∧
      bounds.rightBoundRow = (handler.bufferedBatch.map RecordBatch.numRows).getD 0 ∧
      getScaledPositionTime options bounds.rightBoundRow timeColumn =
        .ok bounds.rightBoundTime ∧
      ∃ calls middle, calculateRows options timeColumn valueColumns concat.numRows
        concat.numRows 0 bounds handler = .ok calls middle := by
  unfold handleWithCalls at returned
  obtain ⟨name, isName, returned⟩ := bind_of_except_cases returned
  obtain ⟨sorted, isSorted, returned⟩ := bind_of_except_cases returned
  rw [bind_of_ok (get_apply _)] at returned
  obtain ⟨concat, isConcat, returned⟩ := bind_of_except_cases returned
  cases found : concat.getColumnByName name with
  | none =>
      rw [found] at returned
      cases returned
  | some timeColumn =>
      rw [found] at returned
      obtain ⟨valueColumns, isFound, returned⟩ := bind_of_except_cases returned
      obtain ⟨leftBound, isLeft, returned⟩ := bind_of_except_cases returned
      obtain ⟨rightBound, isRight, returned⟩ := bind_of_except_cases returned
      obtain ⟨calls, middle, calculated, _⟩ := bind_ok_cases returned
      exact ⟨name, sorted, concat, timeColumn, valueColumns, ⟨leftBound, rightBound, _⟩, isName,
        isSorted, isConcat, found, isFound, isLeft, rfl, isRight, calls, middle, calculated⟩

end Calls

end Steps

end StreamDataProcessor.Handlers.Derivative
