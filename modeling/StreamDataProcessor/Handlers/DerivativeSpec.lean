import StreamDataProcessor.Foundation.SlidingWindow
import StreamDataProcessor.Handlers.DerivativeSteps

/-!
# The window of the derivative handler is exact

On a stream of one schema in the order of its times, the deques of each turn hold
what is near its row, and a row leaves the handler once something received is too
far ahead of it. The rows that wait and the deques are a sliding window.
-/

namespace StreamDataProcessor.Handlers.Derivative

open Foundation.Effect Foundation.SlidingWindow Foundation.Binary64 Foundation.TwosComplement
open Arrow Metadata Utils

set_option autoImplicit false

section Window

variable [Numbers]

/-- The values of a column at some rows, with the times of the rows that have one. -/
def bufferedOf (options : DerivativeOptions) (schema : Schema) (name : String)
    (rows : List Row) : BufferedValues :=
  let present := rows.filter fun row => (schema.cell name row).isSome
  ⟨present.map (scaledTime options schema), present.map fun row => doubleOf (schema.cell name row)⟩

/-- The rows received whose scaled time is within the neighbourhood of that of a row. -/
def neighbours (options : DerivativeOptions) (schema : Schema) (received : List Row)
    (row : Row) : List Row :=
  received.filter fun other =>
    |scaledTime options schema other - scaledTime options schema row| * options.unitTimeSegment ≤
      options.derivativeNeighbourhood

def expectedCalls (options : DerivativeOptions) (schema : Schema) (received : List Row)
    (row : Row) : List CalculatorCall :=
  options.derivativeCases.map fun derivativeCase =>
    let buffered := bufferedOf options schema derivativeCase.2.valuesColumnName
      (neighbours options schema received row)
    ⟨buffered.times, buffered.values, scaledTime options schema row, derivativeCase.2.order⟩

/-- A row is output at once, or when a row further ahead than the neighbourhood has come. -/
def isReleased (options : DerivativeOptions) (schema : Schema) (received : List Row)
    (row : Row) : Prop :=
  options.noWaitFuture = true ∨ ∃ other ∈ received,
    (scaledTime options schema other - scaledTime options schema row) *
      options.unitTimeSegment > options.derivativeNeighbourhood

instance (options : DerivativeOptions) (schema : Schema) (received : List Row) (row : Row) :
    Decidable (isReleased options schema received row) :=
  inferInstanceAs (Decidable (_ ∨ _))

/-- The rows that have been output once some were received. -/
def released (options : DerivativeOptions) (schema : Schema) (received : List Row) : List Row :=
  received.filter (isReleased options schema received ·)

def streamRows (batches : List RecordBatch) : List Row := batches.flatMap RecordBatch.rows

/-- A stream of rows of one schema, in the order of their times, in batches. -/
structure TimedStream (schema : Schema) (batches : List RecordBatch) : Prop where
  schemas : ∀ batch ∈ batches, batch.schema = schema
  nonempty : ∀ batch ∈ batches, batch.rows ≠ []
  timed : ∀ row ∈ streamRows batches, ∃ value, timeCell schema row = some (.integer value)
  sorted : (streamRows batches).Pairwise fun earlier later =>
    integerValue (timeCell schema earlier) ≤ integerValue (timeCell schema later)

def handleAllWithCalls (calculator : DerivativeCalculator) (options : DerivativeOptions) :
    List RecordBatch → Step (List (List RecordBatch × List (List CalculatorCall)))
  | [] => pure []
  | batch :: rest => do
      let answer ← handleWithCalls calculator options batch
      let answers ← handleAllWithCalls calculator options rest
      pure (answer :: answers)

/-- The answer of a call that is the first to have received some rows. -/
structure ExactAnswer (calculator : DerivativeCalculator) (options : DerivativeOptions)
    (schema : Schema) (before received : List Row)
    (answer : List RecordBatch × List (List CalculatorCall)) : Prop where
  calls : answer.2 =
    ((released options schema received).drop (released options schema before).length).map
      (expectedCalls options schema received)
  result : ∃ result, answer.1 = [result] ∧
    result.schema = { schema with
      fields := schema.fields ++ derivativeFields options.derivativeCases } ∧
    result.rows =
      ((released options schema received).drop (released options schema before).length).map
        fun row => withDerivatives calculator row (expectedCalls options schema received row)

/-- The distances that the handler rounds are compared with the neighbourhood as exact ones
are. -/
def ComparesExactly (options : DerivativeOptions) : Prop :=
  ∀ later earlier, scaledDistance options later earlier ≤
      Numbers.round options.derivativeNeighbourhood ↔
    (later - earlier) * options.unitTimeSegment ≤ options.derivativeNeighbourhood

/-- The nanoseconds of the rows are kept as they are. -/
def KeepsTimes (schema : Schema) (rows : List Row) : Prop :=
  ∀ row ∈ rows, ∀ timestamp,
    castTimestampScalar (timeType schema) (timeCell schema row) .nano = .ok timestamp →
    Numbers.keep (integerValue timestamp) = integerValue timestamp

section Turns

variable {options : DerivativeOptions} {schema : Schema}

theorem behind_iff (exactly : ComparesExactly options) (derivativeTime : Int) (row : Row) :
    isBehind options derivativeTime (scaledTime options schema row) ↔
      Behind (scaledTime options schema) options.unitTimeSegment options.derivativeNeighbourhood
        derivativeTime row := by
  rw [isBehind, gt_iff_lt, ← not_le, exactly, Behind, not_le]

theorem reached_iff (exactly : ComparesExactly options) (derivativeTime : Int) (row : Row) :
    isReached options derivativeTime (scaledTime options schema row) ↔
      ¬Ahead (scaledTime options schema) options.unitTimeSegment options.derivativeNeighbourhood
        derivativeTime row := by
  rw [isReached, exactly, Ahead, not_lt]

/-- The deques hold the times and the values of a window of rows. -/
structure Holds (options : DerivativeOptions) (schema : Schema) (handler : DerivativeHandler)
    (window : List Row) : Prop where
  times : handler.allBufferedTimes = window.map (scaledTime options schema)
  values : ∀ name ∈ caseColumns options,
    (handler.bufferedValues name).getD {} = bufferedOf options schema name window

theorem buffered_of_append (name : String) (earlier later : List Row) :
    bufferedOf options schema name (earlier ++ later) =
      ⟨(bufferedOf options schema name earlier).times ++
          (bufferedOf options schema name later).times,
        (bufferedOf options schema name earlier).values ++
          (bufferedOf options schema name later).values⟩ := by
  simp [bufferedOf]

theorem holds_push_row {handler : DerivativeHandler} {window : List Row}
    (holds : Holds options schema handler window) (row : Row) :
    Holds options schema (pushRow options schema handler row) (window ++ [row]) := by
  refine ⟨by simp [pushRow, holds.times], fun name member => ?_⟩
  rw [buffered_of_append, ← holds.values name member]
  by_cases present : (schema.cell name row).isSome = true
  · simp [pushRow, member, present, bufferedOf]
  · rw [Option.not_isSome_iff_eq_none] at present
    have none : bufferedOf options schema name [row] = {} := by
      simp [bufferedOf, present]
    rw [none]
    simp [pushRow, present]

theorem holds_push_rows (rows : List Row) {handler : DerivativeHandler} {window : List Row}
    (holds : Holds options schema handler window) :
    Holds options schema (pushRows options schema handler rows) (window ++ rows) := by
  induction rows generalizing handler window with
  | nil => simpa using holds
  | cons row rows induction =>
      have pushed := induction (holds_push_row holds row)
      rwa [List.append_assoc, List.singleton_append] at pushed

/-- Popping what is behind off the deques of a column leaves the values of the rows that
are not behind. -/
theorem pop_buffered_of {name : String} {window : List Row} (derivativeTime : Int)
    (exactly : ComparesExactly options) (positive : 0 < options.unitTimeSegment) (sorted : Sorted (scaledTime options schema) window) :
    (bufferedOf options schema name window).pop options derivativeTime =
      bufferedOf options schema name
        (window.dropWhile (Behind (scaledTime options schema) options.unitTimeSegment
          options.derivativeNeighbourhood derivativeTime ·)) := by
  have popped : ∀ rows : List Row, popValues options derivativeTime
      (rows.map (scaledTime options schema)) (rows.map fun row => doubleOf (schema.cell name row)) =
        ⟨(rows.dropWhile (Behind (scaledTime options schema) options.unitTimeSegment
            options.derivativeNeighbourhood derivativeTime ·)).map (scaledTime options schema),
          (rows.dropWhile (Behind (scaledTime options schema) options.unitTimeSegment
            options.derivativeNeighbourhood derivativeTime ·)).map
              fun row => doubleOf (schema.cell name row)⟩ := by
    intro rows
    induction rows with
    | nil => rfl
    | cons row rows induction =>
        by_cases behind : Behind (scaledTime options schema) options.unitTimeSegment
            options.derivativeNeighbourhood derivativeTime row
        · have isOld := (behind_iff exactly derivativeTime row).mpr behind
          rw [List.map_cons, List.map_cons, popValues, if_pos isOld, List.tail_cons, induction,
            List.dropWhile_cons_of_pos (by simpa using behind)]
        · have isNew := mt (behind_iff exactly derivativeTime row).mp behind
          rw [List.map_cons, List.map_cons, popValues, if_neg isNew,
            List.dropWhile_cons_of_neg (by simpa using behind), List.map_cons, List.map_cons]
  simp only [bufferedOf, BufferedValues.pop, popped]
  rw [drop_while_behind derivativeTime positive.le (sorted.filter _),
    drop_while_behind derivativeTime positive.le sorted, List.filter_comm]

theorem holds_move_left {handler : DerivativeHandler} {window : List Row} (derivativeTime : Int)
    (exactly : ComparesExactly options) (positive : 0 < options.unitTimeSegment) (sorted : Sorted (scaledTime options schema) window)
    (holds : Holds options schema handler window) :
    Holds options schema (moveLeft options derivativeTime handler)
      (window.dropWhile (Behind (scaledTime options schema) options.unitTimeSegment
        options.derivativeNeighbourhood derivativeTime ·)) := by
  constructor
  · rw [move_left_times, holds.times, List.dropWhile_map]
    have tests : (fun time => decide (isBehind options derivativeTime time)) ∘
        scaledTime options schema = fun row => decide (Behind (scaledTime options schema)
          options.unitTimeSegment options.derivativeNeighbourhood derivativeTime row) :=
      funext fun row => decide_eq_decide.mpr (behind_iff exactly derivativeTime row)
    rw [tests]
  · intro name member
    unfold moveLeft
    split
    · dsimp only
      rw [← pop_buffered_of derivativeTime exactly positive sorted, ← holds.values name member]
      cases handler.bufferedValues name <;> rfl
    · next none =>
      rw [holds.values name member]
      cases window with
      | nil => rfl
      | cons row window =>
          have isNew : ¬Behind (scaledTime options schema) options.unitTimeSegment
              options.derivativeNeighbourhood derivativeTime row :=
            fun behind => none ⟨_, by rw [holds.times]; rfl,
              (behind_iff exactly derivativeTime row).mpr behind⟩
          rw [List.dropWhile_cons_of_neg (by simpa using isNew)]

theorem settled_iff (exactly : ComparesExactly options) {stream coming : List Row}
    {row last : Row} (isLeft : left options schema (scaledTime options schema row) coming =
      stream.filter (Ahead (scaledTime options schema) options.unitTimeSegment
        options.derivativeNeighbourhood (scaledTime options schema row) ·))
    (isLast : last ∈ stream) :
    isSettled options schema (scaledTime options schema last) row coming ↔
      isReleased options schema stream row := by
  unfold isSettled isReleased
  rw [isLeft]
  apply or_congr_right
  cases ahead : stream.filter (Ahead (scaledTime options schema) options.unitTimeSegment
      options.derivativeNeighbourhood (scaledTime options schema row) ·) with
  | nil =>
      have none := List.filter_eq_nil_iff.mp ahead
      have lastNear : ¬Ahead (scaledTime options schema) options.unitTimeSegment
          options.derivativeNeighbourhood (scaledTime options schema row) last := by
        simpa using none last isLast
      refine iff_of_false (not_not.mpr ((reached_iff exactly _ last).mpr lastNear)) ?_
      rintro ⟨other, member, isAhead⟩
      exact none other member (decide_eq_true isAhead)
  | cons next later =>
      have first : next ∈ stream.filter (Ahead (scaledTime options schema)
          options.unitTimeSegment options.derivativeNeighbourhood
            (scaledTime options schema row) ·) := by
        rw [ahead]
        exact List.mem_cons_self
      rw [List.mem_filter] at first
      have isAhead := of_decide_eq_true first.2
      exact iff_of_true (fun reached => (reached_iff exactly _ next).mp reached isAhead)
        ⟨next, first.1, isAhead⟩

structure Rests (options : DerivativeOptions) (schema : Schema) (stream seen : List Row)
    (pointers : Pointers Row) (handler : DerivativeHandler) : Prop where
  stream : pointers.stream = stream
  holds : Holds options schema handler pointers.window
  ready : ReadyFrom (scaledTime options schema) options.unitTimeSegment
    options.derivativeNeighbourhood seen pointers

variable (positive : 0 < options.unitTimeSegment)
include positive

theorem turn_slides (exactly : ComparesExactly options) {pointers : Pointers Row} {handler : DerivativeHandler} {row : Row}
    (sorted : Sorted (scaledTime options schema) pointers.stream)
    (holds : Holds options schema handler pointers.window) :
    let slid := pointers.slide (scaledTime options schema) options.unitTimeSegment
      options.derivativeNeighbourhood (scaledTime options schema row)
    Holds options schema (rowTurn options schema row pointers.coming handler) slid.window ∧
      left options schema (scaledTime options schema row) pointers.coming = slid.coming := by
  intro slid
  have tests : (fun other => decide (isReached options (scaledTime options schema row)
      (scaledTime options schema other))) = fun other =>
        decide (¬Ahead (scaledTime options schema) options.unitTimeSegment
          options.derivativeNeighbourhood (scaledTime options schema row) other) := by
    funext other
    rw [decide_eq_decide]
    exact reached_iff exactly _ other
  constructor
  · have moved := holds_move_left (scaledTime options schema row) exactly positive
      (sorted_parts sorted).2.1 holds
    have pushed := holds_push_rows (taken options schema (scaledTime options schema row)
      pointers.coming) moved
    rw [taken, tests] at pushed
    rw [rowTurn, taken, tests]
    exact pushed
  · rw [left, tests]
    rfl

theorem released_downward {stream : List Row} {earlier later : Row}
    (le : scaledTime options schema earlier ≤ scaledTime options schema later)
    (settled : isReleased options schema stream later) :
    isReleased options schema stream earlier := by
  rcases settled with noWait | ⟨other, member, ahead⟩
  · exact .inl noWait
  · exact .inr ⟨other, member, (@ahead_anti _ (scaledTime options schema)) positive.le le
      (le_refl (scaledTime options schema other)) ahead⟩

variable (reaches : 0 ≤ options.derivativeNeighbourhood)
include reaches

/-- The turns over what remains of a sorted stream calculate the rows that something
received is too far ahead of, with all that is near each. -/
theorem turns_eq (exactly : ComparesExactly options) {stream : List Row} {last : Row} (isLast : last ∈ stream)
    (sorted : Sorted (scaledTime options schema) stream) (remaining : List Row)
    {earlier : List Row} {pointers : Pointers Row} {handler : DerivativeHandler}
    (whole : stream = earlier ++ remaining)
    (rests : Rests options schema stream (earlier ++ remaining.take 1) pointers handler)
    (coming : ∀ row ∈ pointers.coming, row ∈ remaining) :
    (turns options schema (scaledTime options schema last) remaining pointers.coming handler).1 =
        (remaining.filter (isReleased options schema stream ·)).map
          (expectedCalls options schema stream) ∧
      ∃ final : Pointers Row, final.coming = [] ∧ Rests options schema stream
        (earlier ++ remaining.take ((turns options schema (scaledTime options schema last)
          remaining pointers.coming handler).1.length + 1)) final
        (turns options schema (scaledTime options schema last) remaining pointers.coming
          handler).2 := by
  induction remaining generalizing earlier pointers handler with
  | nil =>
      have none : pointers.coming = [] := List.eq_nil_iff_forall_not_mem.mpr fun row member =>
        List.not_mem_nil (coming row member)
      exact ⟨rfl, pointers, none, rests⟩
  | cons row rest induction =>
      have member : row ∈ stream := by
        rw [whole]
        simp
      have sortedWhole : Sorted (scaledTime options schema) pointers.stream := by
        rw [rests.stream]
        exact sorted
      obtain ⟨_, sortedRemaining, across⟩ := List.pairwise_append.mp (whole ▸ sorted)
      have before : ∀ other ∈ earlier ++ [row],
          scaledTime options schema other ≤ scaledTime options schema row := by
        intro other inSeen
        rcases List.mem_append.mp inSeen with inEarlier | isRow
        · exact across other inEarlier row (by simp)
        · rw [List.mem_singleton.mp isRow]
      obtain ⟨passed, near⟩ := rests.ready _ before
      have ready : Ready (scaledTime options schema) options.unitTimeSegment
          options.derivativeNeighbourhood (scaledTime options schema row) pointers := by
        refine ⟨passed, near, fun other isComing => ?_⟩
        rcases List.mem_cons.mp (coming other isComing) with rfl | inRest
        · exact le_rfl
        · exact (List.pairwise_cons.mp sortedRemaining).1 other inRest
      obtain ⟨holds, isLeft⟩ :=
        @turn_slides _ _ _ positive exactly _ _ row sortedWhole rests.holds
      obtain ⟨windowEq, comingEq⟩ := slide_window positive reaches ready sortedWhole
      rw [rests.stream] at windowEq comingEq
      have split : pointers.stream = (earlier ++ [row]) ++ rest := by
        rw [rests.stream, whole, List.append_assoc, List.singleton_append]
      have comingRest := slide_coming positive reaches ready sortedWhole split before
      have readyFrom : ReadyFrom (scaledTime options schema) options.unitTimeSegment
          options.derivativeNeighbourhood (earlier ++ [row]) (pointers.slide
            (scaledTime options schema) options.unitTimeSegment options.derivativeNeighbourhood
            (scaledTime options schema row)) :=
        slide_ready_from positive reaches ready sortedWhole ⟨row, by simp, rfl⟩
      have settled := settled_iff exactly (isLeft.trans comingEq) isLast
      rw [turns]
      dsimp only
      by_cases isDue : isSettled options schema (scaledTime options schema last) row pointers.coming
      · rw [if_pos isDue, List.filter_cons_of_pos (by simpa using settled.mp isDue)]
        have calls : callsAt options schema row
            (rowTurn options schema row pointers.coming handler) =
              expectedCalls options schema stream row := by
          apply List.map_congr_left
          intro entry inCases
          have values := holds.values entry.2.valuesColumnName (List.mem_map_of_mem inCases)
          rw [windowEq] at values
          simp only [values]
          rfl
        have rows : earlier ++ row :: rest = (earlier ++ [row]) ++ rest := by simp
        have slidRests : Rests options schema stream ((earlier ++ [row]) ++ rest.take 1)
            (pointers.slide (scaledTime options schema) options.unitTimeSegment
              options.derivativeNeighbourhood (scaledTime options schema row))
            (rowTurn options schema row pointers.coming handler) := by
          refine ⟨by rw [slide_stream, rests.stream], holds, fun center later => ?_⟩
          exact readyFrom center fun other inSeen => later other (List.mem_append_left _ inSeen)
        obtain ⟨laterCalls, final, none, finalRests⟩ :=
          induction (whole.trans rows) slidRests comingRest
        rw [isLeft]
        dsimp only
        refine ⟨by rw [calls, laterCalls, List.map_cons], final, none, ?_⟩
        rw [List.length_cons, List.take_succ_cons]
        rwa [List.append_assoc, List.singleton_append] at finalRests
      · have none : (row :: rest).filter (isReleased options schema stream ·) = [] := by
          rw [List.filter_eq_nil_iff]
          intro other inRemaining
          rw [decide_eq_true_eq]
          intro laterReleased
          refine isDue (settled.mpr (released_downward positive ?_ laterReleased))
          rcases List.mem_cons.mp inRemaining with rfl | inRest
          · exact le_rfl
          · exact (List.pairwise_cons.mp sortedRemaining).1 other inRest
        rw [if_neg isDue, none]
        refine ⟨rfl, pointers.slide (scaledTime options schema) options.unitTimeSegment
          options.derivativeNeighbourhood (scaledTime options schema row), ?_, ?_, holds, ?_⟩
        · rw [comingEq, List.filter_eq_nil_iff]
          intro other inStream
          have near : ¬Ahead (scaledTime options schema) options.unitTimeSegment
              options.derivativeNeighbourhood (scaledTime options schema row) other :=
            fun ahead => isDue (settled.mpr (.inr ⟨other, inStream, ahead⟩))
          simpa using near
        · rw [slide_stream, rests.stream]
        · exact readyFrom

end Turns

section Calls

variable {options : DerivativeOptions} {schema : Schema}

theorem scaled_time_mono (positive : 0 < options.unitTimeSegment) {rows : List Row}
    (kept : KeepsTimes schema rows) {earlier later : Row} (inRows : earlier ∈ rows ∧ later ∈ rows)
    (earlierTimed : ∃ value, timeCell schema earlier = some (.integer value))
    (laterTimed : ∃ value, timeCell schema later = some (.integer value))
    (le : integerValue (timeCell schema earlier) ≤ integerValue (timeCell schema later)) :
    scaledTime options schema earlier ≤ scaledTime options schema later := by
  have earlierKept := kept earlier inRows.1
  have laterKept := kept later inRows.2
  obtain ⟨first, earlierCell⟩ := earlierTimed
  obtain ⟨second, laterCell⟩ := laterTimed
  rw [earlierCell] at le earlierKept
  rw [laterCell] at le laterKept
  unfold scaledTime keptNanoseconds
  rw [earlierCell, laterCell]
  apply Numbers.round_mono
  apply Int.tdiv_le_tdiv positive
  cases cast : castTimestampScalar (timeType schema) (some (.integer first)) .nano with
  | error fault =>
      cases otherCast : castTimestampScalar (timeType schema) (some (.integer second)) .nano with
      | error other => exact le_rfl
      | ok other =>
          obtain ⟨_, again⟩ := cast_timestamp_exists otherCast first
          rw [cast] at again
          cases again
  | ok timestamp =>
      obtain ⟨other, otherCast⟩ := cast_timestamp_exists cast second
      rw [otherCast]
      dsimp only
      rw [earlierKept timestamp cast, laterKept other otherCast]
      exact cast_timestamp_mono cast otherCast le

theorem sorted_of_timed (positive : 0 < options.unitTimeSegment) {rows : List Row}
    (kept : KeepsTimes schema rows) (timed : ∀ row ∈ rows, ∃ value, timeCell schema row = some (.integer value))
    (sorted : rows.Pairwise fun earlier later =>
      integerValue (timeCell schema earlier) ≤ integerValue (timeCell schema later)) :
    Sorted (scaledTime options schema) rows := by
  refine List.Pairwise.imp_of_mem ?_ sorted
  intro earlier later inEarlier inLater le
  exact scaled_time_mono positive kept ⟨inEarlier, inLater⟩ (timed earlier inEarlier)
    (timed later inLater) le

theorem released_take_drop (positive : 0 < options.unitTimeSegment) {stream : List Row}
    (sorted : Sorted (scaledTime options schema) stream) :
    stream = released options schema stream ++
      stream.drop (released options schema stream).length := by
  have front : released options schema stream =
      stream.takeWhile (isReleased options schema stream ·) := by
    rw [take_while_eq_filter]
    · rfl
    · refine sorted.imp ?_
      intro earlier later le
      simpa using released_downward positive le
  have isPrefix : released options schema stream <+: stream := by
    rw [front]
    exact List.takeWhile_prefix _
  conv_lhs => rw [← List.take_append_drop (released options schema stream).length stream]
  rw [← List.prefix_iff_eq_take.mp isPrefix]

theorem released_append {stream rest : List Row} (positive : 0 < options.unitTimeSegment)
    (sorted : Sorted (scaledTime options schema) stream) :
    released options schema (stream ++ rest) = released options schema stream ++
      (stream.drop (released options schema stream).length ++ rest).filter
        (isReleased options schema (stream ++ rest) ·) := by
  have kept : (released options schema stream).filter
      (isReleased options schema (stream ++ rest) ·) = released options schema stream := by
    rw [List.filter_eq_self]
    intro row member
    rw [released, List.mem_filter, decide_eq_true_eq] at member
    rw [decide_eq_true_eq]
    rcases member.2 with noWait | ⟨other, inStream, ahead⟩
    · exact .inl noWait
    · exact .inr ⟨other, List.mem_append_left _ inStream, ahead⟩
  conv_lhs => rw [released]
  conv_lhs =>
    enter [2]
    rw [released_take_drop positive sorted]
  rw [List.append_assoc, List.filter_append, kept]

/-- The handler after a stream, before a batch that continues it. -/
structure Waits (options : DerivativeOptions) (schema : Schema) (stream : List Row)
    (handler : DerivativeHandler) : Prop where
  buffer : (handler.bufferedBatch.map RecordBatch.rows).getD [] =
    stream.drop (released options schema stream).length
  schemas : ∀ batch ∈ handler.bufferedBatch, batch.schema = schema
  times : ∃ front, handler.allBufferedTimes = front ++
    (stream.drop (released options schema stream).length).map (scaledTime options schema)
  rests : ∃ pointers : Pointers Row, pointers.coming = [] ∧ Rests options schema stream
    (stream.take ((released options schema stream).length + 1)) pointers handler

theorem waits_initially (options : DerivativeOptions) (schema : Schema) :
    Waits options schema [] {} := by
  refine ⟨rfl, ?_, ⟨[], rfl⟩, ⟨[], [], []⟩, rfl, rfl, ⟨rfl, fun name member => rfl⟩, ?_⟩
  · intro batch isBuffered
    cases isBuffered
  · intro center later
    constructor <;> · intro item member; cases member

/-- Where one time was read, every row that has a time is. -/
theorem reads_scaled_of_returned {timeColumn : Column} {rows : List Row} {position : Nat}
    {value : Int} (positive : 0 < options.unitTimeSegment)
    (cells : timeColumn.cells = rows.map (timeCell schema))
    (type : timeColumn.type = timeType schema)
    (timed : ∀ row ∈ rows, ∃ value, timeCell schema row = some (.integer value))
    (returned : getScaledPositionTime options position timeColumn = .ok value) :
    ReadsScaled options schema timeColumn rows := by
  refine reads_scaled_of_castable cells type (by omega) (fun isUnit => by omega) ?_
  cases found : rows[position]? with
  | none =>
      have outside : timeColumn.cells[position]? = none := by
        rw [cells, List.getElem?_map, found, Option.map_none]
      simp only [getScaledPositionTime, Column.getScalar, outside] at returned
      cases returned
  | some first =>
      rw [scaled_position_time_eq cells type found] at returned
      obtain ⟨firstValue, firstCell⟩ := timed first (List.mem_of_getElem? found)
      intro row member
      obtain ⟨own, cell⟩ := timed row member
      rw [firstCell] at returned
      rw [cell]
      cases cast : castTimestampScalar (timeType schema) (some (.integer firstValue)) .nano with
      | error fault =>
          rw [cast] at returned
          cases returned
      | ok timestamp => exact cast_timestamp_exists cast own

omit [Numbers] in
theorem sort_of_timed {batch sorted : RecordBatch} {name : String}
    (named : batch.schema.metadata.timeColumnName = some name)
    (sorts : sortByColumn name batch = .ok sorted)
    (timed : ∀ row ∈ batch.rows, ∃ value, timeCell batch.schema row = some (.integer value))
    (inOrder : batch.rows.Pairwise fun earlier later =>
      integerValue (timeCell batch.schema earlier) ≤ integerValue (timeCell batch.schema later)) :
    sorted = batch := by
  unfold sortByColumn at sorts
  cases located : batch.schema.fieldIndex name with
  | none => rw [located] at sorts; cases sorts
  | some index =>
      rw [located, Except.ok.injEq] at sorts
      have cell : timeCell batch.schema = fun row => row.getD index none := by
        funext row
        rw [timeCell, named, Option.map_some, Option.getD_some, Schema.cell, located,
          Option.map_some, Option.getD_some]
      rw [cell] at timed inOrder
      rw [← sorts]
      exact sort_rows_of_sorted_integers timed inOrder

variable (exactly : ComparesExactly options) (positive : 0 < options.unitTimeSegment)
  (reaches : 0 ≤ options.derivativeNeighbourhood)
include exactly positive reaches

/-- The turns of a call, from the rows that wait and the deques left by the last one. -/
theorem call_turns {stream fresh : List Row} {handler : DerivativeHandler} {last : Row}
    (waits : Waits options schema stream handler)
    (sorted : Sorted (scaledTime options schema) (stream ++ fresh))
    (isLast : last ∈ stream ++ fresh) :
    let remaining := stream.drop (released options schema stream).length ++ fresh
    let turned := turns options schema (scaledTime options schema last) remaining fresh handler
    turned.1 = ((released options schema (stream ++ fresh)).drop
        (released options schema stream).length).map
          (expectedCalls options schema (stream ++ fresh)) ∧
      ∃ pointers : Pointers Row, pointers.coming = [] ∧
        Rests options schema (stream ++ fresh) ((stream ++ fresh).take
          ((released options schema (stream ++ fresh)).length + 1)) pointers turned.2 := by
  intro remaining turned
  obtain ⟨pointers, none, whole, holds, ready⟩ := waits.rests
  have sortedStream := (List.pairwise_append.mp sorted).1
  have isPrefix := released_take_drop positive sortedStream
  have split : stream ++ fresh = released options schema stream ++ remaining := by
    conv_lhs => rw [isPrefix]
    rw [List.append_assoc]
  have rests : Rests options schema (stream ++ fresh)
      (released options schema stream ++ remaining.take 1)
      ⟨pointers.passed, pointers.window, fresh⟩ handler := by
    refine ⟨?_, holds, fun center later => ready center fun row member => later row ?_⟩
    · rw [← whole, Pointers.stream, Pointers.stream, none, List.append_nil]
    · have front : stream.take (released options schema stream).length =
          released options schema stream := by
        conv_lhs =>
          enter [2]
          rw [isPrefix]
        exact List.take_left
      rw [List.take_add, front, List.mem_append] at member
      rcases member with earlier | waiting
      · exact List.mem_append_left _ earlier
      · refine List.mem_append_right _ ?_
        rw [List.take_append]
        exact List.mem_append_left _ waiting
  obtain ⟨calls, final, noComing, finalRests⟩ := turns_eq positive reaches exactly isLast sorted remaining
    split rests fun row member => List.mem_append_right _ member
  have next : (released options schema (stream ++ fresh)).drop
      (released options schema stream).length =
        remaining.filter (isReleased options schema (stream ++ fresh) ·) := by
    rw [released_append positive sortedStream, List.drop_left]
  have count : (released options schema (stream ++ fresh)).length =
      (released options schema stream).length + turned.1.length := by
    rw [released_append positive sortedStream, List.length_append, calls, List.length_map]
  refine ⟨by rw [calls, next], final, noComing, ?_⟩
  rw [count, split, Nat.add_assoc, List.take_length_add_append]
  exact split ▸ finalRests

/-- A call that returns on a batch that continues the stream. -/
theorem call_exact {calculator : DerivativeCalculator} {stream : List Row} {batch : RecordBatch}
    {handler after : DerivativeHandler} {answer : List RecordBatch × List (List CalculatorCall)}
    (waits : Waits options schema stream handler) (own : batch.schema = schema)
    (nonempty : batch.rows ≠ []) (kept : KeepsTimes schema (stream ++ batch.rows))
    (timed : ∀ row ∈ stream ++ batch.rows, ∃ value, timeCell schema row = some (.integer value))
    (inOrder : (stream ++ batch.rows).Pairwise fun earlier later =>
      integerValue (timeCell schema earlier) ≤ integerValue (timeCell schema later))
    (returned : handleWithCalls calculator options batch handler = .ok answer after) :
    ExactAnswer calculator options schema stream (stream ++ batch.rows) answer ∧
      Waits options schema (stream ++ batch.rows) after := by
  obtain ⟨name, sorted, concat, timeColumn, valueColumns, bounds, isName, sorts, concatenates,
    found, values, _, _, reads, _⟩ := reads_of_returned returned
  have named := time_column_name_of_returned isName
  obtain rfl : sorted = batch := by
    refine sort_of_timed named sorts ?_ ?_
    · rw [own]
      exact fun row member => timed row (List.mem_append_right _ member)
    · rw [own]
      exact (List.pairwise_append.mp inOrder).2.1
  obtain ⟨concatSchema, concatRows⟩ := concatenate_buffered_ok concatenates
  have schemaOf : concat.schema = schema := by
    rw [concatSchema]
    cases buffered : handler.bufferedBatch with
    | none => exact own
    | some bufferedBatch => exact waits.schemas bufferedBatch buffered
  rw [waits.buffer] at concatRows
  have inStream : ∀ row ∈ concat.rows, row ∈ stream ++ sorted.rows := by
    intro row member
    rw [concatRows] at member
    rcases List.mem_append.mp member with waiting | fresh
    · exact List.mem_append_left _ (List.mem_of_mem_drop waiting)
    · exact List.mem_append_right _ fresh
  have namedConcat : concat.schema.metadata.timeColumnName = some name := by
    rw [schemaOf, ← own]
    exact named
  obtain ⟨cells, type⟩ := time_column_cells namedConcat found
  have readsScaled : ReadsScaled options concat.schema timeColumn concat.rows := by
    refine reads_scaled_of_returned positive cells type ?_ reads
    rw [schemaOf]
    exact fun row member => timed row (inStream row member)
  have callReads : CallReads options handler sorted sorted concat timeColumn valueColumns :=
    ⟨⟨name, isName, sorts, found⟩, concatenates, values, readsScaled⟩
  obtain ⟨front, times⟩ := waits.times
  have ends := handle_with_calls_ends calculator callReads nonempty (not_behind_self reaches)
    (reached_self reaches)
    ⟨front, by rw [waits.buffer, schemaOf]; exact times⟩
  rw [returned] at ends
  obtain ⟨answers, _⟩ := ends
  have sortedTimes := sorted_of_timed positive kept timed inOrder
  have concatNonempty : concat.rows ≠ [] := by
    rw [concatRows]
    exact List.append_ne_nil_of_right_ne_nil _ nonempty
  obtain ⟨last, isLast⟩ : ∃ last, concat.rows.getLast? = some last :=
    Option.ne_none_iff_exists'.mp (by simpa using concatNonempty)
  have turned := answers.turned last isLast
  rw [schemaOf, concatRows] at turned
  obtain ⟨calls, pointers, noComing, rests⟩ := call_turns exactly positive reaches waits sortedTimes
    (inStream last (List.mem_of_getLast? isLast))
  have held := turns_held (scaledTime options schema last) (not_behind_self reaches)
    (reached_self reaches)
    (stream.drop (released options schema stream).length ++ sorted.rows) rfl ⟨front, times⟩
  rw [← turned] at calls rests held
  dsimp only at calls rests held
  have sortedStream := (List.pairwise_append.mp sortedTimes).1
  have isPrefix := released_take_drop positive sortedStream
  have count : (released options schema (stream ++ sorted.rows)).length =
      (released options schema stream).length + answer.2.length := by
    rw [released_append positive sortedStream, calls, released_append positive sortedStream,
      List.drop_left, List.length_append, List.length_map]
  have dropped : (stream ++ sorted.rows).drop
      (released options schema (stream ++ sorted.rows)).length =
        concat.rows.drop answer.2.length := by
    rw [count, ← List.drop_drop, concatRows]
    congr 1
    rw [List.drop_append, Nat.sub_eq_zero_of_le, List.drop_zero]
    conv_rhs => rw [isPrefix]
    rw [List.length_append]
    exact Nat.le_add_right _ _
  have taken : concat.rows.take answer.2.length =
      (released options schema (stream ++ sorted.rows)).drop
        (released options schema stream).length := by
    have whole := released_take_drop positive sortedTimes
    have front : (stream ++ sorted.rows).drop (released options schema stream).length =
        concat.rows := by
      rw [concatRows, List.drop_append, Nat.sub_eq_zero_of_le, List.drop_zero]
      conv_rhs => rw [isPrefix]
      rw [List.length_append]
      exact Nat.le_add_right _ _
    rw [← front]
    conv_lhs => rw [whole]
    rw [List.drop_append_of_le_length (by omega), List.take_append_of_le_length (by
      rw [List.length_drop]; omega), List.take_of_length_le (by rw [List.length_drop]; omega)]
  refine ⟨⟨calls, ?_⟩, ?_, ?_, ?_, ?_⟩
  · obtain ⟨result, isResult, resultSchema, resultRows⟩ := answers.result
    refine ⟨result, isResult, ?_, ?_⟩
    · rw [resultSchema, schemaOf, own, ite_self]
    · rw [resultRows, taken, calls, List.zipWith_map_right, List.zipWith_self]
  · rw [answers.buffered, Option.map_some, Option.getD_some, slice_from_rows, dropped]
  · intro other isBuffered
    rw [answers.buffered, Option.mem_some_iff] at isBuffered
    rw [← isBuffered, slice_from_schema, schemaOf]
  · obtain ⟨front, times⟩ := held
    refine ⟨front, ?_⟩
    rw [dropped, concatRows]
    exact times
  · exact ⟨pointers, noComing, rests.stream, ⟨rests.holds.times, rests.holds.values⟩, rests.ready⟩

end Calls

section Runs

variable {options : DerivativeOptions} {schema : Schema}

def ExactAnswers (calculator : DerivativeCalculator) (options : DerivativeOptions)
    (schema : Schema) : List Row → List RecordBatch →
      List (List RecordBatch × List (List CalculatorCall)) → Prop
  | _, [], answers => answers = []
  | stream, batch :: rest, answers => ∃ answer later, answers = answer :: later ∧
      ExactAnswer calculator options schema stream (stream ++ batch.rows) answer ∧
      ExactAnswers calculator options schema (stream ++ batch.rows) rest later

theorem run_exact (exactly : ComparesExactly options) (positive : 0 < options.unitTimeSegment)
    (reaches : 0 ≤ options.derivativeNeighbourhood) {calculator : DerivativeCalculator}
    (batches : List RecordBatch) {stream : List Row} {handler final : DerivativeHandler}
    {answers : List (List RecordBatch × List (List CalculatorCall))}
    (waits : Waits options schema stream handler)
    (schemas : ∀ batch ∈ batches, batch.schema = schema)
    (nonempty : ∀ batch ∈ batches, batch.rows ≠ [])
    (kept : KeepsTimes schema (stream ++ streamRows batches))
    (timed : ∀ row ∈ stream ++ streamRows batches,
      ∃ value, timeCell schema row = some (.integer value))
    (inOrder : (stream ++ streamRows batches).Pairwise fun earlier later =>
      integerValue (timeCell schema earlier) ≤ integerValue (timeCell schema later))
    (returned : handleAllWithCalls calculator options batches handler = .ok answers final) :
    ExactAnswers calculator options schema stream batches answers := by
  induction batches generalizing stream handler answers final with
  | nil =>
      rw [handleAllWithCalls, pure_apply, EStateM.Result.ok.injEq] at returned
      exact returned.1.symm
  | cons batch rest induction =>
      have rows : stream ++ streamRows (batch :: rest) =
          (stream ++ batch.rows) ++ streamRows rest := by
        rw [streamRows, List.flatMap_cons, List.append_assoc]
        rfl
      rw [rows] at kept timed inOrder
      rw [handleAllWithCalls] at returned
      obtain ⟨answer, middle, first, returned⟩ := bind_ok_cases returned
      obtain ⟨later, _, others, returned⟩ := bind_ok_cases returned
      rw [pure_apply, EStateM.Result.ok.injEq] at returned
      obtain ⟨exact, waitsNext⟩ := call_exact exactly positive reaches waits
        (schemas batch (by simp)) (nonempty batch (by simp))
        (fun row member => kept row (List.mem_append_left _ member))
        (fun row member => timed row (List.mem_append_left _ member))
        (List.pairwise_append.mp inOrder).1 first
      exact ⟨answer, later, returned.1.symm, exact,
        induction waitsNext (fun other member => schemas other (List.mem_cons_of_mem _ member))
          (fun other member => nonempty other (List.mem_cons_of_mem _ member)) kept timed inOrder
          others⟩

theorem exact_answer_at {calculator : DerivativeCalculator} {batches : List RecordBatch}
    {stream : List Row} {answers : List (List RecordBatch × List (List CalculatorCall))}
    (exact : ExactAnswers calculator options schema stream batches answers) :
    answers.length = batches.length ∧ ∀ index, (bound : index < answers.length) →
      ExactAnswer calculator options schema (stream ++ streamRows (batches.take index))
        (stream ++ streamRows (batches.take (index + 1))) answers[index] := by
  induction batches generalizing stream answers with
  | nil =>
      obtain rfl : answers = [] := exact
      exact ⟨rfl, fun index bound => nomatch bound⟩
  | cons batch rest induction =>
      obtain ⟨answer, later, rfl, first, others⟩ := exact
      obtain ⟨lengths, each⟩ := induction others
      refine ⟨by rw [List.length_cons, List.length_cons, lengths], fun index bound => ?_⟩
      have rows : ∀ count, stream ++ streamRows ((batch :: rest).take (count + 1)) =
          (stream ++ batch.rows) ++ streamRows (rest.take count) := by
        intro count
        rw [List.take_succ_cons, streamRows, List.flatMap_cons, List.append_assoc]
        rfl
      cases index with
      | zero =>
          rw [rows, List.take_zero, List.take_zero]
          simpa [streamRows] using first
      | succ index =>
          rw [rows, rows]
          exact each index (by simpa using bound)

/-- What comes after a row was released is not near it. -/
theorem expected_calls_append (positive : 0 < options.unitTimeSegment)
    (waits : options.noWaitFuture = false) {stream rest : List Row} {row : Row}
    (sorted : Sorted (scaledTime options schema) (stream ++ rest))
    (member : row ∈ released options schema stream) :
    expectedCalls options schema (stream ++ rest) row =
      expectedCalls options schema stream row := by
  rw [released, List.mem_filter, decide_eq_true_eq] at member
  rcases member.2 with noWait | ⟨other, inStream, ahead⟩
  · rw [waits] at noWait
    cases noWait
  · have far : neighbours options schema rest row = [] := by
      unfold neighbours
      rw [List.filter_eq_nil_iff]
      intro later inRest
      have le := (List.pairwise_append.mp sorted).2.2 other inStream later inRest
      have laterAhead : Ahead (scaledTime options schema) options.unitTimeSegment
          options.derivativeNeighbourhood (scaledTime options schema row) later :=
        (@ahead_anti _ (scaledTime options schema)) positive.le le_rfl le ahead
      rw [decide_eq_true_eq]
      exact fun near => ((@near_iff _ (scaledTime options schema) _ _ _ _ positive).mp near).2
        laterAhead
    have same : neighbours options schema (stream ++ rest) row =
        neighbours options schema stream row := by
      rw [neighbours, List.filter_append]
      exact (congrArg (neighbours options schema stream row ++ ·) far).trans (List.append_nil _)
    unfold expectedCalls
    rw [same]

theorem exact_outputs (positive : 0 < options.unitTimeSegment)
    (waits : options.noWaitFuture = false) {calculator : DerivativeCalculator}
    (batches : List RecordBatch) {stream : List Row}
    {answers : List (List RecordBatch × List (List CalculatorCall))}
    (sorted : Sorted (scaledTime options schema) (stream ++ streamRows batches))
    (exact : ExactAnswers calculator options schema stream batches answers) :
    (answers.flatMap fun answer => answer.1.flatMap RecordBatch.rows) =
      ((released options schema (stream ++ streamRows batches)).drop
        (released options schema stream).length).map fun row =>
          withDerivatives calculator row
            (expectedCalls options schema (stream ++ streamRows batches) row) := by
  induction batches generalizing stream answers with
  | nil =>
      obtain rfl : answers = [] := exact
      simp [streamRows]
  | cons batch rest induction =>
      obtain ⟨answer, later, rfl, ⟨_, result, isResult, _, resultRows⟩, others⟩ := exact
      have rows : stream ++ streamRows (batch :: rest) =
          (stream ++ batch.rows) ++ streamRows rest := by
        rw [streamRows, List.flatMap_cons, List.append_assoc]
        rfl
      rw [rows] at sorted ⊢
      have sortedNow := (List.pairwise_append.mp sorted).1
      have sortedBefore := (List.pairwise_append.mp sortedNow).1
      have short : (released options schema stream).length ≤
          (released options schema (stream ++ batch.rows)).length := by
        rw [released_append positive sortedBefore, List.length_append]
        exact Nat.le_add_right _ _
      have split : (released options schema ((stream ++ batch.rows) ++ streamRows rest)).drop
          (released options schema stream).length =
            (released options schema (stream ++ batch.rows)).drop
              (released options schema stream).length ++
            (released options schema ((stream ++ batch.rows) ++ streamRows rest)).drop
              (released options schema (stream ++ batch.rows)).length := by
        conv_lhs => rw [released_append positive sortedNow]
        rw [List.drop_append_of_le_length short]
        congr 1
        rw [released_append positive sortedNow, List.drop_left]
      rw [List.flatMap_cons, induction sorted others, isResult, split, List.map_append]
      congr 1
      rw [List.flatMap_cons, List.flatMap_nil, List.append_nil, resultRows]
      apply List.map_congr_left
      intro row member
      rw [expected_calls_append positive waits sorted (List.mem_of_mem_drop member)]

theorem window_exact (exactly : ComparesExactly options) {calculator : DerivativeCalculator}
    {batches : List RecordBatch} {final : DerivativeHandler}
    {answers : List (List RecordBatch × List (List CalculatorCall))}
    (positive : 0 < options.unitTimeSegment) (reaches : 0 ≤ options.derivativeNeighbourhood)
    (stream : TimedStream schema batches) (kept : KeepsTimes schema (streamRows batches))
    (returned : handleAllWithCalls calculator options batches {} = .ok answers final) :
    answers.length = batches.length ∧
    (∀ index, (bound : index < answers.length) →
      ExactAnswer calculator options schema (streamRows (batches.take index))
        (streamRows (batches.take (index + 1))) answers[index]) ∧
    (∀ count, released options schema (streamRows (batches.take count)) <+:
      streamRows (batches.take count)) ∧
    (options.noWaitFuture = false →
      (answers.flatMap fun answer => answer.1.flatMap RecordBatch.rows) =
        (released options schema (streamRows batches)).map fun row =>
          withDerivatives calculator row
            (expectedCalls options schema (streamRows batches) row)) := by
  have exact := run_exact exactly positive reaches batches (waits_initially options schema)
    stream.schemas stream.nonempty kept stream.timed stream.sorted returned
  have sorted := sorted_of_timed positive kept stream.timed stream.sorted
  obtain ⟨lengths, each⟩ := exact_answer_at exact
  refine ⟨lengths, each, fun count => ?_, fun waits => ?_⟩
  · have part : streamRows batches =
        streamRows (batches.take count) ++ streamRows (batches.drop count) := by
      conv_lhs => rw [← List.take_append_drop count batches]
      exact List.flatMap_append
    rw [part] at sorted
    exact ⟨_, (released_take_drop positive (List.pairwise_append.mp sorted).1).symm⟩
  · exact exact_outputs positive waits batches sorted exact

end Runs

end Window

section Program

variable {options : DerivativeOptions} {schema : Schema}

/-- The times of the rows in nanoseconds have 64 bits. -/
def NanosecondsFit (schema : Schema) (rows : List Row) : Prop :=
  ∀ row ∈ rows, ∀ timestamp,
    castTimestampScalar (timeType schema) (timeCell schema row) .nano = .ok timestamp →
    FitsInt64 (integerValue timestamp)

/-- Distances of 53 bits are not rounded, and longer ones are not rounded below them. -/
theorem compares_exactly_of_small (positive : 0 < options.unitTimeSegment)
    (reaches : 0 ≤ options.derivativeNeighbourhood)
    (small : options.derivativeNeighbourhood < 2 ^ 53) : ComparesExactly options := by
  intro later earlier
  have reach : nearestInt options.derivativeNeighbourhood = options.derivativeNeighbourhood :=
    nearest_int_small (by omega) small
  have rounds : scaledDistance options later earlier =
      nearestInt (nearestInt (later - earlier) * nearestInt options.unitTimeSegment) := rfl
  have rounded : Numbers.round options.derivativeNeighbourhood =
      options.derivativeNeighbourhood := reach
  rw [rounds, rounded]
  generalize later - earlier = distance
  have unitRounded : 1 ≤ nearestInt options.unitTimeSegment := one_le_nearest_int positive
  rcases lt_or_ge 0 distance with ahead | behind
  · have distanceRounded : 1 ≤ nearestInt distance := one_le_nearest_int ahead
    by_cases short : distance * options.unitTimeSegment < 2 ^ 53
    · have distanceShort : distance < 2 ^ 53 := by nlinarith
      have unitShort : options.unitTimeSegment < 2 ^ 53 := by nlinarith
      have nonneg : 0 ≤ distance * options.unitTimeSegment :=
        Int.mul_nonneg ahead.le positive.le
      rw [nearest_int_small (by omega) distanceShort, nearest_int_small (by omega) unitShort,
        nearest_int_small (by omega) short]
    · have long : 2 ^ 53 ≤ nearestInt distance * nearestInt options.unitTimeSegment := by
        by_cases distanceShort : distance < 2 ^ 53
        · rw [nearest_int_small (by omega) distanceShort]
          by_cases unitShort : options.unitTimeSegment < 2 ^ 53
          · rw [nearest_int_small (by omega) unitShort]
            omega
          · have unitLong := nearest_int_large (not_lt.mp unitShort)
            nlinarith
        · have distanceLong := nearest_int_large (not_lt.mp distanceShort)
          nlinarith
      have far := nearest_int_large long
      exact iff_of_false (by omega) (by omega)
  · have nonpos : nearestInt distance * nearestInt options.unitTimeSegment ≤ 0 :=
      Int.mul_nonpos_of_nonpos_of_nonneg (nearest_int_nonpos behind) (by omega)
    have exactNonpos : distance * options.unitTimeSegment ≤ 0 :=
      Int.mul_nonpos_of_nonpos_of_nonneg behind positive.le
    have rounded := nearest_int_nonpos nonpos
    exact iff_of_true (by omega) (by omega)

theorem keeps_times_of_fit {rows : List Row} (fit : NanosecondsFit schema rows) :
    KeepsTimes schema rows :=
  fun row member timestamp cast => wrap_of_fits (fit row member timestamp cast)

/-- On a stream of one schema in the order of its times, cut into batches in any way, the
window is exact where the nanoseconds have 64 bits and the neighbourhood has 53: each call of
the calculator has all that was received near its row, each row is output once, in order and
as soon as it is released, and without `noWait` the output does not depend on the cuts. -/
theorem derivative_window_exact {calculator : DerivativeCalculator}
    {batches : List RecordBatch} {final : DerivativeHandler}
    {answers : List (List RecordBatch × List (List CalculatorCall))}
    (positive : 0 < options.unitTimeSegment) (reaches : 0 ≤ options.derivativeNeighbourhood)
    (small : options.derivativeNeighbourhood < 2 ^ 53) (stream : TimedStream schema batches)
    (fit : NanosecondsFit schema (streamRows batches))
    (returned : handleAllWithCalls calculator options batches {} = .ok answers final) :
    answers.length = batches.length ∧
    (∀ index, (bound : index < answers.length) →
      ExactAnswer calculator options schema (streamRows (batches.take index))
        (streamRows (batches.take (index + 1))) answers[index]) ∧
    (∀ count, released options schema (streamRows (batches.take count)) <+:
      streamRows (batches.take count)) ∧
    (options.noWaitFuture = false →
      (answers.flatMap fun answer => answer.1.flatMap RecordBatch.rows) =
        (released options schema (streamRows batches)).map fun row =>
          withDerivatives calculator row
            (expectedCalls options schema (streamRows batches) row)) :=
  window_exact (compares_exactly_of_small positive reaches small) positive reaches stream
    (keeps_times_of_fit fit) returned

end Program

def secondOptions : DerivativeOptions where
  unitTimeSegment := 1000000000
  derivativeNeighbourhood := 1000000000
  derivativeCases := [("speed", ⟨"value", 1⟩)]

def valuesSchema : Schema where
  fields := [{ name := "time", type := .timestamp .second }, { name := "value", type := .int64 }]
  metadata := { timeColumnName := some "time" }

def valuesBatch (rows : List (Int × Option Int)) : RecordBatch where
  schema := valuesSchema
  rows := rows.map fun (time, value) => [some (.integer time), value.map .integer]
  conforms := by
    intro row member
    obtain ⟨⟨time, value⟩, _, rfl⟩ := List.mem_map.mp member
    cases value <;> exact .cons rfl (.cons rfl .nil)

def answersOf {State Value : Type} : EStateM.Result Fault State Value → Option Value
  | .ok value _ => some value
  | .error _ _ => none

def raisedBy {State Value : Type} : EStateM.Result Fault State Value → Option Fault
  | .ok _ _ => none
  | .error fault _ => some fault

theorem returned_of_answers {State Value : Type} {result : EStateM.Result Fault State Value}
    {value : Value} (answers : answersOf result = some value) :
    ∃ final, result = .ok value final := by
  cases result with
  | ok own final =>
      obtain rfl := Option.some.inj answers
      exact ⟨final, rfl⟩
  | error fault final => cases answers

theorem second_window_exact :
    ∃ answers final, handleAllWithCalls (fun _ => none) secondOptions
        [valuesBatch [(100, some 1), (101, none)], valuesBatch [(102, some 5)]] {} =
          .ok answers final ∧
      answers.length = 2 ∧
      (answers.flatMap fun answer => answer.1.flatMap RecordBatch.rows) =
        (released secondOptions valuesSchema
          (streamRows [valuesBatch [(100, some 1), (101, none)], valuesBatch [(102, some 5)]])).map
          fun row => withDerivatives (fun _ => none) row
            (expectedCalls secondOptions valuesSchema (streamRows
              [valuesBatch [(100, some 1), (101, none)], valuesBatch [(102, some 5)]]) row) := by
  have stream : TimedStream valuesSchema
      [valuesBatch [(100, some 1), (101, none)], valuesBatch [(102, some 5)]] := by
    refine ⟨?_, ?_, ?_, ?_⟩
    · intro batch member
      simp only [List.mem_cons, List.not_mem_nil, or_false] at member
      rcases member with rfl | rfl <;> rfl
    · intro batch member
      simp only [List.mem_cons, List.not_mem_nil, or_false] at member
      rcases member with rfl | rfl <;> simp [valuesBatch]
    · intro row member
      have cases : row = [some (.integer 100), some (.integer 1)] ∨
          row = [some (.integer 101), none] ∨ row = [some (.integer 102), some (.integer 5)] := by
        simpa [streamRows, valuesBatch] using member
      rcases cases with rfl | rfl | rfl <;> exact ⟨_, rfl⟩
    · decide
  have fit : NanosecondsFit valuesSchema
      (streamRows [valuesBatch [(100, some 1), (101, none)], valuesBatch [(102, some 5)]]) := by
    intro row member timestamp cast
    have cases : row = [some (.integer 100), some (.integer 1)] ∨
        row = [some (.integer 101), none] ∨ row = [some (.integer 102), some (.integer 5)] := by
      simpa [streamRows, valuesBatch] using member
    rcases cases with rfl | rfl | rfl <;> obtain rfl := Except.ok.inj cast <;> decide
  obtain ⟨answers, isSome⟩ := Option.isSome_iff_exists.mp
    (show (answersOf (handleAllWithCalls (fun _ => none) secondOptions [valuesBatch
      [(100, some 1), (101, none)], valuesBatch [(102, some 5)]] {})).isSome = true by
        decide +kernel)
  obtain ⟨final, returned⟩ := returned_of_answers isSome
  obtain ⟨lengths, _, _, outputs⟩ := @derivative_window_exact secondOptions _ (fun _ => none)
    _ _ _ (by decide) (by decide) (by decide) stream fit returned
  exact ⟨answers, final, returned, lengths, outputs rfl⟩

def nanoSchema : Schema where
  fields := [{ name := "time", type := .timestamp .nano }, { name := "value", type := .int64 }]
  metadata := { timeColumnName := some "time" }

def nanoBatch (rows : List (Int × Int)) : RecordBatch where
  schema := nanoSchema
  rows := rows.map fun (time, value) => [some (.integer time), some (.integer value)]
  conforms := by
    intro row member
    obtain ⟨⟨time, value⟩, _, rfl⟩ := List.mem_map.mp member
    exact .cons rfl (.cons rfl .nil)

theorem nano_stream {rows : List (Int × Int)} (nonempty : rows ≠ [])
    (sorted : rows.Pairwise fun earlier later => earlier.1 ≤ later.1) :
    TimedStream nanoSchema [nanoBatch rows] := by
  have isStream : streamRows [nanoBatch rows] =
      rows.map fun (time, value) => [some (.integer time), some (.integer value)] := by
    rw [streamRows, List.flatMap_cons, List.flatMap_nil, List.append_nil]
    rfl
  refine ⟨?_, ?_, ?_, ?_⟩
  · intro batch member
    obtain rfl := List.mem_singleton.mp member
    rfl
  · intro batch member
    obtain rfl := List.mem_singleton.mp member
    simpa [nanoBatch] using nonempty
  · intro row member
    rw [isStream] at member
    obtain ⟨⟨time, value⟩, _, rfl⟩ := List.mem_map.mp member
    exact ⟨time, rfl⟩
  · rw [isStream, List.pairwise_map]
    exact sorted

/-- The answers are exact on the streams within some limits. -/
def ExactWithin (limits : DerivativeOptions → Schema → List Row → Prop) : Prop :=
  ∀ (calculator : DerivativeCalculator) (options : DerivativeOptions) (schema : Schema)
    (batches : List RecordBatch) (final : DerivativeHandler)
    (answers : List (List RecordBatch × List (List CalculatorCall))),
    0 < options.unitTimeSegment → 0 ≤ options.derivativeNeighbourhood →
    limits options schema (streamRows batches) → TimedStream schema batches →
    handleAllWithCalls calculator options batches {} = .ok answers final →
    ∀ index, (bound : index < answers.length) →
      ExactAnswer calculator options schema (streamRows (batches.take index))
        (streamRows (batches.take (index + 1))) answers[index]

def callTimes (answers : List (List RecordBatch × List (List CalculatorCall))) :
    List (List (List Int)) :=
  answers.flatMap fun answer => answer.2.map fun calls => calls.map CalculatorCall.times

theorem call_times_of_exact {limits : DerivativeOptions → Schema → List Row → Prop}
    (exact : ExactWithin limits) {options : DerivativeOptions} {batch : RecordBatch}
    (positive : 0 < options.unitTimeSegment) (reaches : 0 ≤ options.derivativeNeighbourhood)
    (within : limits options batch.schema (streamRows [batch]))
    (stream : TimedStream batch.schema [batch]) {times : List (List (List Int))}
    (evaluated : (answersOf (handleAllWithCalls (fun _ => none) options [batch] {})).map callTimes =
      some times) :
    times = (released options batch.schema batch.rows).map fun row =>
      (expectedCalls options batch.schema batch.rows row).map CalculatorCall.times := by
  obtain ⟨answers, isSome, isTimes⟩ := Option.map_eq_some_iff.mp evaluated
  obtain ⟨final, returned⟩ := returned_of_answers isSome
  have each := exact _ options batch.schema [batch] final answers positive reaches within stream
    returned
  have only : answers.length = 1 := by
    rw [handleAllWithCalls] at returned
    obtain ⟨answer, middle, _, returned⟩ := bind_ok_cases returned
    obtain ⟨later, _, others, returned⟩ := bind_ok_cases returned
    cases others
    cases returned
    rfl
  obtain ⟨answer, rfl⟩ := List.length_eq_one_iff.mp only
  have calls := (each 0 (by simp)).calls
  simp only [List.take_zero, Nat.zero_add, List.take_succ_cons, streamRows, List.flatMap_nil,
    List.flatMap_cons, List.append_nil, released, List.filter_nil, List.length_nil,
    List.drop_zero, List.getElem_cons_zero] at calls
  rw [← isTimes, callTimes, List.flatMap_cons, List.flatMap_nil, List.append_nil, calls,
    List.map_map]
  rfl

def wideOptions : DerivativeOptions where
  unitTimeSegment := 3
  derivativeNeighbourhood := 2 ^ 53
  derivativeCases := [("speed", ⟨"value", 1⟩)]
  noWaitFuture := true

/-- A distance is rounded down to the neighbourhood, and a time of ten thousand million seconds
wraps around to one before the first. -/
theorem provisos_needed :
    ¬(ExactWithin fun _ schema rows => NanosecondsFit schema rows) ∧
      ¬ExactWithin fun options _ _ => options.derivativeNeighbourhood < 2 ^ 53 := by
  constructor
  · intro exact
    have fit : NanosecondsFit nanoSchema (streamRows [nanoBatch [(0, 1), (2 ^ 53 + 1, 2)]]) := by
      intro row member timestamp cast
      have cases : row = [some (.integer 0), some (.integer 1)] ∨
          row = [some (.integer (2 ^ 53 + 1)), some (.integer 2)] := by
        simpa [streamRows, nanoBatch] using member
      rcases cases with rfl | rfl <;> obtain rfl := Except.ok.inj cast <;> decide
    have times := @call_times_of_exact _ exact wideOptions
      (nanoBatch [(0, 1), (2 ^ 53 + 1, 2)]) (by decide) (by decide) fit
      (nano_stream (by simp) (by decide)) [[[0, 3002399751580331]], [[0, 3002399751580331]]]
      (by decide +kernel)
    revert times
    decide +kernel
  · intro exact
    have times := @call_times_of_exact _ exact { secondOptions with noWaitFuture := true }
      (valuesBatch [(1, some 1), (10000000000, some 2)]) (by decide) (by decide) (by decide)
      (by
        refine ⟨?_, ?_, ?_, ?_⟩
        · intro batch member
          rw [List.mem_singleton.mp member]
        · intro batch member
          rw [List.mem_singleton.mp member]
          simp [valuesBatch]
        · intro row member
          have cases : row = [some (.integer 1), some (.integer 1)] ∨
              row = [some (.integer 10000000000), some (.integer 2)] := by
            simpa [streamRows, valuesBatch] using member
          rcases cases with rfl | rfl <;> exact ⟨_, rfl⟩
        · decide)
      [[[1, -8446744073]], [[1, -8446744073]]] (by decide +kernel)
    revert times
    decide +kernel

end StreamDataProcessor.Handlers.Derivative
