import StreamDataProcessor.Foundation.Effect
import StreamDataProcessor.Foundation.Rounding
import StreamDataProcessor.Foundation.TwosComplement
import StreamDataProcessor.Utils.ComputeUtils

/-!
# The derivative handler

`DerivativeHandler` of `derivative_handler.cpp`: two pointers over the rows that
wait, with the times of the window in one deque and the values of each column in
two more. Scaled times are doubles of integers, which are integers, and so are their
differences and products. The calculator is a parameter; where it has no answer it throws
a `ComputeException`.
-/

namespace StreamDataProcessor.Handlers.Derivative

open Foundation.Effect Foundation.Binary64 Foundation.TwosComplement Arrow Metadata Utils

set_option autoImplicit false

/-- What the handler keeps of an integer, and the double it rounds one to. -/
class Numbers where
  keep : Int → Int
  round : Int → Int
  round_zero : round 0 = 0
  round_mono : ∀ {left right}, left ≤ right → round left ≤ round right
  round_nonneg_iff : ∀ value, 0 ≤ round value ↔ 0 ≤ value

/-- Integers of 64 bits and doubles. -/
instance programNumbers : Numbers where
  keep := wrap64
  round := nearestInt
  round_zero := nearest_int_small (by decide) (by decide)
  round_mono := nearest_int_mono
  round_nonneg_iff := nearest_int_nonneg_iff

@[reducible] def exactNumbers : Numbers where
  keep := id
  round := id
  round_zero := rfl
  round_mono := id
  round_nonneg_iff := fun _ => Iff.rfl

structure DerivativeCase where
  valuesColumnName : String
  order : Nat

/-- The cases are listed in the order in which the unordered map visits them. -/
structure DerivativeOptions where
  unitTimeSegment : Int
  derivativeNeighbourhood : Int
  derivativeCases : List (String × DerivativeCase)
  noWaitFuture : Bool := false

structure BufferedValues where
  times : List Int := []
  values : List Double := []

structure DerivativeHandler where
  allBufferedTimes : List Int := []
  bufferedValues : String → Option BufferedValues := fun _ => none
  bufferedBatch : Option RecordBatch := none

structure CalculatorCall where
  times : List Int
  values : List Double
  derivativeTime : Int
  order : Nat

abbrev DerivativeCalculator := CalculatorCall → Option Double

abbrev Step := EStateM Fault DerivativeHandler

section Handler

variable [Numbers]

def getScaledPositionTime (options : DerivativeOptions) (row : Nat) (timeColumn : Column) :
    Outcome Int := do
  let timeScalar ← timeColumn.getScalar row
  let timestamp ← castTimestampScalar timeColumn.type timeScalar .nano
  let nanoseconds := Numbers.keep (integerValue timestamp)
  if options.unitTimeSegment = 0 then .error (.undefined "division by zero")
  else if options.unitTimeSegment = -1 ∧ nanoseconds = -2 ^ 63 then
    .error (.undefined "the quotient does not fit 64 bits")
  else return Numbers.round (nanoseconds.tdiv options.unitTimeSegment)

/-- The distance of two scaled times in nanoseconds, as the handler compares it. -/
def scaledDistance (options : DerivativeOptions) (later earlier : Int) : Int :=
  Numbers.round (Numbers.round (later - earlier) * Numbers.round options.unitTimeSegment)

/-- The time is further behind the row than the neighbourhood reaches. -/
def isBehind (options : DerivativeOptions) (derivativeTime time : Int) : Prop :=
  scaledDistance options derivativeTime time > Numbers.round options.derivativeNeighbourhood

/-- The time is not further ahead of the row than the neighbourhood reaches. -/
def isReached (options : DerivativeOptions) (derivativeTime time : Int) : Prop :=
  scaledDistance options time derivativeTime ≤ Numbers.round options.derivativeNeighbourhood

instance (options : DerivativeOptions) (derivativeTime time : Int) :
    Decidable (isBehind options derivativeTime time) :=
  inferInstanceAs (Decidable (_ > _))

instance (options : DerivativeOptions) (derivativeTime time : Int) :
    Decidable (isReached options derivativeTime time) :=
  inferInstanceAs (Decidable (_ ≤ _))

/-- The loop that pops what is behind off the deques of a column. -/
def popValues (options : DerivativeOptions) (derivativeTime : Int) :
    List Int → List Double → BufferedValues
  | [], values => ⟨[], values⟩
  | time :: times, values =>
      if isBehind options derivativeTime time then
        popValues options derivativeTime times values.tail
      else ⟨time :: times, values⟩

def BufferedValues.pop (options : DerivativeOptions) (derivativeTime : Int)
    (buffered : BufferedValues) : BufferedValues :=
  popValues options derivativeTime buffered.times buffered.values

/-- The loop that moves the left bound, on the deque of all times: the new bound, and what
is left of the deques. -/
def moveLeftBound (options : DerivativeOptions) (derivativeTime : Int) :
    Int → List Int → (String → Option BufferedValues) →
      Outcome (Int × List Int × (String → Option BufferedValues))
  | leftBoundTime, [], values =>
      if isBehind options derivativeTime leftBoundTime then
        .error (.undefined "pop_front of an empty deque")
      else .ok (leftBoundTime, [], values)
  | leftBoundTime, time :: times, values =>
      if isBehind options derivativeTime leftBoundTime then
        moveLeftBound options derivativeTime (times.headD derivativeTime) times
          fun column => (values column).map (BufferedValues.pop options derivativeTime)
      else .ok (leftBoundTime, time :: times, values)

def pushValue (column : String) (time : Int) (value : Double) (handler : DerivativeHandler) :
    DerivativeHandler :=
  let buffered := (handler.bufferedValues column).getD {}
  let pushed : BufferedValues := ⟨buffered.times ++ [time], buffered.values ++ [value]⟩
  { handler with bufferedValues := fun other =>
      if other = column then some pushed else handler.bufferedValues other }

/-- The values of a row that are not null, each pushed with the time of the row. -/
def pushValues (time : Int) (row : Nat) : List (String × Column) → Step Unit
  | [] => pure ()
  | (name, column) :: rest => do
      let valueScalar ← ofExcept (column.getScalar row)
      match valueScalar with
      | none => pushValues time row rest
      | some _ =>
          let cast ← ofExcept (castToFloat64 column.type valueScalar)
          let handler ← get
          set (pushValue name time (doubleValue cast) handler)
          pushValues time row rest

def pushTime (time : Int) : Step Unit := do
  let handler ← get
  set { handler with allBufferedTimes := handler.allBufferedTimes ++ [time] }

/-- The loop that moves the right bound, with the number of rows from it on: the bound
and its row. -/
def moveRightBound (options : DerivativeOptions) (timeColumn : Column)
    (valueColumns : List (String × Column)) (derivativeTime : Int) :
    Nat → Int → Nat → Step (Int × Nat)
  | 0, rightBoundTime, rightBoundRow => pure (rightBoundTime, rightBoundRow)
  | rowsLeft + 1, rightBoundTime, rightBoundRow =>
      if isReached options derivativeTime rightBoundTime then do
        pushTime rightBoundTime
        pushValues rightBoundTime rightBoundRow valueColumns
        if rowsLeft = 0 then pure (rightBoundTime, rightBoundRow + 1)
        else do
          let next ← ofExcept (getScaledPositionTime options (rightBoundRow + 1) timeColumn)
          moveRightBound options timeColumn valueColumns derivativeTime rowsLeft next
            (rightBoundRow + 1)
      else pure (rightBoundTime, rightBoundRow)

/-- The calls made for one row; `unordered_map::at` throws on a column without values. -/
def caseCalls (derivativeTime : Int) : List (String × DerivativeCase) →
    Step (List CalculatorCall)
  | [] => pure []
  | (_, derivativeCase) :: rest => do
      let handler ← get
      match handler.bufferedValues derivativeCase.valuesColumnName with
      | none => throw (.exception "out_of_range")
      | some buffered => do
          let calls ← caseCalls derivativeTime rest
          pure (⟨buffered.times, buffered.values, derivativeTime, derivativeCase.order⟩ :: calls)

structure Bounds where
  leftBoundTime : Int
  rightBoundTime : Int
  rightBoundRow : Nat

/-- The loop over the rows from one on, with the number of rows left: the calls made for
each row that is calculated. -/
def calculateRows (options : DerivativeOptions) (timeColumn : Column)
    (valueColumns : List (String × Column)) (totalRows : Nat) :
    Nat → Nat → Bounds → Step (List (List CalculatorCall))
  | 0, _, _ => pure []
  | rowsLeft + 1, row, bounds => do
      let derivativeTime ← ofExcept (getScaledPositionTime options row timeColumn)
      let handler ← get
      let (leftBoundTime, times, values) ← ofExcept (moveLeftBound options derivativeTime
        bounds.leftBoundTime handler.allBufferedTimes handler.bufferedValues)
      set { handler with allBufferedTimes := times, bufferedValues := values }
      let (rightBoundTime, rightBoundRow) ← moveRightBound options timeColumn valueColumns
        derivativeTime (totalRows - bounds.rightBoundRow) bounds.rightBoundTime
        bounds.rightBoundRow
      if ¬options.noWaitFuture ∧ isReached options derivativeTime rightBoundTime then pure []
      else do
        let calls ← caseCalls derivativeTime options.derivativeCases
        let later ← calculateRows options timeColumn valueColumns totalRows rowsLeft (row + 1)
          ⟨leftBoundTime, rightBoundTime, rightBoundRow⟩
        pure (calls :: later)

/-- `value_columns`: the column of each case, found once. -/
def findValueColumns (recordBatch : RecordBatch) : List (String × DerivativeCase) →
    List (String × Column) → Outcome (List (String × Column))
  | [], found => .ok found
  | (_, derivativeCase) :: rest, found =>
      let name := derivativeCase.valuesColumnName
      if name ∈ found.map Prod.fst then findValueColumns recordBatch rest found
      else match recordBatch.getColumnByName name with
        | none => fail .keyError
            s!"Concatenated RecordBatch has not column with name {name} to calculate derivative"
        | some column => findValueColumns recordBatch rest (found ++ [(name, column)])

def concatenateBuffered (buffered : Option RecordBatch) (sortedRecordBatch : RecordBatch) :
    Outcome RecordBatch :=
  match buffered with
  | none => .ok sortedRecordBatch
  | some bufferedBatch => concatenateTables [bufferedBatch, sortedRecordBatch]

def firstLeftBound (options : DerivativeOptions) (timeColumn : Column) :
    List Int → Outcome Int
  | [] => getScaledPositionTime options 0 timeColumn
  | front :: _ => .ok front

def copySchemaMetadata (source target : RecordBatch) : RecordBatch :=
  if source.schema.metadata = {} then target
  else updateSchemaMetadata target fun _ => source.schema.metadata

/-- What the builder of a case holds: null where a `ComputeException` was thrown. -/
def derivativeColumn (calculator : DerivativeCalculator) (calls : List (Option CalculatorCall)) :
    Column where
  type := .double
  cells := calls.map fun call => (call.bind calculator).map .double
  conforms := by
    intro cell member
    obtain ⟨call, _, rfl⟩ := List.mem_map.mp member
    cases call.bind calculator <;> rfl

/-- The columns of the cases from an index on, added to the calculated rows. -/
def addDerivatives (calculator : DerivativeCalculator) (calls : List (List CalculatorCall)) :
    Nat → List (String × DerivativeCase) → RecordBatch → Outcome RecordBatch
  | _, [], calculatedBatch => .ok calculatedBatch
  | index, (resultColumnName, _) :: rest, calculatedBatch => do
      let added ← calculatedBatch.addColumn
        { name := resultColumnName, type := .double, metadata := { columnType := some .field } }
        (derivativeColumn calculator (calls.map fun row => row[index]?))
      addDerivatives calculator calls (index + 1) rest added

/-- `handle`, with the calls it makes for each row of its result. -/
def handleWithCalls (calculator : DerivativeCalculator) (options : DerivativeOptions)
    (recordBatch : RecordBatch) : Step (List RecordBatch × List (List CalculatorCall)) := do
  let timeColumnName ← ofExcept (getTimeColumnNameMetadata recordBatch)
  let sortedRecordBatch ← ofExcept (sortByColumn timeColumnName recordBatch)
  let handler ← get
  let concatRecordBatch ← ofExcept
    (concatenateBuffered handler.bufferedBatch sortedRecordBatch)
  match concatRecordBatch.getColumnByName timeColumnName with
  | none => ofExcept (fail .invalid
      s!"Concatenated RecordBatch has no time column with name {timeColumnName}")
  | some timeColumn => do
      let valueColumns ← ofExcept
        (findValueColumns concatRecordBatch options.derivativeCases [])
      let leftBoundTime ← ofExcept (firstLeftBound options timeColumn handler.allBufferedTimes)
      let rightBoundRow := (handler.bufferedBatch.map RecordBatch.numRows).getD 0
      let rightBoundTime ← ofExcept (getScaledPositionTime options rightBoundRow timeColumn)
      let totalRows := concatRecordBatch.numRows
      let calls ← calculateRows options timeColumn valueColumns totalRows totalRows 0
        ⟨leftBoundTime, rightBoundTime, rightBoundRow⟩
      let after ← get
      set { after with bufferedBatch := some (concatRecordBatch.sliceFrom calls.length) }
      let calculatedBatch := copySchemaMetadata recordBatch
        (concatRecordBatch.slice 0 calls.length)
      let result ← ofExcept
        (addDerivatives calculator calls 0 options.derivativeCases calculatedBatch)
      pure ([result], calls)

def handle (calculator : DerivativeCalculator) (options : DerivativeOptions)
    (recordBatch : RecordBatch) : Step (List RecordBatch) := do
  let (result, _) ← handleWithCalls calculator options recordBatch
  pure result

end Handler

end StreamDataProcessor.Handlers.Derivative
