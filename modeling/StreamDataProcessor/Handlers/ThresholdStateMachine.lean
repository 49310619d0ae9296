import StreamDataProcessor.Foundation.DoubleArithmetic
import StreamDataProcessor.Foundation.Effect
import StreamDataProcessor.Foundation.TwosComplement
import StreamDataProcessor.Metadata.Access

/-!
# The adaptive threshold state machine

`threshold_state_machine.cpp`, over its doubles or over exact rationals.
The three state classes are one inductive type; `changeState` is the write of
the machine's state, so a state that replaces itself and then delegates the row
is the two steps in this order.
-/

namespace StreamDataProcessor.Handlers.Threshold

open Foundation.Effect Foundation.Binary64 Foundation.TwosComplement Arrow Metadata

set_option autoImplicit false

/-- The numbers of the machine, read from doubles and written as doubles, and what is kept of
an integer. -/
class Arithmetic (Number : Type) where
  ofDouble : Double → Outcome Number
  toDouble : Number → Double
  keep : Int → Int

/-- Doubles, and integers of 64 bits. -/
instance : Arithmetic Double where
  ofDouble := .ok
  toDouble := id
  keep := wrap64

/-- Exact arithmetic, on the finite doubles. -/
instance : Arithmetic ℚ where
  ofDouble
    | .finite value => .ok value
    | .negativeZero => .ok 0
    | .infinity _ | .nan => .error (.undefined "the value is no rational number")
  toDouble := .finite
  keep := id

structure Options (Number : Type) where
  watchColumnName : String
  thresholdColumnName : String
  defaultThreshold : Number
  increaseScaleFactor : Number
  increaseAfter : Int
  decreaseTriggerFactor : Number
  decreaseScaleFactor : Number
  decreaseAfter : Int
  minThreshold : Number
  maxThreshold : Number
  thresholdColumnType : ColumnType := .field

inductive ThresholdState (Number : Type) where
  | ok (currentThreshold : Number)
  | increase (currentThreshold : Number) (alertStart : Int)
  | decrease (currentThreshold : Number) (decreaseStart : Int)
  deriving DecidableEq

def ThresholdState.currentThreshold {Number : Type} : ThresholdState Number → Number
  | .ok currentThreshold => currentThreshold
  | .increase currentThreshold _ => currentThreshold
  | .decrease currentThreshold _ => currentThreshold

abbrev Step (Number : Type) := EStateM Fault (ThresholdState Number)

section Machine

variable {Number : Type} [LT Number] [LE Number] [DecidableLT Number] [DecidableLE Number]
  [Mul Number] [Min Number] [Max Number] [Arithmetic Number]

def getColumnValueAtRow (batch : RecordBatch) (columnName : String) (row : Nat) :
    Outcome Number :=
  match batch.getColumnByName columnName with
  | none => fail .keyError
      s!"Can't get value from column {columnName}: no such column exists"
  | some column =>
      if isNumericType column.type then do
        let scalar ← column.getScalar row
        let value ← castToFloat64 column.type scalar
        Arithmetic.ofDouble (doubleValue value)
      else fail .typeError
        "Threshold state machine requires numeric type, but another type provided"

def getTimeAtRow (Number : Type) [Arithmetic Number] (batch : RecordBatch) (row : Nat) :
    Outcome Int := do
  let timeColumnName ← getTimeColumnNameMetadata batch
  match batch.getColumnByName timeColumnName with
  | none => .error (.undefined "GetScalar of a missing column")
  | some column =>
      let scalar ← column.getScalar row
      let time ← castTimestampScalar column.type scalar .second
      return Arithmetic.keep Number (integerValue time)

/-- `StateOK::addThresholdForRow`. The answer is the value appended to the
threshold column; the readers are those of the row. -/
def StateOK.addThresholdForRow (options : Options Number) (currentThreshold : Number)
    (readValue : Outcome Number) (readTime : Outcome Int) : Step Number Number := do
  let value ← ofExcept readValue
  if value ≤ currentThreshold ∧
      value ≥ currentThreshold * options.decreaseTriggerFactor then
    pure currentThreshold
  else
    let alertStart ← ofExcept readTime
    if value > currentThreshold then
      set (ThresholdState.increase currentThreshold alertStart)
      pure currentThreshold
    else if value ≤ currentThreshold * options.decreaseTriggerFactor then
      set (ThresholdState.decrease currentThreshold alertStart)
      pure currentThreshold
    else pure currentThreshold

def StateIncrease.addThresholdForRow (options : Options Number) (currentThreshold : Number)
    (alertStart : Int) (readValue : Outcome Number) (readTime : Outcome Int) :
    Step Number Number := do
  let value ← ofExcept readValue
  let rowTime ← ofExcept readTime
  if value > currentThreshold ∧ rowTime > alertStart ∧
      Arithmetic.keep Number (rowTime - alertStart) > options.increaseAfter then
    let newThreshold := min (currentThreshold * options.increaseScaleFactor)
      options.maxThreshold
    set (ThresholdState.ok newThreshold)
    StateOK.addThresholdForRow options newThreshold readValue readTime
  else if value ≤ currentThreshold then
    set (ThresholdState.ok currentThreshold)
    pure currentThreshold
  else pure currentThreshold

def StateDecrease.addThresholdForRow (options : Options Number) (currentThreshold : Number)
    (decreaseStart : Int) (readValue : Outcome Number) (readTime : Outcome Int) :
    Step Number Number := do
  let value ← ofExcept readValue
  let rowTime ← ofExcept readTime
  if value ≤ currentThreshold * options.decreaseTriggerFactor ∧
      rowTime > decreaseStart ∧
      Arithmetic.keep Number (rowTime - decreaseStart) > options.decreaseAfter then
    let newThreshold := max (currentThreshold * options.decreaseScaleFactor)
      options.minThreshold
    set (ThresholdState.ok newThreshold)
    StateOK.addThresholdForRow options newThreshold readValue readTime
  else if value > currentThreshold then
    set (ThresholdState.increase currentThreshold rowTime)
    pure currentThreshold
  else if value > currentThreshold * options.decreaseTriggerFactor then
    set (ThresholdState.ok (currentThreshold * options.decreaseScaleFactor))
    pure currentThreshold
  else pure currentThreshold

def addThresholdForRow (options : Options Number) (readValue : Outcome Number)
    (readTime : Outcome Int) : Step Number Number := do
  match ← get with
  | .ok currentThreshold =>
      StateOK.addThresholdForRow options currentThreshold readValue readTime
  | .increase currentThreshold alertStart =>
      StateIncrease.addThresholdForRow options currentThreshold alertStart readValue readTime
  | .decrease currentThreshold decreaseStart =>
      StateDecrease.addThresholdForRow options currentThreshold decreaseStart readValue
        readTime

/-- The state `ThresholdStateMachineFactory::createHandler` installs. -/
def initialState (options : Options Number) : ThresholdState Number :=
  .ok options.defaultThreshold

def addThresholdForRows (options : Options Number) (batch : RecordBatch) :
    List Nat → Step Number (List Number)
  | [] => pure []
  | row :: rest => do
      let threshold ← addThresholdForRow options
        (getColumnValueAtRow batch options.watchColumnName row) (getTimeAtRow Number batch row)
      let thresholds ← addThresholdForRows options batch rest
      pure (threshold :: thresholds)

def thresholdArray (thresholds : List Number) : Column where
  type := .double
  cells := thresholds.map fun threshold => some (.double (Arithmetic.toDouble threshold))
  conforms := by
    intro cell member
    obtain ⟨threshold, _, rfl⟩ := List.mem_map.mp member
    rfl

def handle (options : Options Number) (batch : RecordBatch) : Step Number (List RecordBatch) := do
  let thresholds ← addThresholdForRows options batch (List.range batch.numRows)
  let result ← ofExcept (batch.addColumn
    { name := options.thresholdColumnName, type := .double } (thresholdArray thresholds))
  let typed ← ofExcept (setColumnTypeMetadata result options.thresholdColumnName
    options.thresholdColumnType)
  pure [typed]

end Machine

end StreamDataProcessor.Handlers.Threshold
