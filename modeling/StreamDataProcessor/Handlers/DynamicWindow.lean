import StreamDataProcessor.Handlers.Window
import StreamDataProcessor.Utils.TimeUtils

/-!
# The dynamic window handler

`DynamicWindowHandler` over any `IWindowHandler`: the rows of a batch are passed on
in slices, and between two slices the options that the next row changes are set.
-/

namespace StreamDataProcessor.Handlers.DynamicWindow

open Foundation.Effect Arrow Metadata Utils

set_option autoImplicit false

structure IWindowHandler (State : Type) where
  handle : RecordBatch → EStateM Fault State (List RecordBatch)
  getPeriodOption : State → Int
  getEveryOption : State → Int
  setPeriodOption : Int → Int → State → State
  setEveryOption : Int → Int → State → State

structure DynamicWindowOptions where
  periodColumnName : Option String := none
  everyColumnName : Option String := none

/-- An option whose column a batch has, with the unit of its cells. -/
structure OptionColumn where
  name : String
  timeUnit : Metadata.TimeUnit

/-- The `int64_t` that holds an integer of the type, as `getDurationOption` reads it. -/
def durationCount : DataType → Scalar → Outcome Int
  | .duration _, scalar => .ok (integerValue scalar)
  | .int64, scalar => .ok (integerValue scalar)
  | .int32, scalar => .ok (integerValue scalar)
  | .uint64, scalar => .ok ((integerValue scalar).bmod (2 ^ 64))
  | .uint32, scalar => .ok (integerValue scalar)
  | _, _ => fail .notImplemented "Unexpected duration column's type"

def getDurationOption (recordBatch : RecordBatch) (row : Nat) (columnName : String)
    (timeUnit : Metadata.TimeUnit) : Outcome Int :=
  match recordBatch.getColumnByName columnName with
  | none => .error (.undefined "missing option column")
  | some column => do
      let durationScalar ← column.getScalar row
      let duration ← durationCount column.type durationScalar
      convertTime duration timeUnit .second

def getColumnTimeUnit (recordBatch : RecordBatch) (columnName : String) :
    Outcome Metadata.TimeUnit :=
  match recordBatch.getColumnByName columnName with
  | none => .error (.undefined "missing option column")
  | some column =>
      match column.type with
      | .duration unit => .ok (mapArrowTimeUnit unit)
      | .timestamp unit => .ok (mapArrowTimeUnit unit)
      | _ => getTimeUnitMetadata recordBatch columnName

/-- The loop of `findNewWindowOptionIndex` from a row on, with the rows left to look at. -/
def findNewWindowOptionFrom (recordBatch : RecordBatch) (currentOptionValue : Int)
    (option : OptionColumn) : Nat → Nat → Outcome Nat
  | row, 0 => .ok row
  | row, rowsLeft + 1 => do
      let newOptionValue ← getDurationOption recordBatch row option.name option.timeUnit
      if newOptionValue ≠ currentOptionValue then return row
      else findNewWindowOptionFrom recordBatch currentOptionValue option (row + 1) rowsLeft

def findNewWindowOptionIndex (recordBatch : RecordBatch) (currentOptionValue : Int)
    (option : OptionColumn) : Outcome Nat :=
  findNewWindowOptionFrom recordBatch currentOptionValue option 0 recordBatch.numRows

def optionColumn (recordBatch : RecordBatch) (columnName : Option String) :
    Outcome (Option OptionColumn) :=
  match columnName with
  | none => .ok none
  | some name =>
      match recordBatch.getColumnByName name with
      | none => .ok none
      | some _ => do
          let timeUnit ← getColumnTimeUnit recordBatch name
          return some ⟨name, timeUnit⟩

section Loop

variable {State : Type} (windowHandler : IWindowHandler State)

abbrev Step (State Value : Type) := EStateM Fault State Value

/-- The look-ahead index of an option: computed anew only when it is zero. -/
def refreshIndex (recordBatch : RecordBatch) (getOption : State → Int)
    (option : Option OptionColumn) (newIndex : Nat) : Step State Nat :=
  match option with
  | none => pure newIndex
  | some column =>
      if newIndex = 0 then do
        let state ← get
        ofExcept (findNewWindowOptionIndex recordBatch (getOption state) column)
      else pure newIndex

def handleSlice (recordBatch : RecordBatch) (newOptionsIndex : Nat) :
    Step State (List RecordBatch) :=
  if newOptionsIndex > 0 then windowHandler.handle (recordBatch.slice 0 newOptionsIndex)
  else pure []

/-- Sets an option from the first row when its look-ahead index has been reached. -/
def applyOption (recordBatch : RecordBatch) (setOption : Int → Int → State → State)
    (option : Option OptionColumn) (reached : Bool) (newOptionsTs : Int) : Step State Unit :=
  match option with
  | none => pure ()
  | some column =>
      if reached then do
        let durationOption ← ofExcept
          (getDurationOption recordBatch 0 column.name column.timeUnit)
        let state ← get
        set (setOption durationOption newOptionsTs state)
      else pure ()

def firstTimestamp (recordBatch : RecordBatch) (timeColumnName : String) : Outcome Int :=
  match recordBatch.getColumnByName timeColumnName with
  | none => .error (.undefined "missing time column")
  | some timeColumn => timestampAt timeColumn .second 0

/-- The loop of `handle`. Every turn takes rows, but the first may only set options: see
`dynamic_loop_records`. -/
def dynamicLoop (timeColumnName : String) (period every : Option OptionColumn) :
    Nat → RecordBatch → Nat → Nat → List RecordBatch → Step State (List RecordBatch)
  | 0, _, _, _, _ => throw .diverges
  | fuel + 1, sortedByTime, periodIndex, everyIndex, result =>
      if sortedByTime.numRows = 0 then pure result
      else do
        let newPeriodIndex ← refreshIndex sortedByTime windowHandler.getPeriodOption period
          periodIndex
        let newEveryIndex ← refreshIndex sortedByTime windowHandler.getEveryOption every
          everyIndex
        let newOptionsIndex := min newEveryIndex newPeriodIndex
        let intermediateResult ← handleSlice windowHandler sortedByTime newOptionsIndex
        let rest := sortedByTime.sliceFrom newOptionsIndex
        if rest.numRows = 0 then pure (result ++ intermediateResult)
        else do
          let newOptionsTs ← ofExcept (firstTimestamp rest timeColumnName)
          applyOption rest windowHandler.setPeriodOption period
            (newOptionsIndex = newPeriodIndex) newOptionsTs
          applyOption rest windowHandler.setEveryOption every
            (newOptionsIndex = newEveryIndex) newOptionsTs
          dynamicLoop timeColumnName period every fuel rest (newPeriodIndex - newOptionsIndex)
            (newEveryIndex - newOptionsIndex) (result ++ intermediateResult)

/-- Where the look-ahead of an option starts: at the end when it has no column. -/
def firstIndex (recordBatch : RecordBatch) (option : Option OptionColumn) : Nat :=
  if option.isSome then 0 else recordBatch.numRows

def handle (options : DynamicWindowOptions) (recordBatch : RecordBatch) :
    Step State (List RecordBatch) := do
  let period ← ofExcept (optionColumn recordBatch options.periodColumnName)
  let every ← ofExcept (optionColumn recordBatch options.everyColumnName)
  let timeColumnName ← ofExcept (getTimeColumnNameMetadata recordBatch)
  let sortedByTime ← ofExcept (sortByColumn timeColumnName recordBatch)
  dynamicLoop windowHandler timeColumnName period every (recordBatch.numRows + 2)
    sortedByTime (firstIndex recordBatch period) (firstIndex recordBatch every) []

end Loop

/-- `WindowHandler` as an `IWindowHandler`: that of the program keeps sums in 64 bits. -/
def windowHandlerIn (keep : Int → Int) : IWindowHandler Window.WindowHandler where
  handle := Window.handleIn keep
  getPeriodOption := fun handler => handler.options.period
  getEveryOption := fun handler => handler.options.every
  setPeriodOption := Window.setPeriodOptionIn keep
  setEveryOption := Window.setEveryOptionIn keep

abbrev windowHandler : IWindowHandler Window.WindowHandler := windowHandlerIn id

end StreamDataProcessor.Handlers.DynamicWindow
