import StreamDataProcessor.Handlers.DerivativeSafety
import StreamDataProcessor.Handlers.DerivativeSpec
import StreamDataProcessor.Kapacitor.DynamicWindowRequestHandler

/-!
# The options of the derivative UDF

`parseDerivativeOptions` of `derivative_request_handler.cpp`. The unit and the
neighbourhood are uninitialised, zero here, until the end of the function.
-/

namespace StreamDataProcessor.Kapacitor.DerivativeRequestHandler

open Foundation.Effect Arrow Handlers Handlers.Derivative
open DynamicWindowRequestHandler (ValueType OptionValue RequestOption Parse nanosecondsToSeconds)

set_option autoImplicit false

def derivativeOptionsTypes : List (String × ValueType) :=
  [("derivative", .string), ("as", .string), ("order", .int), ("unit", .duration),
    ("neighbourhood", .duration), ("emitTimeout", .duration)]

def requiredDerivativeCaseOptions : List String := ["derivative", "as"]

def optionalGlobalOptions : List String := ["unit", "neighbourhood", "emitTimeout"]

structure UdfOptions where
  options : DerivativeOptions
  emitTimeout : Int

structure Parsed where
  options : DerivativeOptions := ⟨0, 0, [], false⟩
  emitTimeout : Int := 0
  currentResultOption : String := ""
  currentCase : DerivativeCase := ⟨"", 0⟩
  parsedCaseOptions : List String := []
  parsedGlobalOptions : List String := []

def addDerivativeCase (parsed : Parsed) : Parse Parsed :=
  match requiredDerivativeCaseOptions.find? (· ∉ parsed.parsedCaseOptions) with
  | some missing => .error s!"Missing required derivative case option: {missing}"
  | none =>
      let name := parsed.currentResultOption
      if name ∈ parsed.options.derivativeCases.map Prod.fst then
        .error s!"Duplicating result fields with name: {name}"
      else
        let order := if "order" ∈ parsed.parsedCaseOptions then parsed.currentCase.order else 1
        .ok { parsed with
          options := { parsed.options with
            derivativeCases := parsed.options.derivativeCases ++
              [(name, { parsed.currentCase with order := order })] }
          parsedCaseOptions := [] }

/-- The case that was being read is complete, if there is one. -/
def closeCase (parsed : Parsed) : Parse Parsed :=
  if parsed.parsedCaseOptions = [] then .ok parsed else addDerivativeCase parsed

def setGlobalOption (parsed : Parsed) (name : String) (value : OptionValue) : Parse Parsed := do
  let closed ← closeCase parsed
  let recorded := { closed with parsedGlobalOptions := name :: closed.parsedGlobalOptions }
  if name = "unit" then
    return { recorded with options := { recorded.options with
      unitTimeSegment := value.durationValue } }
  else if name = "neighbourhood" then
    return { recorded with options := { recorded.options with
      derivativeNeighbourhood := value.durationValue } }
  else if name = "emitTimeout" then
    return { recorded with emitTimeout := nanosecondsToSeconds value.durationValue }
  else .error s!"Unexpected option name: {name}"

def recordCaseOption (parsed : Parsed) (name : String) : Parsed :=
  { parsed with parsedCaseOptions := name :: parsed.parsedCaseOptions }

def setCaseOption (parsed : Parsed) (name : String) (value : OptionValue) : Parse Parsed :=
  if name = "derivative" then do
    let closed ← closeCase parsed
    return recordCaseOption { closed with
      currentCase := { closed.currentCase with valuesColumnName := value.stringValue } } name
  else if "derivative" ∉ parsed.parsedCaseOptions then
    .error s!"Expected \"derivative\" option to be passed before \"{name}\" option"
  else if name = "as" then
    .ok (recordCaseOption { parsed with currentResultOption := value.stringValue } name)
  else if name = "order" then
    if value.intValue < 0 then
      .error s!"Non-negative value of option {name} were expected, got: {value.intValue}"
    else .ok (recordCaseOption { parsed with
      currentCase := { parsed.currentCase with order := value.intValue.toNat } } name)
  else .error s!"Unexpected option name: {name}"

def parseOption (parsed : Parsed) (option : RequestOption) : Parse Parsed :=
  let type := derivativeOptionsTypes.lookup option.name
  if type = none ∧ option.name ≠ "noWait" then
    .error s!"Unexpected option name: {option.name}"
  else if option.name ∈ parsed.parsedGlobalOptions ∨ option.values.length > 1 then
    .error s!"Expected at most one value of option {option.name}"
  else if option.name = "noWait" then
    if option.values.length > 0 then
      .error s!"Option {option.name} is supposed not to have values"
    else .ok { parsed with options := { parsed.options with noWaitFuture := true } }
  else match option.values with
    | [] =>
        let typeName := (type.map ValueType.name).getD ""
        .error s!"Option {option.name} supposed to have value of type {typeName}"
    | value :: _ =>
        if some value.type ≠ type then
          .error s!"Unexpected type {value.type.name} of option {option.name}"
        else if option.name ∈ optionalGlobalOptions then setGlobalOption parsed option.name value
        else setCaseOption parsed option.name value

def parseDerivativeOptions (requestOptions : List RequestOption) : Parse UdfOptions := do
  let parsed ← requestOptions.foldlM parseOption {}
  let closed ← closeCase parsed
  if closed.options.derivativeCases = [] then .error "Expected at least one derivative case"
  else
    let unit := if "unit" ∈ closed.parsedGlobalOptions then closed.options.unitTimeSegment
      else 1000000000
    let neighbourhood := if "neighbourhood" ∈ closed.parsedGlobalOptions then
      closed.options.derivativeNeighbourhood else unit
    let emitTimeout := if "emitTimeout" ∈ closed.parsedGlobalOptions then closed.emitTimeout
      else 10
    return {
      options := { closed.options with
        unitTimeSegment := unit
        derivativeNeighbourhood := neighbourhood }
      emitTimeout := emitTimeout }

def speedOptions (noWait : List RequestOption) : List RequestOption :=
  [{ name := "derivative", values := [{ type := .string, stringValue := "value" }] },
    { name := "as", values := [{ type := .string, stringValue := "speed" }] }] ++ noWait

def speedUdfOptions (noWait : Bool) : UdfOptions where
  options := {
    unitTimeSegment := 1000000000
    derivativeNeighbourhood := 1000000000
    derivativeCases := [("speed", ⟨"value", 1⟩)]
    noWaitFuture := noWait }
  emitTimeout := 10

theorem values_batch_admissible (options : DerivativeOptions)
    (columns : caseColumns options = ["value"]) {rows : List (Int × Option Int)}
    (nonempty : rows ≠ []) : Admissible options "time" (valuesBatch rows) := by
  refine ⟨by simpa [valuesBatch] using nonempty, rfl, ⟨0, .second, rfl, rfl⟩, ?_⟩
  rw [columns]
  intro name member
  rw [List.mem_singleton.mp member]
  exact ⟨1, .int64, rfl, rfl, rfl⟩

end StreamDataProcessor.Kapacitor.DerivativeRequestHandler
