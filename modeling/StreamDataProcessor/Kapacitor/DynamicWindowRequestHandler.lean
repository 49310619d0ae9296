import StreamDataProcessor.Handlers.WindowSpec
import StreamDataProcessor.Handlers.WindowTermination

/-!
# The options of the dynamic window UDF

`parseWindowOptions` of `dynamic_window_request_handler.cpp`. A member that the
source leaves uninitialised is zero here; the last check assigns every one of them.
-/

namespace StreamDataProcessor.Kapacitor.DynamicWindowRequestHandler

open Foundation Foundation.Effect Foundation.TwosComplement Arrow Handlers

set_option autoImplicit false

inductive ValueType where
  | bool
  | int
  | double
  | string
  | duration
  deriving DecidableEq, Repr

def ValueType.name : ValueType → String
  | .bool => "BOOL"
  | .int => "INT"
  | .double => "DOUBLE"
  | .string => "STRING"
  | .duration => "DURATION"

structure OptionValue where
  type : ValueType
  stringValue : String := ""
  intValue : Int := 0
  durationValue : Int := 0

structure RequestOption where
  name : String
  values : List OptionValue := []

structure ConvertOptions where
  periodOption : Option (String × Metadata.TimeUnit) := none
  everyOption : Option (String × Metadata.TimeUnit) := none

structure WindowOptions where
  convertOptions : ConvertOptions := {}
  windowHandlerOptions : Window.WindowOptions := { period := 0, every := 0 }
  emitTimeout : Int := 0

def windowOptionsTypes : List (String × ValueType) :=
  [("periodField", .string), ("periodTimeUnit", .string), ("everyField", .string),
    ("everyTimeUnit", .string), ("defaultPeriod", .duration), ("defaultEvery", .duration),
    ("emitTimeout", .duration), ("staticPeriod", .duration), ("staticEvery", .duration)]

def optionsSize : List (String × Nat) :=
  [("periodField", 1), ("periodTimeUnit", 1), ("everyField", 1), ("everyTimeUnit", 1),
    ("fillPeriod", 0), ("defaultPeriod", 1), ("defaultEvery", 1), ("emitTimeout", 1),
    ("staticPeriod", 1), ("staticEvery", 1)]

def presentedOptionsExclusiveCnf : List (List (List String)) :=
  [[["periodField", "periodTimeUnit", "defaultPeriod"], ["staticPeriod"]],
    [["everyField", "everyTimeUnit", "defaultEvery"], ["staticEvery"]],
    [["emitTimeout"]]]

def timeNamesToUnits : List (String × Metadata.TimeUnit) :=
  [("ns", .nano), ("u", .micro), ("mcs", .micro), ("us", .micro), ("ms", .milli),
    ("s", .second), ("m", .minute), ("h", .hour), ("d", .day), ("w", .week)]

/-- An `InvalidOptionException` is its message. -/
abbrev Parse := Except String

structure Parsed where
  options : WindowOptions := {}
  parsedOptions : List (String × Nat) := []

def Parsed.valuesOf (parsed : Parsed) (name : String) : Nat :=
  ((parsed.parsedOptions.filter fun entry => entry.1 = name).map Prod.snd).sum

def nanosecondsToSeconds (nanoseconds : Int) : Int := nanoseconds.tdiv 1000000000

def withField (option : Option (String × Metadata.TimeUnit)) (field : String) :
    Option (String × Metadata.TimeUnit) :=
  some (field, (option.map Prod.snd).getD .nano)

def withTimeUnit (option : Option (String × Metadata.TimeUnit)) (shortcut : String) :
    Parse (Option (String × Metadata.TimeUnit)) :=
  match timeNamesToUnits.lookup shortcut with
  | none => .error s!"Unexpected time unit shortcut: \"{shortcut}\""
  | some unit => .ok (some ((option.map Prod.fst).getD "", unit))

def setOption (options : WindowOptions) (name : String) (value : OptionValue) :
    Parse WindowOptions :=
  let convert := options.convertOptions
  let window := options.windowHandlerOptions
  let seconds := nanosecondsToSeconds value.durationValue
  if name = "periodField" then
    .ok { options with convertOptions := { convert with
      periodOption := withField convert.periodOption value.stringValue } }
  else if name = "periodTimeUnit" then do
    let periodOption ← withTimeUnit convert.periodOption value.stringValue
    return { options with convertOptions := { convert with periodOption := periodOption } }
  else if name = "everyField" then
    .ok { options with convertOptions := { convert with
      everyOption := withField convert.everyOption value.stringValue } }
  else if name = "everyTimeUnit" then do
    let everyOption ← withTimeUnit convert.everyOption value.stringValue
    return { options with convertOptions := { convert with everyOption := everyOption } }
  else if name = "defaultPeriod" then
    .ok { options with windowHandlerOptions := { window with period := seconds } }
  else if name = "defaultEvery" then
    .ok { options with windowHandlerOptions := { window with every := seconds } }
  else if name = "emitTimeout" then
    .ok { options with emitTimeout := seconds }
  else if name = "staticPeriod" then
    .ok { options with windowHandlerOptions := { window with period := seconds } }
  else if name = "staticEvery" then
    .ok { options with windowHandlerOptions := { window with every := seconds } }
  else .error s!"Unexpected option name: {name}"

def parseOption (parsed : Parsed) (option : RequestOption) : Parse Parsed :=
  match optionsSize.lookup option.name with
  | none => .error s!"Unexpected option name: {option.name}"
  | some size =>
      let counted := { parsed with
        parsedOptions := (option.name, option.values.length) :: parsed.parsedOptions }
      match option.values with
      | [] =>
          if option.name = "fillPeriod" then
            .ok { counted with options := { counted.options with
              windowHandlerOptions :=
                { counted.options.windowHandlerOptions with fillPeriod := true } } }
          else .error s!"Unexpected option name: {option.name}"
      | value :: _ =>
          if counted.valuesOf option.name > size then
            .error s!"Expected not more than {size} values of option {option.name}"
          else if windowOptionsTypes.lookup option.name ≠ some value.type then
            .error s!"Unexpected type {value.type.name} of option {option.name}"
          else do
            let options ← setOption counted.options option.name value
            return { counted with options := options }

/-- The option sets of a disjunction, each with its names in the order of the source. -/
def exclusiveDisjunctionError (disjunction : List (List String)) : String :=
  "Expected exactly one of the following option sets to be presented:\n" ++
    String.join (disjunction.map fun optionSet =>
      "\x7b " ++ ", ".intercalate optionSet ++ " \x7d\n")

def checkDisjunction (parsed : Parsed) (disjunction : List (List String)) : Parse Unit :=
  let presented := disjunction.filter fun optionSet =>
    optionSet.all fun name => parsed.parsedOptions.any fun entry => entry.1 = name
  if presented.length = 1 then .ok () else .error (exclusiveDisjunctionError disjunction)

def parseWindowOptions (requestOptions : List RequestOption) : Parse WindowOptions := do
  let parsed ← requestOptions.foldlM parseOption {}
  presentedOptionsExclusiveCnf.forM (checkDisjunction parsed)
  return parsed.options

/-- What `init` makes the factory of: the options of the dynamic handler, and the window
handler that each dynamic handler is created over. -/
def createHandlers (requestOptions : List RequestOption) :
    Parse (DynamicWindow.DynamicWindowOptions × Window.WindowHandler) := do
  let windowOptions ← parseWindowOptions requestOptions
  let convertOptions := windowOptions.convertOptions
  return (
    { periodColumnName := convertOptions.periodOption.map Prod.fst
      everyColumnName := convertOptions.everyOption.map Prod.fst },
    { options := windowOptions.windowHandlerOptions })

theorem created_steady {requestOptions : List RequestOption}
    {options : DynamicWindow.DynamicWindowOptions} {handler : Window.WindowHandler}
    (created : createHandlers requestOptions = .ok (options, handler)) :
    DynamicWindow.Steady handler := by
  unfold createHandlers at created
  cases parsed : parseWindowOptions requestOptions with
  | error message => rw [parsed] at created; cases created
  | ok windowOptions =>
      rw [parsed] at created
      cases created
      refine ⟨?_, by unfold FitsInt64; dsimp only; omega⟩
      intro batch member
      cases member

/-- The calls of a handler that `init` accepts, over batches whose time columns hold
timestamps, all return exactly when the last time of each slice that is handed to the window
handler is before some number that the boundaries come through. -/
theorem calls_return_iff_windows_advance (requestOptions : List RequestOption)
    (options : DynamicWindow.DynamicWindowOptions) (handler : Window.WindowHandler)
    (created : createHandlers requestOptions = .ok (options, handler))
    (recordBatches : List RecordBatch)
    (names : ∀ recordBatch ∈ recordBatches,
      DynamicWindow.NamesTimestamps recordBatch.schema) :
    (Machine.run (DynamicWindow.call options) handler recordBatches).2.all (· = true) ↔
      Machine.StepsMeet (DynamicWindow.call options)
        (DynamicWindow.HandsOverAdvancing options) handler recordBatches :=
  DynamicWindow.run_returns_iff names (created_steady created)

def staticOptions (every : Int) : List RequestOption :=
  [{ name := "staticPeriod", values := [{ type := .duration, durationValue := 10000000000 }] },
    { name := "staticEvery", values := [{ type := .duration, durationValue := every }] },
    { name := "emitTimeout", values := [{ type := .duration, durationValue := 1000000000 }] }]

theorem times_batch_names_timestamps (times : List Int) :
    DynamicWindow.NamesTimestamps (Window.timesBatch none times).schema := by
  intro name index named located
  cases named
  cases located
  rfl

theorem five_second_windows_return :
    (Machine.run (DynamicWindow.call {}) { options := ⟨10, 5, false⟩ }
        ([[100, 104], [111]].map (Window.timesBatch none))).2.all (· = true) ↔
      Machine.StepsMeet (DynamicWindow.call {}) (DynamicWindow.HandsOverAdvancing {})
        { options := ⟨10, 5, false⟩ } ([[100, 104], [111]].map (Window.timesBatch none)) :=
  calls_return_iff_windows_advance (staticOptions 5000000000) {} { options := ⟨10, 5, false⟩ } rfl
    _ (by
      intro recordBatch member
      obtain ⟨times, _, rfl⟩ := List.mem_map.mp member
      exact times_batch_names_timestamps times)

/-- Without option columns a batch in order is one slice. -/
theorem handle_single_row_fails {State : Type} (windowHandler : DynamicWindow.IWindowHandler State)
    {state after : State} {fault : Fault}
    (raised : windowHandler.handle ((Window.timesBatch none [100]).slice 0 1) state =
      .error fault after) :
    DynamicWindow.handle windowHandler {} (Window.timesBatch none [100]) state =
      .error fault after := by
  have single : DynamicWindow.handle windowHandler {} (Window.timesBatch none [100]) state =
      (DynamicWindow.handleSlice windowHandler (Window.timesBatch none [100]) 1 >>= fun result =>
        pure ([] ++ result)) state := rfl
  have sliced : DynamicWindow.handleSlice windowHandler (Window.timesBatch none [100]) 1 state =
      .error fault after := raised
  rw [single, bind_of_error sliced]

/-- With no time between its windows a handler that has had no batch plans the first one at
100, and does not get past it. -/
theorem hundred_does_not_advance :
    ¬DynamicWindow.Advances { options := ⟨10, 0, false⟩ }
      ((Window.timesBatch none [100]).slice 0 1) := by
  intro advances
  have past := advances ⟨"time", 0, .second⟩ rfl
  revert past
  decide +kernel

/-- Half a second between windows is accepted and truncated to zero: the first row starts
a loop that never ends. -/
theorem half_second_windows_never_return :
    ¬∀ requestOptions options handler, createHandlers requestOptions = .ok (options, handler) →
      ∀ recordBatches : List RecordBatch,
        (∀ recordBatch ∈ recordBatches, DynamicWindow.NamesTimestamps recordBatch.schema) →
        (Machine.run (DynamicWindow.call options) handler recordBatches).2.all (· = true) := by
  intro claim
  have created : createHandlers (staticOptions 500000000) =
      .ok ({}, { options := ⟨10, 0, false⟩ }) := rfl
  have returns := claim (staticOptions 500000000) {} { options := ⟨10, 0, false⟩ } created
    [Window.timesBatch none [100]] (by simpa using times_batch_names_timestamps [100])
  have names : DynamicWindow.NamesTimestamps ((Window.timesBatch none [100]).slice 0 1).schema :=
    times_batch_names_timestamps [100]
  have nonempty : ((Window.timesBatch none [100]).slice 0 1).rows ≠ [] := List.cons_ne_nil _ _
  obtain ⟨after, diverged⟩ := DynamicWindow.handle_diverges names nonempty
    (created_steady created) hundred_does_not_advance
  have stuck : (DynamicWindow.call {} { options := ⟨10, 0, false⟩ }
      (Window.timesBatch none [100])).2 = false := by
    rw [DynamicWindow.call, handle_single_row_fails (DynamicWindow.windowHandlerIn wrap64) diverged]
    rfl
  rw [Machine.run_cons, List.all_cons, Bool.and_eq_true, decide_eq_true_eq] at returns
  exact Bool.false_ne_true (stuck.symm.trans returns.1)

end StreamDataProcessor.Kapacitor.DynamicWindowRequestHandler
