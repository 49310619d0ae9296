import StreamDataProcessor.Foundation.CheckedFold
import StreamDataProcessor.Foundation.Entries
import StreamDataProcessor.Kapacitor.StreamUdfs

/-!
# The options of the threshold UDF

`parseThresholdOptions` of `stateful_threshold_request_handler.cpp`, and `init` with it. A member
that the source leaves uninitialised is zero here; the required options assign each of them.
-/

namespace StreamDataProcessor.Kapacitor.ThresholdRequestHandler

open Foundation Foundation.Binary64 Handlers
open DynamicWindowRequestHandler (ValueType Parse nanosecondsToSeconds)

set_option autoImplicit false

structure OptionValue extends DynamicWindowRequestHandler.OptionValue where
  doubleValue : Double := .finite 0

structure RequestOption where
  name : String
  values : List OptionValue := []

def thresholdOptionsTypes : List (String × ValueType) :=
  [("watch", .string), ("as", .string), ("defaultLevel", .double),
    ("increaseScaleFactor", .double), ("increaseAfter", .duration),
    ("decreaseScaleFactor", .double), ("decreaseTriggerFactor", .double),
    ("decreaseAfter", .duration), ("minLevel", .double), ("maxLevel", .double)]

def requiredThresholdOptions : List String :=
  ["watch", "as", "defaultLevel", "increaseScaleFactor", "increaseAfter"]

def greatestDouble : Double := .finite ((2 ^ 53 - 1) * 2 ^ 971)

/-- `ThresholdStateMachine::Options`, with the doubles as they are given. -/
structure ThresholdOptions where
  watchColumnName : String := ""
  thresholdColumnName : String := ""
  defaultThreshold : Double := .finite 0
  increaseScaleFactor : Double := .finite 0
  increaseAfter : Int := 0
  decreaseTriggerFactor : Double := .finite 0
  decreaseScaleFactor : Double := .finite 0
  decreaseAfter : Int := 0
  minThreshold : Double := .finite 0
  maxThreshold : Double := greatestDouble
  thresholdColumnType : Metadata.ColumnType := .field

def ThresholdOptions.machine (options : ThresholdOptions) : Threshold.Options Double where
  watchColumnName := options.watchColumnName
  thresholdColumnName := options.thresholdColumnName
  defaultThreshold := options.defaultThreshold
  increaseScaleFactor := options.increaseScaleFactor
  increaseAfter := options.increaseAfter
  decreaseTriggerFactor := options.decreaseTriggerFactor
  decreaseScaleFactor := options.decreaseScaleFactor
  decreaseAfter := options.decreaseAfter
  minThreshold := options.minThreshold
  maxThreshold := options.maxThreshold
  thresholdColumnType := options.thresholdColumnType

/-- The conversion of an integer, for two of the options, comes after the check of the type,
which no integer passes. -/
def OptionValue.number (value : OptionValue) : Double :=
  if value.type = .int then .finite (nearest value.intValue) else value.doubleValue

def setOption (options : ThresholdOptions) (name : String) (value : OptionValue) :
    Parse ThresholdOptions :=
  let seconds := nanosecondsToSeconds value.durationValue
  if name = "watch" then .ok { options with watchColumnName := value.stringValue }
  else if name = "as" then .ok { options with thresholdColumnName := value.stringValue }
  else if name = "defaultLevel" then .ok { options with defaultThreshold := value.number }
  else if name = "increaseScaleFactor" then
    .ok { options with increaseScaleFactor := value.number }
  else if name = "increaseAfter" then .ok { options with increaseAfter := seconds }
  else if name = "decreaseAfter" then .ok { options with decreaseAfter := seconds }
  else if name = "decreaseTriggerFactor" then
    .ok { options with decreaseTriggerFactor := value.doubleValue }
  else if name = "decreaseScaleFactor" then
    .ok { options with decreaseScaleFactor := value.doubleValue }
  else if name = "minLevel" then .ok { options with minThreshold := value.doubleValue }
  else if name = "maxLevel" then .ok { options with maxThreshold := value.doubleValue }
  else .error s!"Unexpected option name: {name}"

structure Parsed where
  options : ThresholdOptions := {}
  parsedOptions : List String := []

def parseOption (parsed : Parsed) (option : RequestOption) : Parse Parsed :=
  match thresholdOptionsTypes.lookup option.name with
  | none => .error s!"Unexpected option name: {option.name}"
  | some type =>
      match option.values with
      | [value] =>
          if option.name ∈ parsed.parsedOptions then
            .error s!"Expected exactly one value of option {option.name}"
          else if value.type ≠ type then
            .error s!"Unexpected type {value.type.name} of option {option.name}"
          else do
            let options ← setOption parsed.options option.name value
            return ⟨options, option.name :: parsed.parsedOptions⟩
      | _ => .error s!"Expected exactly one value of option {option.name}"

/-- The set of the required names is walked in any order, `walked`. -/
def parseThresholdOptions (walked : List String) (requestOptions : List RequestOption) :
    Parse ThresholdOptions := do
  let parsed ← requestOptions.foldlM parseOption {}
  match walked.find? (· ∉ parsed.parsedOptions) with
  | some missing => .error s!"Missed required option: {missing}"
  | none => return { parsed.options with thresholdColumnType := .field }

def init (orders : MapOrders) (renderScalar : Arrow.DataType → Arrow.Value → String)
    (walked : List String) (requestOptions : List RequestOption)
    (udf : Option (StreamUdf (GroupsStates (Threshold.ThresholdState Double)))) :
    InitResponse × Option (StreamUdf (GroupsStates (Threshold.ThresholdState Double))) :=
  match parseThresholdOptions walked requestOptions with
  | .error message => (⟨false, message⟩, udf)
  | .ok options => (⟨true, ""⟩, some (statefulThresholdUdf orders renderScalar options.machine))

section Meaning

def WellTyped (option : RequestOption) : Prop :=
  ∃ value, option.values = [value] ∧
    thresholdOptionsTypes.lookup option.name = some value.type

def assign (options : ThresholdOptions) (entry : String × OptionValue) : ThresholdOptions where
  watchColumnName :=
    if entry.1 == "watch" then entry.2.stringValue else options.watchColumnName
  thresholdColumnName :=
    if entry.1 == "as" then entry.2.stringValue else options.thresholdColumnName
  defaultThreshold :=
    if entry.1 == "defaultLevel" then entry.2.number else options.defaultThreshold
  increaseScaleFactor :=
    if entry.1 == "increaseScaleFactor" then entry.2.number else options.increaseScaleFactor
  increaseAfter :=
    if entry.1 == "increaseAfter" then nanosecondsToSeconds entry.2.durationValue
    else options.increaseAfter
  decreaseTriggerFactor :=
    if entry.1 == "decreaseTriggerFactor" then entry.2.doubleValue
    else options.decreaseTriggerFactor
  decreaseScaleFactor :=
    if entry.1 == "decreaseScaleFactor" then entry.2.doubleValue
    else options.decreaseScaleFactor
  decreaseAfter :=
    if entry.1 == "decreaseAfter" then nanosecondsToSeconds entry.2.durationValue
    else options.decreaseAfter
  minThreshold := if entry.1 == "minLevel" then entry.2.doubleValue else options.minThreshold
  maxThreshold := if entry.1 == "maxLevel" then entry.2.doubleValue else options.maxThreshold
  thresholdColumnType := options.thresholdColumnType

theorem set_option_ok {name : String} {value : OptionValue} (options : ThresholdOptions)
    (known : thresholdOptionsTypes.lookup name = some value.type) :
    setOption options name value = .ok (assign options (name, value)) := by
  have member := List.mem_map_of_mem (f := Prod.fst) (Entries.mem_of_lookup known)
  simp only [thresholdOptionsTypes, List.map_cons, List.map_nil, List.mem_cons,
    List.not_mem_nil, or_false] at member
  rcases member with rfl | rfl | rfl | rfl | rfl | rfl | rfl | rfl | rfl | rfl <;> rfl

def entriesOf (option : RequestOption) : List (String × OptionValue) :=
  option.values.map fun value => (option.name, value)

def applyParsed (parsed : Parsed) (option : RequestOption) : Parsed where
  options := (entriesOf option).foldl assign parsed.options
  parsedOptions := option.name :: parsed.parsedOptions

theorem parse_option_ok_iff (option : RequestOption) (parsed next : Parsed) :
    parseOption parsed option = .ok next ↔
      (WellTyped option ∧ option.name ∉ parsed.parsedOptions) ∧
        next = applyParsed parsed option := by
  unfold parseOption WellTyped
  cases known : thresholdOptionsTypes.lookup option.name with
  | none => simp
  | some type =>
      dsimp only
      split
      · next value values =>
        rw [values]
        by_cases repeated : option.name ∈ parsed.parsedOptions
        · simp [repeated]
        · by_cases fits : value.type = type
          · subst fits
            have applied : applyParsed parsed option =
                ⟨assign parsed.options (option.name, value),
                  option.name :: parsed.parsedOptions⟩ := by
              rw [applyParsed, entriesOf, values]
              rfl
            rw [if_neg repeated, if_neg (not_not_intro rfl), set_option_ok _ known, applied]
            constructor
            · intro same
              exact ⟨⟨⟨value, rfl, rfl⟩, repeated⟩, (Except.ok.inj same).symm⟩
            · intro both
              rw [both.2]
              rfl
          · rw [if_neg repeated, if_pos fits]
            constructor
            · intro failed
              cases failed
            · rintro ⟨⟨⟨other, same, typed⟩, _⟩, _⟩
              rw [List.cons.injEq] at same
              rw [same.1] at fits
              exact absurd (Option.some.inj typed).symm fits
      · next many =>
        constructor
        · intro failed
          cases failed
        · rintro ⟨⟨⟨value, values, _⟩, _⟩, _⟩
          exact absurd values (many value)

theorem parsed_fold (requestOptions : List RequestOption) (parsed : Parsed) :
    requestOptions.foldl applyParsed parsed =
      ⟨(requestOptions.flatMap entriesOf).foldl assign parsed.options,
        (requestOptions.map RequestOption.name).reverse ++ parsed.parsedOptions⟩ := by
  induction requestOptions generalizing parsed with
  | nil => rfl
  | cons option rest induction =>
      rw [List.foldl_cons, induction, List.flatMap_cons, List.foldl_append, List.map_cons,
        List.reverse_cons, List.append_assoc]
      rfl

theorem entries_names {requestOptions : List RequestOption}
    (typed : ∀ option ∈ requestOptions, WellTyped option) :
    (requestOptions.flatMap entriesOf).map Prod.fst = requestOptions.map RequestOption.name := by
  induction requestOptions with
  | nil => rfl
  | cons option rest induction =>
      rw [List.forall_mem_cons] at typed
      obtain ⟨value, values, _⟩ := typed.1
      rw [List.flatMap_cons, List.map_append, induction typed.2, entriesOf, values]
      rfl

/-- The options as a record: each member is the value of its option, or its default. -/
def meaning (requestOptions : List RequestOption) : ThresholdOptions :=
  let given {α : Type} (name : String) (read : OptionValue → α) (default : α) : α :=
    (((requestOptions.flatMap entriesOf).lookup name).map read).getD default
  { watchColumnName := given "watch" (·.stringValue) ""
    thresholdColumnName := given "as" (·.stringValue) ""
    defaultThreshold := given "defaultLevel" OptionValue.number (.finite 0)
    increaseScaleFactor := given "increaseScaleFactor" OptionValue.number (.finite 0)
    increaseAfter := given "increaseAfter" (nanosecondsToSeconds ·.durationValue) 0
    decreaseTriggerFactor := given "decreaseTriggerFactor" (·.doubleValue) (.finite 0)
    decreaseScaleFactor := given "decreaseScaleFactor" (·.doubleValue) (.finite 0)
    decreaseAfter := given "decreaseAfter" (nanosecondsToSeconds ·.durationValue) 0
    minThreshold := given "minLevel" (·.doubleValue) (.finite 0)
    maxThreshold := given "maxLevel" (·.doubleValue) greatestDouble }

theorem fold_meaning {requestOptions : List RequestOption}
    (distinct : ((requestOptions.flatMap entriesOf).map Prod.fst).Nodup) :
    (requestOptions.flatMap entriesOf).foldl assign {} = meaning requestOptions := by
  have columnType : ∀ (entries : List (String × OptionValue)) (options : ThresholdOptions),
      (entries.foldl assign options).thresholdColumnType = options.thresholdColumnType := by
    intro entries
    induction entries with
    | nil => exact fun _ => rfl
    | cons entry rest induction => exact fun options => induction (assign options entry)
  have assigned {Member : Type} (name : String) (member : ThresholdOptions → Member)
      (read : OptionValue → Member) (own : ∀ options entry, member (assign options entry) =
        if entry.1 == name then read entry.2 else member options) :=
    Entries.fold_member name member read own distinct {}
  rw [ThresholdOptions.mk.injEq, columnType]
  exact ⟨assigned "watch" (·.watchColumnName) (·.stringValue) (fun _ _ => rfl),
    assigned "as" (·.thresholdColumnName) (·.stringValue) (fun _ _ => rfl),
    assigned "defaultLevel" (·.defaultThreshold) OptionValue.number (fun _ _ => rfl),
    assigned "increaseScaleFactor" (·.increaseScaleFactor) OptionValue.number (fun _ _ => rfl),
    assigned "increaseAfter" (·.increaseAfter) (nanosecondsToSeconds ·.durationValue)
      (fun _ _ => rfl),
    assigned "decreaseTriggerFactor" (·.decreaseTriggerFactor) (·.doubleValue) (fun _ _ => rfl),
    assigned "decreaseScaleFactor" (·.decreaseScaleFactor) (·.doubleValue) (fun _ _ => rfl),
    assigned "decreaseAfter" (·.decreaseAfter) (nanosecondsToSeconds ·.durationValue)
      (fun _ _ => rfl),
    assigned "minLevel" (·.minThreshold) (·.doubleValue) (fun _ _ => rfl),
    assigned "maxLevel" (·.maxThreshold) (·.doubleValue) (fun _ _ => rfl), rfl⟩

end Meaning

/-- The fold over the options ends where each has one value of its type and no name stands twice,
and then with what they mean. -/
theorem fold_ok_iff (requestOptions : List RequestOption) (parsed : Parsed) :
    requestOptions.foldlM parseOption {} = .ok parsed ↔
      ((∀ option ∈ requestOptions, WellTyped option) ∧
        (requestOptions.map RequestOption.name).Nodup) ∧
      parsed = ⟨meaning requestOptions, (requestOptions.map RequestOption.name).reverse⟩ := by
  have flat : requestOptions.flatMap (fun option => [option.name]) =
      requestOptions.map RequestOption.name := List.map_eq_flatMap.symm
  have admitted := @CheckedFold.admitted_iff_distinct Parsed RequestOption String
    (fun parsed option => WellTyped option ∧ option.name ∉ parsed.parsedOptions) applyParsed
    WellTyped (fun option => [option.name]) (fun parsed name => name ∈ parsed.parsedOptions)
    (fun _ => True) requestOptions
    (by intro option _ parsed; rw [List.forall_mem_singleton])
    (fun option _ _ => List.nodup_singleton option.name)
    (by
      intro option _ parsed _ _ name
      rw [List.mem_singleton]
      exact List.mem_cons)
    (fun _ _ _ _ _ => trivial) {} trivial
  rw [CheckedFold.fold_ok_iff requestOptions
    (fun option _ parsed (_ : True) next => parse_option_ok_iff option parsed next)
    (fun _ _ _ _ _ => trivial) trivial, admitted, flat, parsed_fold]
  constructor
  · rintro ⟨⟨typed, distinct, _⟩, same⟩
    refine ⟨⟨typed, distinct⟩, ?_⟩
    rw [same, fold_meaning (by rw [entries_names typed]; exact distinct), List.append_nil]
  · rintro ⟨⟨typed, distinct⟩, same⟩
    refine ⟨⟨typed, distinct, fun _ _ => List.not_mem_nil⟩, ?_⟩
    rw [same, fold_meaning (by rw [entries_names typed]; exact distinct), List.append_nil]

/-- Each option is known and has one value of its type, none is given twice, and the required ones
are given. -/
structure Accepted (requestOptions : List RequestOption) : Prop where
  typed : ∀ option ∈ requestOptions, WellTyped option
  distinct : (requestOptions.map RequestOption.name).Nodup
  complete : ∀ name ∈ requiredThresholdOptions, name ∈ requestOptions.map RequestOption.name

theorem parse_threshold_options_iff {walked : List String}
    (required : walked.Perm requiredThresholdOptions) (requestOptions : List RequestOption)
    (options : ThresholdOptions) :
    parseThresholdOptions walked requestOptions = .ok options ↔
      Accepted requestOptions ∧ options = meaning requestOptions := by
  unfold parseThresholdOptions
  cases result : requestOptions.foldlM parseOption {} with
  | error message =>
      constructor
      · intro failed
        cases failed
      · rintro ⟨⟨typed, distinct, _⟩, _⟩
        rw [(fold_ok_iff requestOptions _).mpr ⟨⟨typed, distinct⟩, rfl⟩] at result
        cases result
  | ok parsed =>
      obtain ⟨⟨typed, distinct⟩, rfl⟩ := (fold_ok_iff requestOptions parsed).mp result
      have complete : (∀ name ∈ walked, name ∈ requestOptions.map RequestOption.name) ↔
          ∀ name ∈ requiredThresholdOptions, name ∈ requestOptions.map RequestOption.name :=
        forall_congr' fun name => by rw [required.mem_iff]
      show (match walked.find? fun name =>
          name ∉ (requestOptions.map RequestOption.name).reverse with
        | some missing => .error s!"Missed required option: {missing}"
        | none => .ok (meaning requestOptions)) = Except.ok options ↔ _
      cases missed : walked.find? fun name =>
          name ∉ (requestOptions.map RequestOption.name).reverse with
      | some missing =>
          constructor
          · intro failed
            cases failed
          · rintro ⟨⟨_, _, given⟩, _⟩
            have absent := List.find?_some missed
            have member := complete.mpr given missing (List.mem_of_find?_eq_some missed)
            rw [decide_eq_true_eq, List.mem_reverse] at absent
            exact absurd member absent
      | none =>
          rw [List.find?_eq_none] at missed
          have given : ∀ name ∈ walked, name ∈ requestOptions.map RequestOption.name := by
            intro name member
            have present := missed name member
            rwa [decide_eq_true_eq, not_not, List.mem_reverse] at present
          rw [Except.ok.injEq, eq_comm]
          exact ⟨fun same => ⟨⟨typed, distinct, complete.mp given⟩, same⟩, fun both => both.2⟩

theorem accepted_perm {first second : List RequestOption} (reordered : first.Perm second)
    (accepted : Accepted first) : Accepted second where
  typed option member := accepted.typed option (reordered.mem_iff.mpr member)
  distinct := (reordered.map RequestOption.name).nodup_iff.mp accepted.distinct
  complete name required :=
    (reordered.map RequestOption.name).mem_iff.mp (accepted.complete name required)

/-- Options that are accepted mean the same in every order. -/
theorem meaning_perm {first second : List RequestOption} (reordered : first.Perm second)
    (accepted : Accepted first) : meaning first = meaning second := by
  have entries : (first.flatMap entriesOf).Perm (second.flatMap entriesOf) :=
    reordered.flatMap_right entriesOf
  have distinct : ((first.flatMap entriesOf).map Prod.fst).Nodup := by
    rw [entries_names accepted.typed]
    exact accepted.distinct
  have lookups : ∀ name,
      (first.flatMap entriesOf).lookup name = (second.flatMap entriesOf).lookup name :=
    fun name => Entries.lookup_perm distinct entries name
  unfold meaning
  simp only [lookups]

section Init

variable (orders : MapOrders) (renderScalar : Arrow.DataType → Arrow.Value → String)
  (udf : Option (StreamUdf (GroupsStates (Threshold.ThresholdState Double))))

/-- `init` sets up the state machine that the options mean where they are accepted, in whatever
order they are given; else it answers with an error and leaves the handler as it was. -/
theorem init_sets_up_iff {walked : List String}
    (required : walked.Perm requiredThresholdOptions) (requestOptions : List RequestOption) :
    (Accepted requestOptions ↔ ∃ options, init orders renderScalar walked requestOptions udf =
      (⟨true, ""⟩, some (statefulThresholdUdf orders renderScalar options))) ∧
    (Accepted requestOptions → ∀ given, given.Perm requestOptions →
      init orders renderScalar walked given udf =
        (⟨true, ""⟩, some (statefulThresholdUdf orders renderScalar
          (meaning requestOptions).machine))) ∧
    (¬Accepted requestOptions → ∃ message,
      init orders renderScalar walked requestOptions udf = (⟨false, message⟩, udf)) := by
  have sets : Accepted requestOptions → ∀ given, given.Perm requestOptions →
      init orders renderScalar walked given udf =
        (⟨true, ""⟩, some (statefulThresholdUdf orders renderScalar
          (meaning requestOptions).machine)) := by
    intro accepted given reordered
    have acceptedToo := accepted_perm reordered.symm accepted
    have parsed := (parse_threshold_options_iff required given _).mpr ⟨acceptedToo, rfl⟩
    rw [init, parsed, meaning_perm reordered acceptedToo]
  have refuses : ¬Accepted requestOptions → ∃ message,
      init orders renderScalar walked requestOptions udf = (⟨false, message⟩, udf) := by
    intro refused
    cases parsed : parseThresholdOptions walked requestOptions with
    | error message =>
        refine ⟨message, ?_⟩
        rw [init, parsed]
    | ok options =>
        exact absurd ((parse_threshold_options_iff required requestOptions options).mp parsed).1
          refused
  refine ⟨⟨fun accepted => ⟨_, sets accepted _ (List.Perm.refl _)⟩, ?_⟩, sets, refuses⟩
  rintro ⟨options, success⟩
  by_contra refused
  obtain ⟨message, failed⟩ := refuses refused
  have answers := congrArg (fun outcome => outcome.1.success) (success.symm.trans failed)
  exact Bool.false_ne_true answers.symm

def doublingOptions : List RequestOption :=
  [⟨"watch", [{ type := .string, stringValue := "load" }]⟩,
    ⟨"as", [{ type := .string, stringValue := "level" }]⟩,
    ⟨"defaultLevel", [{ type := .double, doubleValue := .finite 10 }]⟩,
    ⟨"increaseScaleFactor", [{ type := .double, doubleValue := .finite 2 }]⟩,
    ⟨"increaseAfter", [{ type := .duration, durationValue := 60000000000 }]⟩]

theorem doubling_set_up :
    (init BatchAggregateRequestHandler.keptOrders (fun _ _ => "") requiredThresholdOptions
      doublingOptions.reverse none).1.success = true := by
  have accepted : Accepted doublingOptions := by
    constructor
    · intro option member
      simp only [doublingOptions, List.mem_cons, List.not_mem_nil, or_false] at member
      rcases member with rfl | rfl | rfl | rfl | rfl <;> exact ⟨_, rfl, rfl⟩
    · decide
    · decide
  have sets := (init_sets_up_iff BatchAggregateRequestHandler.keptOrders (fun _ _ => "") none
    (List.Perm.refl requiredThresholdOptions) doublingOptions).2.1 accepted
    doublingOptions.reverse (List.reverse_perm doublingOptions)
  rw [sets]

end Init

end StreamDataProcessor.Kapacitor.ThresholdRequestHandler
