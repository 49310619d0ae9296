import StreamDataProcessor.Foundation.CheckedFold
import StreamDataProcessor.Foundation.Entries
import StreamDataProcessor.Kapacitor.StreamUdfs

/-!
# The options of the stream aggregate UDF

`parseStreamAggregateOptions` of `stream_aggregate_request_handler.cpp`, and `init` with it. An
option of another name is passed over, as it may be one of the aggregates.
-/

namespace StreamDataProcessor.Kapacitor.StreamAggregateRequestHandler

open Foundation Handlers
open DynamicWindowRequestHandler (ValueType RequestOption Parse nanosecondsToSeconds)

set_option autoImplicit false

def windowOptionsTypes : List (String × ValueType) :=
  [("emitTimeout", .duration), ("tolerance", .duration)]

structure Parsed where
  options : List (String × Int) := []
  parsedOptions : List String := []

def parseOption (parsed : Parsed) (option : RequestOption) : Parse Parsed :=
  match windowOptionsTypes.lookup option.name with
  | none => .ok parsed
  | some type =>
      match option.values with
      | [value] =>
          if option.name ∈ parsed.parsedOptions then
            .error s!"Expected exactly one value of option {option.name}"
          else if value.type ≠ type then
            .error s!"Unexpected type {value.type.name} of option {option.name}"
          else .ok {
            options := (option.name, nanosecondsToSeconds value.durationValue) :: parsed.options
            parsedOptions := option.name :: parsed.parsedOptions }
      | _ => .error s!"Expected exactly one value of option {option.name}"

structure StreamAggregateOptions where
  emitTimeout : Int
  tolerance : Int

/-- The tolerance that is returned is one second longer than the one that was given. -/
def parseStreamAggregateOptions (requestOptions : List RequestOption) :
    Parse StreamAggregateOptions := do
  let parsed ← requestOptions.foldlM parseOption {}
  if "emitTimeout" ∉ parsed.parsedOptions then .error "Missed required option: emitTimeout"
  else return {
    emitTimeout := (parsed.options.lookup "emitTimeout").getD 0
    tolerance := (parsed.options.lookup "tolerance").getD 0 + 1 }

def init (orders : MapOrders) (renderScalar : Arrow.DataType → Arrow.Value → String)
    (requestOptions : List RequestOption) (udf : Option (StreamUdf Window.WindowHandler)) :
    InitResponse × Option (StreamUdf Window.WindowHandler) :=
  let parsed := do
    let aggregateOptions ← AggregateOptionsParser.parseOptions requestOptions
    let streamAggregateOptions ← parseStreamAggregateOptions requestOptions
    return (aggregateOptions, streamAggregateOptions)
  match parsed with
  | .error message => (⟨false, message⟩, udf)
  | .ok (aggregateOptions, streamAggregateOptions) =>
      (⟨true, ""⟩, some (streamAggregateUdf orders renderScalar aggregateOptions
        (streamAggregateOptions.tolerance - 1)))

section Meaning

def Known (option : RequestOption) : Prop := option.name = "emitTimeout" ∨ option.name = "tolerance"

instance (option : RequestOption) : Decidable (Known option) :=
  inferInstanceAs (Decidable (_ ∨ _))

def WellTyped (option : RequestOption) : Prop :=
  ∃ value, option.values = [value] ∧ value.type = .duration

def durationsOf (option : RequestOption) : List (String × Int) :=
  if Known option then
    option.values.map fun value => (option.name, nanosecondsToSeconds value.durationValue)
  else []

/-- `emitTimeout` and `tolerance` have one duration each, neither is given twice, and the first is
given. -/
structure Accepted (requestOptions : List RequestOption) : Prop where
  typed : ∀ option ∈ requestOptions, Known option → WellTyped option
  distinct : ((requestOptions.flatMap durationsOf).map Prod.fst).Nodup
  complete : "emitTimeout" ∈ (requestOptions.flatMap durationsOf).map Prod.fst

def meaning (requestOptions : List RequestOption) : StreamAggregateOptions where
  emitTimeout := ((requestOptions.flatMap durationsOf).lookup "emitTimeout").getD 0
  tolerance := ((requestOptions.flatMap durationsOf).lookup "tolerance").getD 0 + 1

def applyParsed (parsed : Parsed) (option : RequestOption) : Parsed where
  options := (durationsOf option).reverse ++ parsed.options
  parsedOptions := ((durationsOf option).map Prod.fst).reverse ++ parsed.parsedOptions

theorem known_type {option : RequestOption} (known : Known option) :
    windowOptionsTypes.lookup option.name = some .duration := by
  cases known with
  | inl emitTimeout => rw [emitTimeout]; rfl
  | inr tolerance => rw [tolerance]; rfl

theorem unknown_type {option : RequestOption} (unknown : ¬Known option) :
    windowOptionsTypes.lookup option.name = none := by
  apply Entries.lookup_of_absent
  intro member
  apply unknown
  simpa [windowOptionsTypes, Known] using member

theorem parse_option_ok_iff (option : RequestOption) (parsed next : Parsed) :
    parseOption parsed option = .ok next ↔
      ((Known option → WellTyped option) ∧
        ∀ name ∈ (durationsOf option).map Prod.fst, name ∉ parsed.parsedOptions) ∧
        next = applyParsed parsed option := by
  unfold parseOption applyParsed durationsOf
  by_cases known : Known option
  · rw [known_type known, if_pos known]
    dsimp only
    split
    · next value values =>
      have typed : WellTyped option ↔ value.type = .duration := by
        unfold WellTyped
        rw [values]
        constructor
        · intro one
          obtain ⟨other, same, isDuration⟩ := one
          rw [(List.cons.inj same).1]
          exact isDuration
        · exact fun isDuration => ⟨value, rfl, isDuration⟩
      rw [typed, values]
      by_cases repeated : option.name ∈ parsed.parsedOptions
      · simp [repeated]
      · by_cases fits : value.type = .duration
        · simp [repeated, fits, known, eq_comm]
        · simp [repeated, fits, known]
    · next many =>
      constructor
      · intro failed
        cases failed
      · intro both
        obtain ⟨value, values, _⟩ := both.1.1 known
        exact absurd values (many value)
  · rw [unknown_type known, if_neg known]
    constructor
    · intro same
      exact ⟨⟨fun isKnown => absurd isKnown known, fun _ member => absurd member List.not_mem_nil⟩,
        (Except.ok.inj same).symm⟩
    · intro both
      rw [both.2]
      rfl

theorem parsed_fold (requestOptions : List RequestOption) (parsed : Parsed) :
    requestOptions.foldl applyParsed parsed =
      ⟨(requestOptions.flatMap durationsOf).reverse ++ parsed.options,
        ((requestOptions.flatMap durationsOf).map Prod.fst).reverse ++ parsed.parsedOptions⟩ := by
  induction requestOptions generalizing parsed with
  | nil => rfl
  | cons option rest induction =>
      rw [List.foldl_cons, induction, applyParsed, List.flatMap_cons, List.map_append,
        List.reverse_append, List.reverse_append, List.append_assoc, List.append_assoc]

theorem durations_names {option : RequestOption} (typed : Known option → WellTyped option) :
    ((durationsOf option).map Prod.fst).Nodup := by
  unfold durationsOf
  split
  · next known =>
    obtain ⟨value, values, _⟩ := typed known
    rw [values]
    exact List.nodup_singleton option.name
  · exact List.nodup_nil

end Meaning

/-- The fold over the options ends where those it knows have one duration each and differ. -/
theorem fold_ok_iff (requestOptions : List RequestOption) (parsed : Parsed) :
    requestOptions.foldlM parseOption {} = .ok parsed ↔
      ((∀ option ∈ requestOptions, Known option → WellTyped option) ∧
        ((requestOptions.flatMap durationsOf).map Prod.fst).Nodup) ∧
      parsed = ⟨(requestOptions.flatMap durationsOf).reverse,
        ((requestOptions.flatMap durationsOf).map Prod.fst).reverse⟩ := by
  have admitted := @CheckedFold.admitted_iff_distinct Parsed RequestOption String
    (fun parsed option => (Known option → WellTyped option) ∧
      ∀ name ∈ (durationsOf option).map Prod.fst, name ∉ parsed.parsedOptions) applyParsed
    (fun option => Known option → WellTyped option)
    (fun option => (durationsOf option).map Prod.fst)
    (fun parsed name => name ∈ parsed.parsedOptions)
    (fun _ => True) requestOptions
    (fun _ _ _ => Iff.rfl)
    (fun _ _ typed => durations_names typed)
    (by
      intro option _ parsed _ _ name
      rw [applyParsed, List.mem_append, List.mem_reverse])
    (fun _ _ _ _ _ => trivial) {} trivial
  rw [CheckedFold.fold_ok_iff requestOptions
    (fun option _ parsed (_ : True) next => parse_option_ok_iff option parsed next)
    (fun _ _ _ _ _ => trivial) trivial, admitted, parsed_fold, List.append_nil, List.append_nil,
    List.map_flatMap]
  constructor
  · intro all
    exact ⟨⟨all.1.1, all.1.2.1⟩, all.2⟩
  · intro both
    exact ⟨⟨both.1.1, both.1.2, fun _ _ => List.not_mem_nil⟩, both.2⟩

theorem parse_stream_aggregate_options_iff (requestOptions : List RequestOption)
    (options : StreamAggregateOptions) :
    parseStreamAggregateOptions requestOptions = .ok options ↔
      Accepted requestOptions ∧ options = meaning requestOptions := by
  unfold parseStreamAggregateOptions
  cases result : requestOptions.foldlM parseOption {} with
  | error message =>
      constructor
      · intro failed
        cases failed
      · intro both
        rw [(fold_ok_iff requestOptions _).mpr ⟨⟨both.1.typed, both.1.distinct⟩, rfl⟩] at result
        cases result
  | ok parsed =>
      obtain ⟨⟨typed, distinct⟩, same⟩ := (fold_ok_iff requestOptions parsed).mp result
      subst same
      have lookups : ∀ name, (requestOptions.flatMap durationsOf).reverse.lookup name =
          (requestOptions.flatMap durationsOf).lookup name :=
        fun name => (Entries.lookup_perm distinct (List.reverse_perm _).symm name).symm
      show (if "emitTimeout" ∉ ((requestOptions.flatMap durationsOf).map Prod.fst).reverse then
        Except.error "Missed required option: emitTimeout" else Except.ok {
          emitTimeout := ((requestOptions.flatMap durationsOf).reverse.lookup "emitTimeout").getD 0
          tolerance := ((requestOptions.flatMap durationsOf).reverse.lookup "tolerance").getD 0 +
            1 }) = Except.ok options ↔ _
      rw [lookups, lookups]
      by_cases complete : "emitTimeout" ∈ (requestOptions.flatMap durationsOf).map Prod.fst
      · rw [if_neg (not_not_intro (List.mem_reverse.mpr complete)), Except.ok.injEq, eq_comm]
        exact ⟨fun same => ⟨⟨typed, distinct, complete⟩, same⟩, fun both => both.2⟩
      · rw [if_pos (fun member => complete (List.mem_reverse.mp member))]
        constructor
        · intro failed
          cases failed
        · exact fun both => absurd both.1.complete complete

-- A tolerance of a second less than nothing is accepted, and its windows have no length.
example : parseStreamAggregateOptions
    [⟨"emitTimeout", [{ type := .duration, durationValue := 2000000000 }]⟩,
      ⟨"tolerance", [{ type := .duration, durationValue := -1000000000 }]⟩] = .ok ⟨2, 0⟩ := rfl

section Init

variable (orders : MapOrders) (renderScalar : Arrow.DataType → Arrow.Value → String)
  (udf : Option (StreamUdf Window.WindowHandler))

/-- `init` sets up windows of one length, as long as the tolerance and one second, where the
aggregates are read and the durations are accepted; else it answers with an error and leaves the
handler as it was. -/
theorem init_opens_windows_iff (requestOptions : List RequestOption) :
    (∀ aggregateOptions, AggregateOptionsParser.parseOptions requestOptions =
        .ok aggregateOptions → Accepted requestOptions →
      init orders renderScalar requestOptions udf =
          (⟨true, ""⟩, some (streamAggregateUdf orders renderScalar aggregateOptions
            ((meaning requestOptions).tolerance - 1))) ∧
        (streamAggregateUdf orders renderScalar aggregateOptions
          ((meaning requestOptions).tolerance - 1)).created.options =
            ⟨(meaning requestOptions).tolerance, (meaning requestOptions).tolerance, true⟩) ∧
    ((init orders renderScalar requestOptions udf).1.success = true ↔
      (∃ aggregateOptions, AggregateOptionsParser.parseOptions requestOptions =
        .ok aggregateOptions) ∧ Accepted requestOptions) ∧
    ((init orders renderScalar requestOptions udf).1.success = false →
      (init orders renderScalar requestOptions udf).2 = udf) := by
  unfold init
  cases aggregates : AggregateOptionsParser.parseOptions requestOptions with
  | error message =>
      constructor
      · intro _ parsed
        cases parsed
      constructor
      · constructor
        · intro success
          cases success
        · intro both
          obtain ⟨_, parsed⟩ := both.1
          cases parsed
      · exact fun _ => rfl
  | ok aggregateOptions =>
      cases durations : parseStreamAggregateOptions requestOptions with
      | error message =>
          have refused : ¬Accepted requestOptions := by
            intro accepted
            rw [(parse_stream_aggregate_options_iff requestOptions _).mpr ⟨accepted, rfl⟩]
              at durations
            cases durations
          constructor
          · exact fun _ _ accepted => absurd accepted refused
          constructor
          · constructor
            · intro success
              cases success
            · exact fun both => absurd both.2 refused
          · exact fun _ => rfl
      | ok options =>
          obtain ⟨accepted, same⟩ :=
            (parse_stream_aggregate_options_iff requestOptions options).mp durations
          subst same
          constructor
          · intro other parsed _
            rw [Except.ok.injEq] at parsed
            subst parsed
            refine ⟨rfl, ?_⟩
            show (⟨_, _, true⟩ : Window.WindowOptions) = _
            rw [Int.sub_add_cancel]
          constructor
          · exact ⟨fun _ => ⟨⟨aggregateOptions, rfl⟩, accepted⟩, fun _ => rfl⟩
          · intro failure
            cases failure

end Init

end StreamDataProcessor.Kapacitor.StreamAggregateRequestHandler
