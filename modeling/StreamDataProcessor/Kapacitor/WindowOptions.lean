import StreamDataProcessor.Foundation.CheckedFold
import StreamDataProcessor.Foundation.Entries
import StreamDataProcessor.Kapacitor.DynamicWindowRequestHandler

/-!
# Which window options are accepted

An option sets each member of the result by itself, so that the parse is a fold of
independent assignments behind a check of names, types and time units.
-/

namespace StreamDataProcessor.Kapacitor.WindowOptions

open Foundation Foundation.Effect Handlers DynamicWindowRequestHandler

set_option autoImplicit false

/-- The options that `period` can come from, or `every`. -/
structure WindowProperty where
  field : String
  timeUnit : String
  default : String
  static : String

def periodProperty : WindowProperty :=
  ⟨"periodField", "periodTimeUnit", "defaultPeriod", "staticPeriod"⟩

def everyProperty : WindowProperty :=
  ⟨"everyField", "everyTimeUnit", "defaultEvery", "staticEvery"⟩

section Assignments

def applyConvert (property : WindowProperty) (current : Option (String × Metadata.TimeUnit))
    (option : RequestOption) : Option (String × Metadata.TimeUnit) :=
  match option.values with
  | [] => current
  | value :: _ =>
      if option.name = property.field then withField current value.stringValue
      else if option.name = property.timeUnit then
        match timeNamesToUnits.lookup value.stringValue with
        | none => current
        | some unit => some ((current.map Prod.fst).getD "", unit)
      else current

def applyDuration (names : List String) (current : Int) (option : RequestOption) : Int :=
  match option.values with
  | [] => current
  | value :: _ =>
      if option.name ∈ names then nanosecondsToSeconds value.durationValue else current

def applyOption (options : WindowOptions) (option : RequestOption) : WindowOptions where
  convertOptions := {
    periodOption := applyConvert periodProperty options.convertOptions.periodOption option
    everyOption := applyConvert everyProperty options.convertOptions.everyOption option }
  windowHandlerOptions := {
    period := applyDuration ["defaultPeriod", "staticPeriod"]
      options.windowHandlerOptions.period option
    every := applyDuration ["defaultEvery", "staticEvery"]
      options.windowHandlerOptions.every option
    fillPeriod := options.windowHandlerOptions.fillPeriod || option.values.isEmpty }
  emitTimeout := applyDuration ["emitTimeout"] options.emitTimeout option

def ValueFits (name : String) (value : OptionValue) : Prop :=
  windowOptionsTypes.lookup name = some value.type ∧
    (name = "periodTimeUnit" ∨ name = "everyTimeUnit" →
      ∃ unit, timeNamesToUnits.lookup value.stringValue = some unit)

theorem type_name {name : String} {type : ValueType}
    (known : windowOptionsTypes.lookup name = some type) :
    name = "periodField" ∨ name = "periodTimeUnit" ∨ name = "everyField" ∨
      name = "everyTimeUnit" ∨ name = "defaultPeriod" ∨ name = "defaultEvery" ∨
      name = "emitTimeout" ∨ name = "staticPeriod" ∨ name = "staticEvery" := by
  have member := List.mem_map_of_mem (f := Prod.fst) (Entries.mem_of_lookup known)
  simpa [windowOptionsTypes] using member

theorem set_unit_ok_iff {name : String} {value : OptionValue} (options next : WindowOptions)
    (unitName : name = "periodTimeUnit" ∨ name = "everyTimeUnit") :
    setOption options name value = .ok next ↔
      (∃ unit, timeNamesToUnits.lookup value.stringValue = some unit) ∧
        next = applyOption options ⟨name, [value]⟩ := by
  rcases unitName with rfl | rfl
  all_goals
    simp only [setOption, applyOption, applyConvert, applyDuration, periodProperty,
      everyProperty, withTimeUnit, String.reduceEq, reduceIte, List.mem_cons, List.not_mem_nil,
      or_self, List.isEmpty_cons, Bool.or_false]
    cases timeNamesToUnits.lookup value.stringValue with
    | none =>
        constructor
        · intro failed
          cases failed
        · intro known
          obtain ⟨unit, found⟩ := known.1
          cases found
    | some unit =>
        constructor
        · intro same
          exact ⟨⟨unit, rfl⟩, (Except.ok.inj same).symm⟩
        · intro same
          rw [same.2]
          rfl

theorem set_option_ok_iff {name : String} {value : OptionValue} (options next : WindowOptions)
    (known : windowOptionsTypes.lookup name = some value.type) :
    setOption options name value = .ok next ↔
      ValueFits name value ∧ next = applyOption options ⟨name, [value]⟩ := by
  unfold ValueFits
  by_cases unitName : name = "periodTimeUnit" ∨ name = "everyTimeUnit"
  · rw [set_unit_ok_iff options next unitName]
    simp only [known, unitName, true_and, forall_const]
  · have assigned : setOption options name value = .ok (applyOption options ⟨name, [value]⟩) := by
      rcases type_name known with rfl | rfl | rfl | rfl | rfl | rfl | rfl | rfl | rfl
      case inr.inl => simp at unitName
      case inr.inr.inr.inl => simp at unitName
      all_goals
        simp only [setOption, applyOption, applyConvert, applyDuration, periodProperty,
          everyProperty, String.reduceEq, reduceIte, List.mem_cons, List.not_mem_nil, or_false,
          or_self, or_true, List.isEmpty_cons, Bool.or_false]
    rw [assigned]
    simp only [known, unitName, false_implies, true_and, Except.ok.injEq, eq_comm]

end Assignments

section Acceptance

/-- Nothing for `fillPeriod`, one fitting value for every other option. -/
def WellTyped (option : RequestOption) : Prop :=
  option.name = "fillPeriod" ∧ option.values = [] ∨
    ∃ value, option.values = [value] ∧ ValueFits option.name value

def limitedNames (option : RequestOption) : List String :=
  if option.name = "fillPeriod" then [] else [option.name]

def applyParsed (parsed : Parsed) (option : RequestOption) : Parsed where
  options := applyOption parsed.options option
  parsedOptions := (option.name, option.values.length) :: parsed.parsedOptions

theorem option_size (name : String) :
    optionsSize.lookup name =
      if name = "fillPeriod" then some 0
      else (windowOptionsTypes.lookup name).map fun _ => 1 := by
  by_cases known : ∃ type, windowOptionsTypes.lookup name = some type
  · obtain ⟨type, found⟩ := known
    rcases type_name found with rfl | rfl | rfl | rfl | rfl | rfl | rfl | rfl | rfl <;> decide
  · have absent : windowOptionsTypes.lookup name = none := by
      cases found : windowOptionsTypes.lookup name with
      | none => rfl
      | some type => exact absurd ⟨type, found⟩ known
    rw [absent]
    split
    · next fill => rw [fill]; decide
    · next other =>
        rw [Option.map_none, List.lookup_eq_none_iff]
        rw [List.lookup_eq_none_iff] at absent
        intro entry member
        have sized : ∀ entry ∈ optionsSize, entry.1 = "fillPeriod" ∨
            ∃ typed ∈ windowOptionsTypes, typed.1 = entry.1 := by
          decide
        rcases sized entry member with fill | held
        · rw [fill]
          exact bne_iff_ne.mpr other
        · obtain ⟨typed, inside, same⟩ := held
          rw [← same]
          exact absent typed inside

theorem values_of_cons (options : WindowOptions) (parsed : Parsed) (name other : String)
    (count : Nat) :
    Parsed.valuesOf ⟨options, (name, count) :: parsed.parsedOptions⟩ other =
      (if name = other then count else 0) + parsed.valuesOf other := by
  unfold Parsed.valuesOf
  dsimp only
  rw [List.filter_cons]
  split
  · next same =>
      rw [if_pos (of_decide_eq_true same)]
      rfl
  · next differ =>
      rw [if_neg fun same => differ (decide_eq_true same), Nat.zero_add]

theorem fill_period_untyped : windowOptionsTypes.lookup "fillPeriod" = none := by decide

theorem well_typed_fill_iff (values : List OptionValue) :
    WellTyped ⟨"fillPeriod", values⟩ ↔ values = [] := by
  constructor
  · intro typed
    rcases typed with fill | valued
    · exact fill.2
    · obtain ⟨value, _, known, _⟩ := valued
      rw [fill_period_untyped] at known
      cases known
  · intro empty
    exact .inl ⟨rfl, empty⟩

theorem parse_fill_ok_iff (parsed : Parsed) (values : List OptionValue) (next : Parsed) :
    parseOption parsed ⟨"fillPeriod", values⟩ = .ok next ↔
      values = [] ∧ next = applyParsed parsed ⟨"fillPeriod", values⟩ := by
  unfold parseOption
  dsimp only
  rw [option_size, if_pos rfl]
  dsimp only
  cases values with
  | nil =>
      rw [if_pos rfl]
      simp only [applyParsed, applyOption, applyConvert, applyDuration, List.length_nil,
        List.isEmpty_nil, Bool.or_true, true_and, Except.ok.injEq, eq_comm]
  | cons value rest =>
      dsimp only
      rw [values_of_cons, if_pos rfl, List.length_cons, if_pos (by omega)]
      constructor
      · intro failed
        cases failed
      · intro empty
        cases empty.1

theorem parse_valued_ok_iff {name : String} (named : name ≠ "fillPeriod") (parsed : Parsed)
    (values : List OptionValue) (next : Parsed) :
    parseOption parsed ⟨name, values⟩ = .ok next ↔
      ((∃ value, values = [value] ∧ ValueFits name value) ∧ parsed.valuesOf name = 0) ∧
        next = applyParsed parsed ⟨name, values⟩ := by
  unfold parseOption
  dsimp only
  rw [option_size, if_neg named]
  cases known : windowOptionsTypes.lookup name with
  | none =>
      constructor
      · intro failed
        cases failed
      · intro typed
        obtain ⟨⟨⟨value, _, fits⟩, _⟩, _⟩ := typed
        rw [fits.1] at known
        cases known
  | some type =>
      rw [Option.map_some]
      dsimp only
      match values with
      | [] =>
          dsimp only
          rw [if_neg named]
          simp
      | [value] =>
          dsimp only
          rw [values_of_cons, if_pos rfl, List.length_singleton]
          by_cases given : parsed.valuesOf name = 0
          · rw [if_neg (by omega)]
            by_cases typed : some type = some value.type
            · rw [if_neg (not_not_intro typed)]
              have assigned := fun options =>
                set_option_ok_iff parsed.options options (known.trans typed)
              constructor
              · intro same
                obtain ⟨options, set, same⟩ := except_bind_ok_cases same
                obtain ⟨fits, rfl⟩ := (assigned options).mp set
                exact ⟨⟨⟨value, rfl, fits⟩, given⟩, (Except.ok.inj same).symm⟩
              · intro fits
                obtain ⟨⟨⟨held, only, fits⟩, _⟩, rfl⟩ := fits
                cases only
                rw [(assigned _).mpr ⟨fits, rfl⟩]
                rfl
            · rw [if_pos typed]
              constructor
              · intro failed
                cases failed
              · intro fits
                obtain ⟨⟨⟨held, only, fits⟩, _⟩, _⟩ := fits
                cases only
                exact absurd (known.symm.trans fits.1) typed
          · rw [if_pos (by omega)]
            simp [given]
      | value :: second :: rest =>
          dsimp only
          rw [values_of_cons, if_pos rfl, List.length_cons, List.length_cons, if_pos (by omega)]
          simp

theorem parse_option_ok_iff (parsed : Parsed) (option : RequestOption) (next : Parsed) :
    parseOption parsed option = .ok next ↔
      (WellTyped option ∧ ∀ name ∈ limitedNames option, ¬parsed.valuesOf name ≠ 0) ∧
        next = applyParsed parsed option := by
  obtain ⟨name, values⟩ := option
  by_cases fill : name = "fillPeriod"
  · subst fill
    rw [parse_fill_ok_iff, well_typed_fill_iff]
    simp [limitedNames]
  · rw [parse_valued_ok_iff fill]
    simp [limitedNames, WellTyped, fill]

structure Readable (requestOptions : List RequestOption) : Prop where
  wellTyped : ∀ option ∈ requestOptions, WellTyped option
  distinct : (requestOptions.flatMap limitedNames).Nodup

theorem parse_fold_ok_iff (requestOptions : List RequestOption) (parsed : Parsed) :
    requestOptions.foldlM parseOption {} = .ok parsed ↔
      Readable requestOptions ∧ parsed = requestOptions.foldl applyParsed {} := by
  have keys : ∀ option ∈ requestOptions, WellTyped option → (limitedNames option).Nodup := by
    intro option _ _
    unfold limitedNames
    split
    · exact List.nodup_nil
    · exact List.nodup_singleton _
  have records : ∀ option ∈ requestOptions, ∀ parsed : Parsed, True → WellTyped option →
      ∀ name, (applyParsed parsed option).valuesOf name ≠ 0 ↔
        name ∈ limitedNames option ∨ parsed.valuesOf name ≠ 0 := by
    intro option _ parsed _ typed name
    unfold applyParsed limitedNames
    rw [values_of_cons]
    rcases typed with fill | valued
    · rw [fill.1, fill.2, if_pos rfl, List.length_nil, ite_self]
      simp
    · obtain ⟨value, only, known, _⟩ := valued
      have named : option.name ≠ "fillPeriod" := by
        intro fill
        rw [fill, fill_period_untyped] at known
        cases known
      rw [only, if_neg named, List.mem_singleton, List.length_singleton]
      by_cases same : option.name = name
      · simp [same]
      · simp [same, Ne.symm same]
  rw [@CheckedFold.fold_ok_iff _ _ _ _ _ _ (fun _ => True) requestOptions
      (fun option _ parsed _ => parse_option_ok_iff parsed option) (fun _ _ _ _ _ => trivial)
      _ trivial,
    @CheckedFold.admitted_iff_distinct _ _ _ _ _ _ _ _ (fun _ => True) requestOptions
      (fun _ _ _ => Iff.rfl) keys records (fun _ _ _ _ _ => trivial) _ trivial]
  have fresh : ∀ name, ¬({} : Parsed).valuesOf name ≠ 0 := fun name => not_not_intro rfl
  constructor
  · intro admitted
    exact ⟨⟨admitted.1.1, admitted.1.2.1⟩, admitted.2⟩
  · intro readable
    exact ⟨⟨readable.1.wellTyped, readable.1.distinct, fun name _ => fresh name⟩, readable.2⟩

theorem fold_options (requestOptions : List RequestOption) (parsed : Parsed) :
    (requestOptions.foldl applyParsed parsed).options =
      requestOptions.foldl applyOption parsed.options := by
  induction requestOptions generalizing parsed with
  | nil => rfl
  | cons option rest induction => exact induction (applyParsed parsed option)

def Present (requestOptions : List RequestOption) (name : String) : Prop :=
  ∃ option ∈ requestOptions, option.name = name

theorem parsed_any_iff (requestOptions : List RequestOption) (parsed : Parsed) (name : String) :
    ((requestOptions.foldl applyParsed parsed).parsedOptions.any fun entry => entry.1 = name) ↔
      Present requestOptions name ∨ parsed.parsedOptions.any fun entry => entry.1 = name := by
  induction requestOptions generalizing parsed with
  | nil => simp [Present]
  | cons option rest induction =>
      rw [List.foldl_cons, induction]
      simp only [applyParsed, Present, List.any_cons, Bool.or_eq_true, decide_eq_true_eq,
        List.mem_cons, exists_eq_or_imp]
      rw [or_left_comm, or_assoc]

def WindowProperty.Complete (property : WindowProperty)
    (requestOptions : List RequestOption) : Prop :=
  Present requestOptions property.field ∧ Present requestOptions property.timeUnit ∧
    Present requestOptions property.default

/-- The disjunction of the property: either all of the dynamic options, or the static one. -/
def WindowProperty.Configured (property : WindowProperty)
    (requestOptions : List RequestOption) : Prop :=
  property.Complete requestOptions ∧ ¬Present requestOptions property.static ∨
    ¬property.Complete requestOptions ∧ Present requestOptions property.static

section Disjunctions

variable {requestOptions : List RequestOption}

theorem check_ok_iff (parsed : Parsed) (disjunction : List (List String)) :
    checkDisjunction parsed disjunction = .ok () ↔
      (disjunction.filter fun optionSet =>
        optionSet.all fun name => parsed.parsedOptions.any fun entry => entry.1 = name).length =
          1 := by
  unfold checkDisjunction
  dsimp only
  split
  · next one => simp only [one]
  · next other =>
      constructor
      · intro failed
        cases failed
      · intro one
        exact absurd one other

theorem present_any (name : String) :
    ((requestOptions.foldl applyParsed {}).parsedOptions.any fun entry => entry.1 = name) ↔
      Present requestOptions name := by
  rw [parsed_any_iff]
  exact or_iff_left Bool.false_ne_true

theorem check_property_iff (property : WindowProperty) :
    checkDisjunction (requestOptions.foldl applyParsed {})
        [[property.field, property.timeUnit, property.default], [property.static]] = .ok () ↔
      property.Configured requestOptions := by
  rw [check_ok_iff]
  simp only [WindowProperty.Configured, WindowProperty.Complete, ← present_any,
    List.filter_cons, List.filter_nil, List.all_cons, List.all_nil, Bool.and_true]
  generalize List.any _ (fun entry : String × Nat => entry.1 = property.field) = field
  generalize List.any _ (fun entry : String × Nat => entry.1 = property.timeUnit) = timeUnit
  generalize List.any _ (fun entry : String × Nat => entry.1 = property.default) = default
  generalize List.any _ (fun entry : String × Nat => entry.1 = property.static) = static
  cases field <;> cases timeUnit <;> cases default <;> cases static <;> simp

theorem check_emit_timeout_iff :
    checkDisjunction (requestOptions.foldl applyParsed {}) [["emitTimeout"]] = .ok () ↔
      Present requestOptions "emitTimeout" := by
  rw [check_ok_iff]
  simp only [← present_any, List.filter_cons, List.filter_nil, List.all_cons, List.all_nil,
    Bool.and_true]
  generalize List.any _ (fun entry : String × Nat => entry.1 = "emitTimeout") = emitTimeout
  revert emitTimeout
  decide

structure Accepted (requestOptions : List RequestOption) : Prop where
  readable : Readable requestOptions
  period : periodProperty.Configured requestOptions
  every : everyProperty.Configured requestOptions
  emitTimeout : Present requestOptions "emitTimeout"

theorem check_all_ok_iff :
    presentedOptionsExclusiveCnf.forM
        (checkDisjunction (requestOptions.foldl applyParsed {})) = .ok () ↔
      periodProperty.Configured requestOptions ∧ everyProperty.Configured requestOptions ∧
        Present requestOptions "emitTimeout" := by
  rw [← check_property_iff, ← check_property_iff, ← check_emit_timeout_iff,
    CheckedFold.checks_ok_iff]
  simp only [presentedOptionsExclusiveCnf, List.forall_mem_cons, List.not_mem_nil, false_implies,
    implies_true, and_true]
  rfl

theorem parse_ok_iff (windowOptions : WindowOptions) :
    parseWindowOptions requestOptions = .ok windowOptions ↔
      Accepted requestOptions ∧ windowOptions = requestOptions.foldl applyOption {} := by
  unfold parseWindowOptions
  constructor
  · intro parse
    obtain ⟨parsed, read, parse⟩ := except_bind_ok_cases parse
    obtain ⟨_, checked, parse⟩ := except_bind_ok_cases parse
    obtain ⟨readable, rfl⟩ := (parse_fold_ok_iff _ _).mp read
    obtain ⟨period, every, emitTimeout⟩ := check_all_ok_iff.mp checked
    rw [fold_options] at parse
    exact ⟨⟨readable, period, every, emitTimeout⟩, (Except.ok.inj parse).symm⟩
  · intro accepted
    obtain ⟨⟨readable, period, every, emitTimeout⟩, rfl⟩ := accepted
    rw [(parse_fold_ok_iff _ _).mpr ⟨readable, rfl⟩]
    change (presentedOptionsExclusiveCnf.forM
      (checkDisjunction (requestOptions.foldl applyParsed {})) >>= fun _ =>
        .ok (requestOptions.foldl applyParsed {}).options) = _
    rw [check_all_ok_iff.mpr ⟨period, every, emitTimeout⟩, ← fold_options requestOptions {}]
    rfl

end Disjunctions

end Acceptance

section Results

section Order

variable {first second : RequestOption}

theorem convert_idle {property : WindowProperty} (field : first.name ≠ property.field)
    (timeUnit : first.name ≠ property.timeUnit) (current : Option (String × Metadata.TimeUnit)) :
    applyConvert property current first = current := by
  unfold applyConvert
  split
  · rfl
  · rw [if_neg field, if_neg timeUnit]

theorem field_unit_comm {property : WindowProperty} (apart : property.field ≠ property.timeUnit)
    (field : first.name = property.field) (timeUnit : second.name = property.timeUnit)
    (current : Option (String × Metadata.TimeUnit)) :
    applyConvert property (applyConvert property current first) second =
      applyConvert property (applyConvert property current second) first := by
  unfold applyConvert
  simp only [if_pos field, if_pos timeUnit, if_neg (timeUnit.trans_ne apart.symm)]
  cases first.values with
  | nil => rfl
  | cons name _ =>
      cases second.values with
      | nil => rfl
      | cons shortcut _ =>
          dsimp only
          cases timeNamesToUnits.lookup shortcut.stringValue <;> rfl

theorem convert_comm {property : WindowProperty} (apart : property.field ≠ property.timeUnit)
    (differ : first.name ≠ second.name) (current : Option (String × Metadata.TimeUnit)) :
    applyConvert property (applyConvert property current first) second =
      applyConvert property (applyConvert property current second) first := by
  by_cases firstField : first.name = property.field
  · by_cases secondUnit : second.name = property.timeUnit
    · exact field_unit_comm apart firstField secondUnit current
    · have idle : second.name ≠ property.field := fun same => differ (firstField.trans same.symm)
      rw [convert_idle idle secondUnit, convert_idle idle secondUnit]
  · by_cases firstUnit : first.name = property.timeUnit
    · by_cases secondField : second.name = property.field
      · exact (field_unit_comm apart secondField firstUnit current).symm
      · have idle : second.name ≠ property.timeUnit := fun same =>
          differ (firstUnit.trans same.symm)
        rw [convert_idle secondField idle, convert_idle secondField idle]
    · rw [convert_idle firstField firstUnit, convert_idle firstField firstUnit]

theorem duration_comm {names : List String}
    (oneWrites : ¬(first.name ∈ names ∧ second.name ∈ names)) (current : Int) :
    applyDuration names (applyDuration names current first) second =
      applyDuration names (applyDuration names current second) first := by
  have idle : ∀ option : RequestOption, option.name ∉ names → ∀ current,
      applyDuration names current option = current := by
    intro option unnamed current
    unfold applyDuration
    split
    · rfl
    · exact if_neg unnamed
  by_cases writes : first.name ∈ names
  · have other : second.name ∉ names := fun named => oneWrites ⟨writes, named⟩
    rw [idle second other, idle second other]
  · rw [idle first writes, idle first writes]

theorem apply_comm (differ : first.name ≠ second.name)
    (onePeriod : ¬(first.name ∈ ["defaultPeriod", "staticPeriod"] ∧
      second.name ∈ ["defaultPeriod", "staticPeriod"]))
    (oneEvery : ¬(first.name ∈ ["defaultEvery", "staticEvery"] ∧
      second.name ∈ ["defaultEvery", "staticEvery"])) (options : WindowOptions) :
    applyOption (applyOption options first) second =
      applyOption (applyOption options second) first := by
  have oneTimeout : ¬(first.name ∈ ["emitTimeout"] ∧ second.name ∈ ["emitTimeout"]) := by
    intro both
    exact differ ((List.mem_singleton.mp both.1).trans (List.mem_singleton.mp both.2).symm)
  unfold applyOption
  dsimp only
  rw [convert_comm (by decide) differ, convert_comm (by decide) differ,
    duration_comm onePeriod, duration_comm oneEvery, duration_comm oneTimeout,
    Bool.or_right_comm]

end Order

theorem convert_unset {property : WindowProperty} {options : List RequestOption}
    (field : ¬Present options property.field) (timeUnit : ¬Present options property.timeUnit) :
    options.foldl (applyConvert property) none = none := by
  have keeps : ∀ option ∈ options, ¬False → ∀ current, current = none →
      applyConvert property current option = none := by
    intro option member _ current unset
    rw [convert_idle (fun same => field ⟨option, member, same⟩)
      (fun same => timeUnit ⟨option, member, same⟩)]
    exact unset
  exact CheckedFold.fold_reaches none (fun _ _ never => never.elim) keeps (.inr rfl)

theorem convert_field {property : WindowProperty} {value : OptionValue}
    {options : List RequestOption}
    (only : ∀ option ∈ options, option.name = property.field → option.values = [value])
    (given : Present options property.field) :
    (options.foldl (applyConvert property) none).map Prod.fst = some value.stringValue := by
  have sets : ∀ option ∈ options, option.name = property.field → ∀ current,
      (applyConvert property current option).map Prod.fst = some value.stringValue := by
    intro option member named current
    simp only [applyConvert, only option member named, if_pos named, withField, Option.map_some]
  have keeps : ∀ option ∈ options, ¬option.name = property.field → ∀ current,
      current.map Prod.fst = some value.stringValue →
      (applyConvert property current option).map Prod.fst = some value.stringValue := by
    intro option _ named current held
    unfold applyConvert
    split
    · exact held
    · rw [if_neg named]
      split
      · split
        · exact held
        · rw [held]
          rfl
      · exact held
  exact CheckedFold.fold_reaches none sets keeps (.inl given)

theorem convert_unit {property : WindowProperty} {value : OptionValue} {unit : Metadata.TimeUnit}
    {options : List RequestOption} (apart : property.field ≠ property.timeUnit)
    (known : timeNamesToUnits.lookup value.stringValue = some unit)
    (only : ∀ option ∈ options, option.name = property.timeUnit → option.values = [value])
    (given : Present options property.timeUnit) :
    (options.foldl (applyConvert property) none).map Prod.snd = some unit := by
  have sets : ∀ option ∈ options, option.name = property.timeUnit → ∀ current,
      (applyConvert property current option).map Prod.snd = some unit := by
    intro option member named current
    simp only [applyConvert, only option member named, if_pos named,
      if_neg (named.trans_ne apart.symm), known, Option.map_some]
  have keeps : ∀ option ∈ options, ¬option.name = property.timeUnit → ∀ current,
      current.map Prod.snd = some unit →
      (applyConvert property current option).map Prod.snd = some unit := by
    intro option _ named current held
    unfold applyConvert
    split
    · exact held
    · rw [if_neg named]
      split
      · rw [withField, held]
        rfl
      · exact held
  exact CheckedFold.fold_reaches none sets keeps (.inl given)

end Results

section OneSource

def WindowProperty.Static (property : WindowProperty)
    (requestOptions : List RequestOption) : Prop :=
  Present requestOptions property.static ∧ ¬Present requestOptions property.field ∧
    ¬Present requestOptions property.timeUnit ∧ ¬Present requestOptions property.default

def WindowProperty.Dynamic (property : WindowProperty)
    (requestOptions : List RequestOption) : Prop :=
  property.Complete requestOptions ∧ ¬Present requestOptions property.static

def WindowProperty.Mixed (property : WindowProperty)
    (requestOptions : List RequestOption) : Prop :=
  Present requestOptions property.static ∧
    (Present requestOptions property.field ∨ Present requestOptions property.timeUnit ∨
      Present requestOptions property.default)

def Gives (requestOptions : List RequestOption) (name : String) (value : OptionValue) : Prop :=
  ∃ option ∈ requestOptions, option.name = name ∧ option.values = [value]

def WindowProperty.Converts (property : WindowProperty) (requestOptions : List RequestOption)
    (convertOption : Option (String × Metadata.TimeUnit)) : Prop :=
  ∃ field shortcut unit, Gives requestOptions property.field field ∧
    Gives requestOptions property.timeUnit shortcut ∧
    timeNamesToUnits.lookup shortcut.stringValue = some unit ∧
    convertOption = some (field.stringValue, unit)

def WindowProperty.OneSource (property : WindowProperty) (requestOptions : List RequestOption)
    (convertOption : Option (String × Metadata.TimeUnit)) : Prop :=
  property.Static requestOptions ∧ convertOption = none ∨
    property.Dynamic requestOptions ∧ property.Converts requestOptions convertOption

/-- A result that no other reading of the same options gives. -/
structure Unambiguous (requestOptions : List RequestOption) (windowOptions : WindowOptions) :
    Prop where
  period : periodProperty.OneSource requestOptions windowOptions.convertOptions.periodOption
  every : everyProperty.OneSource requestOptions windowOptions.convertOptions.everyOption
  emitTimeout : (requestOptions.map RequestOption.name).count "emitTimeout" = 1
  anyOrder : ∀ others, others.Perm requestOptions →
    parseWindowOptions others = .ok windowOptions

/-- A list of options that means one thing. -/
structure WellFormed (requestOptions : List RequestOption) : Prop where
  readable : Readable requestOptions
  period : periodProperty.Static requestOptions ∨ periodProperty.Dynamic requestOptions
  every : everyProperty.Static requestOptions ∨ everyProperty.Dynamic requestOptions
  emitTimeout : (requestOptions.map RequestOption.name).count "emitTimeout" = 1

/-- Exactly the options that mean one thing are accepted, for what they mean. -/
def AcceptsUnambiguous (requestOptions : List RequestOption) : Prop :=
  (∀ windowOptions, parseWindowOptions requestOptions = .ok windowOptions →
    Unambiguous requestOptions windowOptions) ∧
  (WellFormed requestOptions →
    ∃ windowOptions, parseWindowOptions requestOptions = .ok windowOptions)

variable {requestOptions : List RequestOption}

theorem fill_option {option : RequestOption} (typed : WellTyped option)
    (fill : option.name = "fillPeriod") : option = ⟨"fillPeriod", []⟩ := by
  obtain ⟨name, values⟩ := option
  have named : name = "fillPeriod" := fill
  subst named
  rw [(well_typed_fill_iff values).mp typed]

theorem same_option (readable : Readable requestOptions) {first second : RequestOption}
    (inFirst : first ∈ requestOptions) (inSecond : second ∈ requestOptions)
    (same : first.name = second.name) : first = second := by
  by_cases fill : first.name = "fillPeriod"
  · rw [fill_option (readable.wellTyped first inFirst) fill,
      fill_option (readable.wellTyped second inSecond) (same ▸ fill)]
  · by_contra differ
    have symmetric : Std.Symm (Function.onFun List.Disjoint limitedNames) :=
      ⟨fun _ _ disjoint _ inSecond inFirst => disjoint inFirst inSecond⟩
    have apart := (List.nodup_flatMap.mp readable.distinct).2.forall inFirst inSecond differ
    have own : ∀ option : RequestOption, option.name = first.name →
        first.name ∈ limitedNames option := by
      intro option named
      rw [limitedNames, named, if_neg fill]
      exact List.mem_singleton_self _
    exact apart (own first rfl) (own second same.symm)

theorem present_iff_mem (name : String) :
    Present requestOptions name ↔ name ∈ requestOptions.map RequestOption.name :=
  List.mem_map.symm

theorem count_limited {name : String} (limited : name ≠ "fillPeriod") :
    (requestOptions.flatMap limitedNames).count name =
      (requestOptions.map RequestOption.name).count name := by
  induction requestOptions with
  | nil => rfl
  | cons option rest induction =>
      rw [List.flatMap_cons, List.count_append, induction, List.map_cons, List.count_cons,
        Nat.add_comm]
      unfold limitedNames
      split
      · next fill => simp [fill, Ne.symm limited]
      · simp [List.count_singleton]

theorem present_once (readable : Readable requestOptions) {name : String}
    (limited : name ≠ "fillPeriod") (present : Present requestOptions name) :
    (requestOptions.map RequestOption.name).count name = 1 := by
  have few := List.nodup_iff_count_le_one.mp readable.distinct name
  rw [count_limited limited] at few
  have some := List.count_pos_iff.mpr ((present_iff_mem name).mp present)
  omega

theorem static_or_dynamic {property : WindowProperty}
    (configured : property.Configured requestOptions)
    (unmixed : ¬property.Mixed requestOptions) :
    property.Static requestOptions ∨ property.Dynamic requestOptions := by
  rcases configured with dynamic | static
  · exact .inr dynamic
  · refine .inl ⟨static.2, ?_, ?_, ?_⟩
    · exact fun present => unmixed ⟨static.2, .inl present⟩
    · exact fun present => unmixed ⟨static.2, .inr (.inl present)⟩
    · exact fun present => unmixed ⟨static.2, .inr (.inr present)⟩

theorem configured_of_source {property : WindowProperty}
    (source : property.Static requestOptions ∨ property.Dynamic requestOptions) :
    property.Configured requestOptions := by
  rcases source with static | dynamic
  · exact .inr ⟨fun complete => static.2.1 complete.1, static.1⟩
  · exact .inl dynamic

theorem unmixed_of_source {property : WindowProperty}
    (source : property.Static requestOptions ∨ property.Dynamic requestOptions) :
    ¬property.Mixed requestOptions := by
  intro mixed
  rcases source with static | dynamic
  · rcases mixed.2 with field | timeUnit | default
    · exact static.2.1 field
    · exact static.2.2.1 timeUnit
    · exact static.2.2.2 default
  · exact dynamic.2 mixed.1

theorem given_once (readable : Readable requestOptions) {name : String}
    (limited : name ≠ "fillPeriod") (present : Present requestOptions name) :
    ∃ value, Gives requestOptions name value ∧ ValueFits name value ∧
      ∀ option ∈ requestOptions, option.name = name → option.values = [value] := by
  obtain ⟨option, member, rfl⟩ := present
  rcases readable.wellTyped option member with fill | valued
  · exact absurd fill.1 limited
  · obtain ⟨value, only, fits⟩ := valued
    refine ⟨value, ⟨option, member, rfl, only⟩, fits, ?_⟩
    intro other inside same
    rw [same_option readable inside member same, only]

theorem one_source {property : WindowProperty} (readable : Readable requestOptions)
    (apart : property.field ≠ property.timeUnit) (fieldLimited : property.field ≠ "fillPeriod")
    (unitName : property.timeUnit = "periodTimeUnit" ∨ property.timeUnit = "everyTimeUnit")
    (source : property.Static requestOptions ∨ property.Dynamic requestOptions) :
    property.OneSource requestOptions (requestOptions.foldl (applyConvert property) none) := by
  rcases source with static | dynamic
  · exact .inl ⟨static, convert_unset static.2.1 static.2.2.1⟩
  · have unitLimited : property.timeUnit ≠ "fillPeriod" := by
      rcases unitName with named | named <;> rw [named] <;> decide
    obtain ⟨field, givenField, _, onlyField⟩ := given_once readable fieldLimited dynamic.1.1
    obtain ⟨shortcut, givenUnit, fits, onlyUnit⟩ := given_once readable unitLimited dynamic.1.2.1
    obtain ⟨unit, known⟩ := fits.2 unitName
    have name := convert_field onlyField dynamic.1.1
    have timeUnit := convert_unit apart known onlyUnit dynamic.1.2.1
    refine .inr ⟨dynamic, field, shortcut, unit, givenField, givenUnit, known, ?_⟩
    cases result : requestOptions.foldl (applyConvert property) none with
    | none =>
        rw [result] at name
        cases name
    | some pair =>
        rw [result, Option.map_some] at name timeUnit
        rw [← Option.some.inj name, ← Option.some.inj timeUnit]

theorem fold_convert (property : WindowProperty)
    (member : WindowOptions → Option (String × Metadata.TimeUnit))
    (assigns : ∀ options option,
      member (applyOption options option) = applyConvert property (member options) option) :
    member (requestOptions.foldl applyOption {}) =
      requestOptions.foldl (applyConvert property) (member {}) :=
  (List.foldl_hom member fun options option => (assigns options option).symm).symm

theorem not_both_written {property : WindowProperty} (unmixed : ¬property.Mixed requestOptions)
    {first second : RequestOption} (inFirst : first ∈ requestOptions)
    (inSecond : second ∈ requestOptions) (differ : first.name ≠ second.name) :
    ¬(first.name ∈ [property.default, property.static] ∧
      second.name ∈ [property.default, property.static]) := by
  intro both
  simp only [List.mem_cons, List.not_mem_nil, or_false] at both
  rcases both.1 with firstDefault | firstStatic
  · rcases both.2 with secondDefault | secondStatic
    · exact differ (firstDefault.trans secondDefault.symm)
    · exact unmixed ⟨⟨second, inSecond, secondStatic⟩, .inr (.inr ⟨first, inFirst, firstDefault⟩)⟩
  · rcases both.2 with secondDefault | secondStatic
    · exact unmixed ⟨⟨first, inFirst, firstStatic⟩, .inr (.inr ⟨second, inSecond, secondDefault⟩)⟩
    · exact differ (firstStatic.trans secondStatic.symm)

theorem accepted_perm {others : List RequestOption} (same : others.Perm requestOptions)
    (accepted : Accepted requestOptions) : Accepted others := by
  have present : ∀ name, Present others name ↔ Present requestOptions name := by
    intro name
    rw [present_iff_mem, present_iff_mem]
    exact (same.map _).mem_iff
  have configured : ∀ property : WindowProperty,
      property.Configured requestOptions → property.Configured others := by
    intro property configured
    unfold WindowProperty.Configured WindowProperty.Complete at configured ⊢
    simp only [present]
    exact configured
  constructor
  · exact ⟨fun option member => accepted.readable.wellTyped option (same.mem_iff.mp member),
      (same.flatMap_right limitedNames).nodup_iff.mpr accepted.readable.distinct⟩
  · exact configured _ accepted.period
  · exact configured _ accepted.every
  · exact (present _).mpr accepted.emitTimeout

theorem result_perm {others : List RequestOption} (same : others.Perm requestOptions)
    (readable : Readable requestOptions) (period : ¬periodProperty.Mixed requestOptions)
    (every : ¬everyProperty.Mixed requestOptions) :
    others.foldl applyOption {} = requestOptions.foldl applyOption {} := by
  refine (same.symm.foldl_eq' ?_ _).symm
  intro first inFirst second inSecond options
  by_cases equal : first = second
  · rw [equal]
  · have differ : first.name ≠ second.name := fun named =>
      equal (same_option readable inFirst inSecond named)
    exact apply_comm differ (not_both_written period inFirst inSecond differ)
      (not_both_written every inFirst inSecond differ) options

theorem unambiguous_of_unmixed (accepted : Accepted requestOptions)
    (period : ¬periodProperty.Mixed requestOptions)
    (every : ¬everyProperty.Mixed requestOptions) :
    Unambiguous requestOptions (requestOptions.foldl applyOption {}) := by
  constructor
  · have member := @fold_convert requestOptions periodProperty
      (fun options => options.convertOptions.periodOption) fun _ _ => rfl
    rw [member]
    exact one_source accepted.readable (by decide) (by decide) (.inl rfl)
      (static_or_dynamic accepted.period period)
  · have member := @fold_convert requestOptions everyProperty
      (fun options => options.convertOptions.everyOption) fun _ _ => rfl
    rw [member]
    exact one_source accepted.readable (by decide) (by decide) (.inr rfl)
      (static_or_dynamic accepted.every every)
  · exact present_once accepted.readable (by decide) accepted.emitTimeout
  · intro others same
    exact (parse_ok_iff _).mpr ⟨accepted_perm same accepted,
      (result_perm same accepted.readable period every).symm⟩

theorem accepted_of_well_formed (formed : WellFormed requestOptions) :
    Accepted requestOptions := by
  have present : Present requestOptions "emitTimeout" := by
    rw [present_iff_mem, ← List.count_pos_iff, formed.emitTimeout]
    decide
  exact ⟨formed.readable, configured_of_source formed.period, configured_of_source formed.every,
    present⟩

theorem source_of_one_source {property : WindowProperty}
    {convertOption : Option (String × Metadata.TimeUnit)}
    (source : property.OneSource requestOptions convertOption) :
    property.Static requestOptions ∨ property.Dynamic requestOptions :=
  source.imp And.left And.left

/-- The parse accepts only what it can mean one thing by, exactly when no static option that
it lets through stands beside a dynamic option of the same property. -/
theorem accepts_unambiguous_iff (requestOptions : List RequestOption) :
    AcceptsUnambiguous requestOptions ↔
      (Accepted requestOptions →
        ¬periodProperty.Mixed requestOptions ∧ ¬everyProperty.Mixed requestOptions) := by
  constructor
  · intro claim accepted
    have unambiguous := claim.1 _ ((parse_ok_iff _).mpr ⟨accepted, rfl⟩)
    exact ⟨unmixed_of_source (source_of_one_source unambiguous.period),
      unmixed_of_source (source_of_one_source unambiguous.every)⟩
  · intro unmixed
    constructor
    · intro windowOptions parse
      obtain ⟨accepted, rfl⟩ := (parse_ok_iff windowOptions).mp parse
      exact unambiguous_of_unmixed accepted (unmixed accepted).1 (unmixed accepted).2
    · intro formed
      exact ⟨_, (parse_ok_iff _).mpr ⟨accepted_of_well_formed formed, rfl⟩⟩

def overwrittenPeriod : List RequestOption :=
  staticOptions 5000000000 ++
    [{ name := "defaultPeriod", values := [{ type := .duration, durationValue := 20000000000 }] }]

theorem default_overwrites_static :
    ¬∀ requestOptions : List RequestOption, AcceptsUnambiguous requestOptions := by
  intro claim
  have unambiguous := (claim overwrittenPeriod).1
    { windowHandlerOptions := ⟨20, 5, false⟩, emitTimeout := 1 } rfl
  apply unmixed_of_source (source_of_one_source unambiguous.period)
  exact ⟨⟨_, .head _, rfl⟩, .inr (.inr ⟨_, .tail _ (.tail _ (.tail _ (.head _))), rfl⟩)⟩

end OneSource

end StreamDataProcessor.Kapacitor.WindowOptions
