import StreamDataProcessor.Foundation.Blocks
import StreamDataProcessor.Foundation.CheckedFold
import StreamDataProcessor.Foundation.Entries
import StreamDataProcessor.Kapacitor.DerivativeRequestHandler

/-!
# The grammar of the derivative options

Without its `noWait` options a list is cut into blocks: a global option, or a case, which
is a `derivative` and the `as` and `order` options up to the next block. The parse accepts
exactly the lists whose blocks are complete and gives every case what its own block says.
-/

namespace StreamDataProcessor.Kapacitor.DerivativeGrammar

open Foundation Foundation.Effect Handlers.Derivative DerivativeRequestHandler
open DynamicWindowRequestHandler (ValueType OptionValue RequestOption Parse nanosecondsToSeconds)

set_option autoImplicit false

def isSetting (option : RequestOption) : Bool := option.name = "as" || option.name = "order"

def WellTyped (option : RequestOption) : Prop :=
  option.name = "noWait" ∧ option.values = [] ∨
    ∃ value, option.values = [value] ∧ derivativeOptionsTypes.lookup option.name = some value.type

def firstValue (option : RequestOption) : OptionValue :=
  option.values.headD { type := .bool }

def valued (requestOptions : List RequestOption) : List RequestOption :=
  requestOptions.filter fun option => option.name ≠ "noWait"

def optionBlocks (requestOptions : List RequestOption) : List (List RequestOption) :=
  Blocks.blocks isSetting (valued requestOptions)

/-- A global option by itself, or a `derivative` whose settings name its result. -/
def WholeBlock : List RequestOption → Prop
  | [] => False
  | head :: settings =>
      head.name ∈ optionalGlobalOptions ∧ settings = [] ∨
        head.name = "derivative" ∧ ∃ setting ∈ settings, setting.name = "as"

def lastNamed (name : String) (settings : List RequestOption) : Option RequestOption :=
  (settings.filter fun setting => setting.name = name).getLast?

/-- What a block says of a case: its last `as`, its column and its last `order`. -/
def blockCases : List RequestOption → List (String × DerivativeCase)
  | [] => []
  | head :: settings =>
      if head.name = "derivative" then
        match lastNamed "as" settings with
        | none => []
        | some result =>
            [((firstValue result).stringValue,
              { valuesColumnName := (firstValue head).stringValue
                order := ((lastNamed "order" settings).map fun order =>
                  (firstValue order).intValue.toNat).getD 1 })]
      else []

def derivativeCases (requestOptions : List RequestOption) : List (String × DerivativeCase) :=
  (optionBlocks requestOptions).flatMap blockCases

structure Grammar (requestOptions : List RequestOption) : Prop where
  wellTyped : ∀ option ∈ requestOptions, WellTyped option
  globalsOnce : ((requestOptions.map RequestOption.name).filter (· ∈ optionalGlobalOptions)).Nodup
  whole : ∀ block ∈ optionBlocks requestOptions, WholeBlock block
  nonNegative : ∀ option ∈ requestOptions, option.name = "order" →
    0 ≤ (firstValue option).intValue
  distinct : ((derivativeCases requestOptions).map Prod.fst).Nodup
  someCase : derivativeCases requestOptions ≠ []

def durationOf (requestOptions : List RequestOption) (name : String) : Option Int :=
  (requestOptions.find? fun option => option.name = name).map fun option =>
    (firstValue option).durationValue

def meaning (requestOptions : List RequestOption) : UdfOptions :=
  let unit := (durationOf requestOptions "unit").getD 1000000000
  { options := {
      unitTimeSegment := unit
      derivativeNeighbourhood := (durationOf requestOptions "neighbourhood").getD unit
      derivativeCases := derivativeCases requestOptions
      noWaitFuture := requestOptions.any fun option => option.name = "noWait" }
    emitTimeout := ((durationOf requestOptions "emitTimeout").map nanosecondsToSeconds).getD 10 }

section Step

variable {parsed next : Parsed} {option : RequestOption}

def markNoWait (parsed : Parsed) : Parsed :=
  { parsed with options := { parsed.options with noWaitFuture := true } }

def addCase (parsed : Parsed) : Parsed :=
  { parsed with
    options := { parsed.options with
      derivativeCases := parsed.options.derivativeCases ++
        [(parsed.currentResultOption, { parsed.currentCase with
          order := if "order" ∈ parsed.parsedCaseOptions then parsed.currentCase.order else 1 })] }
    parsedCaseOptions := [] }

def startCase (parsed : Parsed) (option : RequestOption) : Parsed :=
  recordCaseOption { parsed with currentCase := { parsed.currentCase with
    valuesColumnName := (firstValue option).stringValue } } option.name

def applySetting (parsed : Parsed) (option : RequestOption) : Parsed :=
  recordCaseOption
    (if option.name = "as" then
      { parsed with currentResultOption := (firstValue option).stringValue }
    else { parsed with currentCase := { parsed.currentCase with
      order := (firstValue option).intValue.toNat } })
    option.name

def applyGlobal (parsed : Parsed) (option : RequestOption) : Parsed :=
  let duration := (firstValue option).durationValue
  { parsed with
    parsedGlobalOptions := option.name :: parsed.parsedGlobalOptions
    options := { parsed.options with
      unitTimeSegment := if option.name = "unit" then duration
        else parsed.options.unitTimeSegment
      derivativeNeighbourhood := if option.name = "neighbourhood" then duration
        else parsed.options.derivativeNeighbourhood }
    emitTimeout := if option.name = "emitTimeout" then nanosecondsToSeconds duration
      else parsed.emitTimeout }

theorem close_ok_iff :
    closeCase parsed = .ok next ↔
      parsed.parsedCaseOptions = [] ∧ next = parsed ∨
        ("derivative" ∈ parsed.parsedCaseOptions ∧ "as" ∈ parsed.parsedCaseOptions ∧
          parsed.currentResultOption ∉ parsed.options.derivativeCases.map Prod.fst) ∧
          next = addCase parsed := by
  unfold closeCase
  split
  · next empty =>
      simp [empty, eq_comm]
  · next nonempty =>
      unfold addDerivativeCase
      cases found : requiredDerivativeCaseOptions.find? (· ∉ parsed.parsedCaseOptions) with
      | none =>
          have required : "derivative" ∈ parsed.parsedCaseOptions ∧
              "as" ∈ parsed.parsedCaseOptions := by
            simpa [requiredDerivativeCaseOptions] using found
          dsimp only
          split
          · next taken => simp [nonempty, taken]
          · next free => simp [nonempty, required, free, addCase, eq_comm]
      | some missing =>
          have absent : missing ∉ parsed.parsedCaseOptions := by
            simpa using List.find?_some found
          have member := List.mem_of_find?_eq_some found
          simp only [requiredDerivativeCaseOptions, List.mem_cons, List.not_mem_nil,
            or_false] at member
          constructor
          · intro failed
            cases failed
          · intro closes
            rcases closes with empty | complete
            · exact absurd empty.1 nonempty
            · rcases member with rfl | rfl
              · exact absurd complete.1.1 absent
              · exact absurd complete.1.2.1 absent

theorem type_name {name : String} {type : ValueType}
    (known : derivativeOptionsTypes.lookup name = some type) :
    name = "derivative" ∨ name = "as" ∨ name = "order" ∨ name ∈ optionalGlobalOptions := by
  have member := List.mem_map_of_mem (f := Prod.fst) (Entries.mem_of_lookup known)
  simpa [derivativeOptionsTypes, optionalGlobalOptions] using member

theorem parse_no_wait_ok_iff (named : option.name = "noWait") :
    parseOption parsed option = .ok next ↔
      option.values = [] ∧ "noWait" ∉ parsed.parsedGlobalOptions ∧ next = markNoWait parsed := by
  unfold parseOption
  dsimp only
  rw [if_neg fun unknown => unknown.2 named, if_pos named, named]
  by_cases taken : "noWait" ∈ parsed.parsedGlobalOptions
  · rw [if_pos (.inl taken)]
    simp [taken]
  · cases option.values with
    | nil => simp [taken, markNoWait, eq_comm]
    | cons value rest =>
        split
        · simp
        · simp

theorem parse_valued_ok_iff (named : option.name ≠ "noWait") :
    parseOption parsed option = .ok next ↔
      WellTyped option ∧ option.name ∉ parsed.parsedGlobalOptions ∧
        (if option.name ∈ optionalGlobalOptions then
            setGlobalOption parsed option.name (firstValue option)
          else setCaseOption parsed option.name (firstValue option)) = .ok next := by
  unfold parseOption WellTyped firstValue
  dsimp only
  cases known : derivativeOptionsTypes.lookup option.name with
  | none => simp [named]
  | some type =>
      by_cases taken : option.name ∈ parsed.parsedGlobalOptions
      · simp [taken]
      · match held : option.values with
        | [] => simp [taken, named]
        | [value] =>
            by_cases typed : type = value.type
            · simp [taken, named, typed]
            · have other : ¬value.type = type := fun same => typed same.symm
              simp [taken, named, typed, other]
        | value :: second :: rest => simp [taken, named]

theorem set_global_eq (global : option.name ∈ optionalGlobalOptions) :
    setGlobalOption parsed option.name (firstValue option) =
      (closeCase parsed).map (applyGlobal · option) := by
  unfold setGlobalOption applyGlobal
  cases closeCase parsed with
  | error message => rfl
  | ok closed =>
      simp only [optionalGlobalOptions, List.mem_cons, List.not_mem_nil, or_false] at global
      rcases global with named | named | named
      all_goals
        rw [named]
        simp only [String.reduceEq, reduceIte]
        rfl

theorem set_derivative_eq (named : option.name = "derivative") :
    setCaseOption parsed option.name (firstValue option) =
      (closeCase parsed).map (startCase · option) := by
  unfold setCaseOption startCase
  rw [if_pos named]
  cases closeCase parsed <;> rfl

def openBlock (closed : Parsed) (head : RequestOption) : Parsed :=
  if head.name ∈ optionalGlobalOptions then applyGlobal closed head else startCase closed head

theorem parse_head_ok_iff (named : option.name ≠ "noWait") (opens : isSetting option = false) :
    parseOption parsed option = .ok next ↔
      WellTyped option ∧ option.name ∉ parsed.parsedGlobalOptions ∧
        (closeCase parsed).map (openBlock · option) = .ok next := by
  rw [parse_valued_ok_iff named]
  apply and_congr_right
  intro typed
  apply and_congr_right
  intro _
  unfold openBlock
  split
  · next global => rw [set_global_eq global]
  · next local_ =>
      rcases typed with bare | held
      · exact absurd bare.1 named
      · obtain ⟨value, _, known⟩ := held
        simp only [isSetting, Bool.or_eq_false_iff, decide_eq_false_iff_not] at opens
        rcases type_name known with derivative | result | order | global
        · rw [set_derivative_eq derivative]
        · exact absurd result opens.1
        · exact absurd order opens.2
        · exact absurd global local_

theorem setting_names (setting : isSetting option = true) :
    option.name = "as" ∨ option.name = "order" := by
  simpa [isSetting] using setting

theorem parse_setting_ok_iff (setting : isSetting option = true) :
    parseOption parsed option = .ok next ↔
      WellTyped option ∧ option.name ∉ parsed.parsedGlobalOptions ∧
        ("derivative" ∈ parsed.parsedCaseOptions ∧
          (option.name = "order" → 0 ≤ (firstValue option).intValue)) ∧
          next = applySetting parsed option := by
  have kept : option.name ≠ "noWait" ∧ option.name ∉ optionalGlobalOptions := by
    rcases setting_names setting with named | named <;> rw [named] <;> decide
  rw [parse_valued_ok_iff kept.1, if_neg kept.2]
  apply and_congr_right
  intro _
  apply and_congr_right
  intro _
  unfold setCaseOption applySetting
  by_cases started : "derivative" ∈ parsed.parsedCaseOptions
  · rcases setting_names setting with named | named
    · simp [named, started, eq_comm]
    · by_cases negative : (firstValue option).intValue < 0
      · simp [named, started, negative]
      · simp [named, started, negative, not_lt.mp negative, eq_comm]
  · rcases setting_names setting with named | named
    · simp [named, started]
    · simp [named, started]

end Step

section Closing

variable {parsed closed next : Parsed} {option : RequestOption}

theorem closed_empty (closes : closeCase parsed = .ok closed) : closed.parsedCaseOptions = [] := by
  rcases close_ok_iff.mp closes with open_ | complete
  · rw [open_.2]
    exact open_.1
  · rw [complete.2]
    rfl

theorem close_of_empty (empty : parsed.parsedCaseOptions = []) : closeCase parsed = .ok parsed :=
  close_ok_iff.mpr (.inl ⟨empty, rfl⟩)

theorem close_keeps_globals (closes : closeCase parsed = .ok closed) :
    closed.parsedGlobalOptions = parsed.parsedGlobalOptions := by
  rcases close_ok_iff.mp closes with open_ | complete
  · rw [open_.2]
  · rw [complete.2]
    rfl

theorem closes_first (named : option.name ≠ "noWait") (opens : isSetting option = false) :
    parseOption parsed option = .ok next ↔
      ∃ closed, closeCase parsed = .ok closed ∧ parseOption closed option = .ok next := by
  simp only [parse_head_ok_iff named opens]
  constructor
  · intro parses
    obtain ⟨typed, fresh, opened⟩ := parses
    obtain ⟨closed, closes, same⟩ := except_map_ok_cases opened
    refine ⟨closed, closes, typed, ?_, ?_⟩
    · rw [close_keeps_globals closes]
      exact fresh
    · rw [close_of_empty (closed_empty closes), same]
      rfl
  · intro parses
    obtain ⟨closed, closes, typed, fresh, opened⟩ := parses
    rw [close_keeps_globals closes] at fresh
    rw [close_of_empty (closed_empty closes)] at opened
    refine ⟨typed, fresh, ?_⟩
    rw [closes]
    exact opened

end Closing

section Block

/-- Closed, with only global options among those that may not come again. -/
structure Between (parsed : Parsed) : Prop where
  closed : parsed.parsedCaseOptions = []
  globals : ∀ name ∈ parsed.parsedGlobalOptions, name ∈ optionalGlobalOptions

/-- A well typed option that is no negative order. -/
def Fits (option : RequestOption) : Prop :=
  WellTyped option ∧ (option.name = "order" → 0 ≤ (firstValue option).intValue)

theorem settings_ok_iff {settings : List RequestOption}
    (every : ∀ option ∈ settings, isSetting option = true) {parsed : Parsed}
    (started : "derivative" ∈ parsed.parsedCaseOptions)
    (globals : ∀ name ∈ parsed.parsedGlobalOptions, name ∈ optionalGlobalOptions)
    (next : Parsed) :
    settings.foldlM parseOption parsed = .ok next ↔
      (∀ option ∈ settings, Fits option) ∧ next = settings.foldl applySetting parsed := by
  have steps : ∀ option ∈ settings, ∀ parsed : Parsed,
      "derivative" ∈ parsed.parsedCaseOptions ∧
        (∀ name ∈ parsed.parsedGlobalOptions, name ∈ optionalGlobalOptions) →
      ∀ next, parseOption parsed option = .ok next ↔
        Fits option ∧ next = applySetting parsed option := by
    intro option member parsed holds next
    have setting := every option member
    have fresh : option.name ∉ parsed.parsedGlobalOptions := by
      intro taken
      have global := holds.2 _ taken
      rcases setting_names setting with named | named
        <;> rw [named] at global
        <;> revert global
        <;> decide
    rw [parse_setting_ok_iff setting, Fits]
    simp only [fresh, holds.1, not_false_eq_true, true_and, and_assoc]
  have keeps : ∀ option ∈ settings, ∀ parsed : Parsed,
      "derivative" ∈ parsed.parsedCaseOptions ∧
        (∀ name ∈ parsed.parsedGlobalOptions, name ∈ optionalGlobalOptions) →
      Fits option → "derivative" ∈ (applySetting parsed option).parsedCaseOptions ∧
        ∀ name ∈ (applySetting parsed option).parsedGlobalOptions,
          name ∈ optionalGlobalOptions := by
    intro option _ parsed holds _
    unfold applySetting recordCaseOption
    split
    · exact ⟨List.mem_cons_of_mem _ holds.1, holds.2⟩
    · exact ⟨List.mem_cons_of_mem _ holds.1, holds.2⟩
  rw [CheckedFold.fold_ok_iff settings steps keeps ⟨started, globals⟩,
    CheckedFold.admitted_iff_forall]

theorem last_named_snoc (name : String) (settings : List RequestOption) (option : RequestOption) :
    lastNamed name (settings ++ [option]) =
      if option.name = name then some option else lastNamed name settings := by
  unfold lastNamed
  rw [List.filter_append, List.filter_cons]
  split
  · next same =>
      rw [if_pos (of_decide_eq_true same)]
      simp
  · next other =>
      rw [if_neg fun same => other (decide_eq_true same)]
      simp

theorem fold_settings {settings : List RequestOption}
    (every : ∀ option ∈ settings, isSetting option = true) (parsed : Parsed) :
    settings.foldl applySetting parsed =
      { parsed with
        currentResultOption := ((lastNamed "as" settings).map fun result =>
          (firstValue result).stringValue).getD parsed.currentResultOption
        currentCase := { parsed.currentCase with
          order := ((lastNamed "order" settings).map fun order =>
            (firstValue order).intValue.toNat).getD parsed.currentCase.order }
        parsedCaseOptions := (settings.map RequestOption.name).reverse ++
          parsed.parsedCaseOptions } := by
  induction settings using List.reverseRecOn with
  | nil => rfl
  | append_singleton earlier option induction =>
      have setting := every option (List.mem_append_right _ (List.mem_singleton_self option))
      have others := induction fun other member => every other (List.mem_append_left _ member)
      rw [List.foldl_append, others, List.foldl_cons, List.foldl_nil, last_named_snoc,
        last_named_snoc]
      unfold applySetting recordCaseOption
      rcases setting_names setting with named | named
      · simp [named]
      · simp [named]

theorem last_named_some {name : String} {settings : List RequestOption}
    (given : ∃ setting ∈ settings, setting.name = name) :
    ∃ last, lastNamed name settings = some last := by
  obtain ⟨setting, member, named⟩ := given
  have inside : setting ∈ settings.filter fun setting => setting.name = name :=
    List.mem_filter.mpr ⟨member, decide_eq_true named⟩
  exact ⟨_, List.getLast?_eq_some_getLast (List.ne_nil_of_mem inside)⟩

/-- The parse of a block, from a state between blocks. -/
def applyBlock (parsed : Parsed) : List RequestOption → Parsed
  | [] => parsed
  | head :: settings =>
      if head.name ∈ optionalGlobalOptions then applyGlobal parsed head
      else addCase (settings.foldl applySetting (startCase parsed head))

def ValidBlock (block : List RequestOption) : Prop :=
  (∀ option ∈ block, Fits option) ∧ WholeBlock block

/-- The global names and the result names of a block, which no other block may have. -/
def blockKeys (block : List RequestOption) : List (String ⊕ String) :=
  ((block.map RequestOption.name).filter (· ∈ optionalGlobalOptions)).map .inl ++
    ((blockCases block).map Prod.fst).map .inr

def Taken (parsed : Parsed) : String ⊕ String → Prop
  | .inl name => name ∈ parsed.parsedGlobalOptions
  | .inr name => name ∈ parsed.options.derivativeCases.map Prod.fst

variable {parsed next : Parsed} {head : RequestOption} {settings : List RequestOption}

theorem setting_not_global {option : RequestOption} (setting : isSetting option = true) :
    option.name ∉ optionalGlobalOptions := by
  rcases setting_names setting with named | named <;> rw [named] <;> decide

theorem settings_without_globals (every : ∀ option ∈ settings, isSetting option = true) :
    (settings.map RequestOption.name).filter (· ∈ optionalGlobalOptions) = [] := by
  rw [List.filter_eq_nil_iff]
  intro name member
  obtain ⟨option, inside, rfl⟩ := List.mem_map.mp member
  simpa using setting_not_global (every option inside)

/-- A setting that no `derivative` precedes is refused. -/
theorem finish_orphan {setting : RequestOption} {rest : List RequestOption}
    (empty : parsed.parsedCaseOptions = []) (orphan : isSetting setting = true) :
    Blocks.finish parseOption closeCase parsed (setting :: rest) ≠ .ok next := by
  intro finished
  obtain ⟨read, reads, _⟩ := (Blocks.finish_cons _ _ _ _).mp finished
  have started := ((parse_setting_ok_iff orphan).mp reads).2.2.1.1
  rw [empty] at started
  cases started

theorem global_names {option : RequestOption} (global : option.name ∈ optionalGlobalOptions) :
    option.name ≠ "noWait" ∧ isSetting option = false ∧ option.name ≠ "order" ∧
      option.name ≠ "derivative" := by
  simp only [optionalGlobalOptions, List.mem_cons, List.not_mem_nil, or_false] at global
  rcases global with named | named | named <;> simp [named, isSetting]

theorem keys_of_global (global : head.name ∈ optionalGlobalOptions) :
    blockKeys [head] = [.inl head.name] := by
  simp [blockKeys, blockCases, (global_names global).2.2.2, global]

theorem finish_global (between : Between parsed) (global : head.name ∈ optionalGlobalOptions)
    (every : ∀ option ∈ settings, isSetting option = true) :
    Blocks.finish parseOption closeCase parsed (head :: settings) = .ok next ↔
      (ValidBlock (head :: settings) ∧
        ∀ key ∈ blockKeys (head :: settings), ¬Taken parsed key) ∧
        next = applyBlock parsed (head :: settings) := by
  have kept := global_names global
  have parses : ∀ opened, parseOption parsed head = .ok opened ↔
      (WellTyped head ∧ head.name ∉ parsed.parsedGlobalOptions) ∧
        opened = applyGlobal parsed head := by
    intro opened
    rw [parse_head_ok_iff kept.1 kept.2.1, close_of_empty between.closed, and_assoc]
    simp only [Except.map, openBlock, if_pos global, Except.ok.injEq, eq_comm]
  have empty : (applyGlobal parsed head).parsedCaseOptions = [] := between.closed
  cases settings with
  | nil =>
      have whole : WholeBlock [head] := .inl ⟨global, rfl⟩
      rw [Blocks.finish_cons, ValidBlock, keys_of_global global, List.forall_mem_singleton,
        List.forall_mem_singleton, applyBlock, if_pos global]
      constructor
      · intro finished
        obtain ⟨opened, parse, finished⟩ := finished
        obtain ⟨⟨typed, free⟩, rfl⟩ := (parses opened).mp parse
        have closes : closeCase (applyGlobal parsed head) = .ok next := finished
        rw [close_of_empty empty] at closes
        exact ⟨⟨⟨⟨typed, fun order => absurd order kept.2.2.1⟩, whole⟩, free⟩,
          (Except.ok.inj closes).symm⟩
      · intro valid
        obtain ⟨⟨⟨⟨typed, _⟩, _⟩, free⟩, rfl⟩ := valid
        exact ⟨_, (parses _).mpr ⟨⟨typed, free⟩, rfl⟩, close_of_empty empty⟩
  | cons setting rest =>
      rw [Blocks.finish_cons]
      constructor
      · intro finished
        obtain ⟨opened, parse, finished⟩ := finished
        obtain ⟨_, rfl⟩ := (parses opened).mp parse
        exact absurd finished (finish_orphan empty (every setting List.mem_cons_self))
      · intro valid
        rcases valid.1.1.2 with alone | local_
        · cases alone.2
        · exact absurd local_.1 kept.2.2.2

theorem whole_derivative_iff (named : head.name = "derivative") :
    WholeBlock (head :: settings) ↔ ∃ setting ∈ settings, setting.name = "as" := by
  have notGlobal : head.name ∉ optionalGlobalOptions := by
    rw [named]
    decide
  constructor
  · intro whole
    rcases whole with global | local_
    · exact absurd global.1 notGlobal
    · exact local_.2
  · intro given
    exact .inr ⟨named, given⟩

theorem keys_of_derivative (named : head.name = "derivative")
    (every : ∀ option ∈ settings, isSetting option = true) {result : RequestOption}
    (last : lastNamed "as" settings = some result) :
    blockKeys (head :: settings) = [.inr (firstValue result).stringValue] := by
  have notGlobal : head.name ∉ optionalGlobalOptions := by
    rw [named]
    decide
  unfold blockKeys blockCases
  rw [List.map_cons, List.filter_cons_of_neg (by simpa using notGlobal),
    settings_without_globals every]
  dsimp only
  rw [if_pos named, last]
  rfl

/-- The case that is open after the settings of a block. -/
theorem close_settings_iff (empty : parsed.parsedCaseOptions = [])
    (named : head.name = "derivative") (every : ∀ option ∈ settings, isSetting option = true) :
    closeCase (settings.foldl applySetting (startCase parsed head)) = .ok next ↔
      ((∃ setting ∈ settings, setting.name = "as") ∧
        ∀ key ∈ blockKeys (head :: settings), ¬Taken parsed key) ∧
        next = addCase (settings.foldl applySetting (startCase parsed head)) := by
  have opened : (startCase parsed head).parsedCaseOptions = ["derivative"] := by
    rw [← named]
    exact congrArg _ empty
  have asGiven : "as" ∈ (settings.map RequestOption.name).reverse ++ ["derivative"] ↔
      ∃ setting ∈ settings, setting.name = "as" := by
    simp
  rw [close_ok_iff, fold_settings every]
  dsimp only
  rw [opened, asGiven]
  by_cases given : ∃ setting ∈ settings, setting.name = "as"
  · obtain ⟨result, last⟩ := last_named_some given
    rw [keys_of_derivative named every last, last]
    simp [given, Taken, startCase, recordCaseOption]
  · simp [given]

theorem finish_derivative (between : Between parsed) (named : head.name = "derivative")
    (every : ∀ option ∈ settings, isSetting option = true) :
    Blocks.finish parseOption closeCase parsed (head :: settings) = .ok next ↔
      (ValidBlock (head :: settings) ∧
        ∀ key ∈ blockKeys (head :: settings), ¬Taken parsed key) ∧
        next = applyBlock parsed (head :: settings) := by
  have kept : head.name ∉ optionalGlobalOptions ∧ head.name ≠ "noWait" ∧
      isSetting head = false ∧ head.name ≠ "order" := by
    simp [named, optionalGlobalOptions, isSetting]
  have fresh : head.name ∉ parsed.parsedGlobalOptions := fun taken =>
    kept.1 (between.globals _ taken)
  have parses : ∀ opened, parseOption parsed head = .ok opened ↔
      WellTyped head ∧ opened = startCase parsed head := by
    intro opened
    rw [parse_head_ok_iff kept.2.1 kept.2.2.1, close_of_empty between.closed]
    simp only [fresh, not_false_eq_true, true_and, Except.map, openBlock, if_neg kept.1,
      Except.ok.injEq, eq_comm]
  have started : "derivative" ∈ (startCase parsed head).parsedCaseOptions := by
    rw [startCase, named]
    exact List.mem_cons_self
  have run := fun read => settings_ok_iff every started between.globals read
  have closes := @close_settings_iff parsed next head settings between.closed named every
  rw [Blocks.finish_cons, ValidBlock, whole_derivative_iff named, List.forall_mem_cons]
  constructor
  · intro finished
    obtain ⟨opened, parse, finished⟩ := finished
    obtain ⟨typed, rfl⟩ := (parses opened).mp parse
    obtain ⟨read, reads, closed⟩ := except_bind_ok_cases finished
    obtain ⟨fits, rfl⟩ := (run read).mp reads
    obtain ⟨⟨given, free⟩, rfl⟩ := closes.mp closed
    refine ⟨⟨⟨⟨⟨typed, fun order => absurd order kept.2.2.2⟩, fits⟩, given⟩, free⟩, ?_⟩
    exact (if_neg kept.1).symm
  · intro valid
    obtain ⟨⟨⟨⟨⟨typed, _⟩, fits⟩, given⟩, free⟩, rfl⟩ := valid
    refine ⟨_, (parses _).mpr ⟨typed, rfl⟩, ?_⟩
    have reads := (run _).mpr ⟨fits, rfl⟩
    rw [applyBlock, if_neg kept.1, Blocks.finish, reads]
    exact (close_settings_iff between.closed named every).mpr ⟨⟨given, free⟩, rfl⟩

theorem finish_block {block : List RequestOption}
    (shape : ∃ head settings, block = head :: settings ∧
      ∀ option ∈ settings, isSetting option = true)
    (valued : ∀ option ∈ block, option.name ≠ "noWait") (between : Between parsed) :
    Blocks.finish parseOption closeCase parsed block = .ok next ↔
      (ValidBlock block ∧ ∀ key ∈ blockKeys block, ¬Taken parsed key) ∧
        next = applyBlock parsed block := by
  obtain ⟨head, settings, rfl, every⟩ := shape
  by_cases global : head.name ∈ optionalGlobalOptions
  · exact finish_global between global every
  · by_cases named : head.name = "derivative"
    · exact finish_derivative between named every
    · constructor
      · intro finished
        exfalso
        by_cases setting : isSetting head = true
        · exact finish_orphan between.closed setting finished
        · obtain ⟨read, reads, _⟩ := (Blocks.finish_cons _ _ _ _).mp finished
          have noWait := valued head List.mem_cons_self
          rcases ((parse_valued_ok_iff noWait).mp reads).1 with bare | held
          · exact noWait bare.1
          · obtain ⟨value, _, known⟩ := held
            rcases type_name known with derivative | result | order | unit
            · exact named derivative
            · exact setting (by simp [isSetting, result])
            · exact setting (by simp [isSetting, order])
            · exact global unit
      · intro valid
        rcases valid.1.1.2 with alone | local_
        · exact absurd alone.1 global
        · exact absurd local_.1 named

end Block

section Members

variable {parsed : Parsed} {head : RequestOption} {settings : List RequestOption}

theorem last_named_none {name : String} (absent : lastNamed name settings = none) :
    name ∉ settings.map RequestOption.name := by
  intro member
  obtain ⟨setting, inside, named⟩ := List.mem_map.mp member
  obtain ⟨last, found⟩ := last_named_some ⟨setting, inside, named⟩
  rw [absent] at found
  cases found

theorem last_named_mem {name : String} {last : RequestOption}
    (found : lastNamed name settings = some last) : name ∈ settings.map RequestOption.name := by
  have member := List.mem_of_getLast? found
  rw [List.mem_filter] at member
  exact List.mem_map.mpr ⟨last, member.1, of_decide_eq_true member.2⟩

theorem cases_of_block (every : ∀ option ∈ settings, isSetting option = true)
    (empty : parsed.parsedCaseOptions = []) (whole : WholeBlock (head :: settings)) :
    (applyBlock parsed (head :: settings)).options.derivativeCases =
      parsed.options.derivativeCases ++ blockCases (head :: settings) := by
  rcases whole with global | derivative
  · rw [applyBlock, if_pos global.1, blockCases, if_neg (global_names global.1).2.2.2,
      List.append_nil]
    rfl
  · obtain ⟨result, last⟩ := last_named_some derivative.2
    have notGlobal : head.name ∉ optionalGlobalOptions := by
      rw [derivative.1]
      decide
    rw [applyBlock, if_neg notGlobal, blockCases, if_pos derivative.1, last, addCase,
      fold_settings every]
    dsimp only
    rw [last]
    have opened : (startCase parsed head).parsedCaseOptions = ["derivative"] := by
      rw [← derivative.1]
      exact congrArg _ empty
    rw [opened]
    cases ordered : lastNamed "order" settings with
    | none =>
        have absent := last_named_none ordered
        rw [if_neg (by simpa using absent)]
        rfl
    | some order =>
        have member := last_named_mem ordered
        rw [if_pos (List.mem_append_left _ (List.mem_reverse.mpr member))]
        rfl

theorem globals_of_block (every : ∀ option ∈ settings, isSetting option = true) :
    let next := applyBlock parsed (head :: settings)
    next.options.unitTimeSegment = (if head.name = "unit" then (firstValue head).durationValue
        else parsed.options.unitTimeSegment) ∧
      next.options.derivativeNeighbourhood =
        (if head.name = "neighbourhood" then (firstValue head).durationValue
          else parsed.options.derivativeNeighbourhood) ∧
      next.emitTimeout =
        (if head.name = "emitTimeout" then nanosecondsToSeconds (firstValue head).durationValue
          else parsed.emitTimeout) ∧
      next.options.noWaitFuture = parsed.options.noWaitFuture ∧
      next.parsedGlobalOptions =
        (if head.name ∈ optionalGlobalOptions then head.name :: parsed.parsedGlobalOptions
          else parsed.parsedGlobalOptions) := by
  by_cases global : head.name ∈ optionalGlobalOptions
  · simp only [applyBlock, if_pos global, applyGlobal, and_self]
  · have others := global
    simp only [optionalGlobalOptions, List.mem_cons, List.not_mem_nil, or_false, not_or] at others
    simp only [applyBlock, if_neg global, addCase, fold_settings every, others, reduceIte,
      startCase, recordCaseOption, and_self]

theorem between_of_block (every : ∀ option ∈ settings, isSetting option = true)
    (between : Between parsed) : Between (applyBlock parsed (head :: settings)) := by
  constructor
  · rw [applyBlock]
    split
    · exact between.closed
    · rfl
  · rw [(globals_of_block every).2.2.2.2]
    split
    · next global =>
        intro name member
        rcases List.mem_cons.mp member with rfl | held
        · exact global
        · exact between.globals name held
    · exact between.globals

theorem taken_of_block (every : ∀ option ∈ settings, isSetting option = true)
    (empty : parsed.parsedCaseOptions = []) (whole : WholeBlock (head :: settings))
    (key : String ⊕ String) :
    Taken (applyBlock parsed (head :: settings)) key ↔
      key ∈ blockKeys (head :: settings) ∨ Taken parsed key := by
  cases key with
  | inl name =>
      simp only [Taken, (globals_of_block every).2.2.2.2, blockKeys, List.map_cons,
        List.filter_cons, decide_eq_true_eq, settings_without_globals every]
      split
      · simp
      · simp
  | inr name =>
      simp only [Taken, cases_of_block every empty whole, blockKeys, List.map_append,
        List.mem_append]
      simp [or_comm]

end Members

section Blocks

variable {requestOptions : List RequestOption}

theorem block_of_options {block : List RequestOption}
    (member : block ∈ optionBlocks requestOptions) :
    ∃ head settings, block = head :: settings ∧
      ∀ option ∈ settings, isSetting option = true :=
  Blocks.block_shape isSetting member

theorem mem_valued_iff (option : RequestOption) :
    option ∈ valued requestOptions ↔ option ∈ requestOptions ∧ option.name ≠ "noWait" := by
  rw [valued, List.mem_filter, decide_eq_true_eq]

theorem option_of_block {block : List RequestOption}
    (member : block ∈ optionBlocks requestOptions) {option : RequestOption}
    (inside : option ∈ block) : option ∈ valued requestOptions := by
  have flat := Blocks.flatten_blocks isSetting (valued requestOptions)
  rw [← flat]
  exact List.mem_flatten.mpr ⟨block, member, inside⟩

theorem block_of_option {option : RequestOption} (member : option ∈ valued requestOptions) :
    ∃ block ∈ optionBlocks requestOptions, option ∈ block := by
  rw [← Blocks.flatten_blocks isSetting (valued requestOptions)] at member
  exact List.mem_flatten.mp member

/-- The options with values are parsed exactly when every block is valid and no two of their
names are the same. -/
theorem finish_valued_ok_iff (final : Parsed) :
    Blocks.finish parseOption closeCase {} (valued requestOptions) = .ok final ↔
      ((∀ block ∈ optionBlocks requestOptions, ValidBlock block) ∧
        ((optionBlocks requestOptions).flatMap blockKeys).Nodup) ∧
        final = (optionBlocks requestOptions).foldl applyBlock {} := by
  have steps : ∀ block ∈ optionBlocks requestOptions, ∀ parsed, Between parsed → ∀ next,
      Blocks.finish parseOption closeCase parsed block = .ok next ↔
        (ValidBlock block ∧ ∀ key ∈ blockKeys block, ¬Taken parsed key) ∧
          next = applyBlock parsed block := by
    intro block member parsed between next
    exact finish_block (block_of_options member)
      (fun option inside => ((mem_valued_iff option).mp (option_of_block member inside)).2) between
  have keeps : ∀ block ∈ optionBlocks requestOptions, ∀ parsed, Between parsed →
      Between (applyBlock parsed block) := by
    intro block member parsed between
    obtain ⟨head, settings, rfl, every⟩ := block_of_options member
    exact between_of_block every between
  have records : ∀ block ∈ optionBlocks requestOptions, ∀ parsed, Between parsed →
      ValidBlock block → ∀ key,
        Taken (applyBlock parsed block) key ↔ key ∈ blockKeys block ∨ Taken parsed key := by
    intro block member parsed between valid
    obtain ⟨head, settings, rfl, every⟩ := block_of_options member
    exact taken_of_block every between.closed valid.2
  have differ : ∀ block ∈ optionBlocks requestOptions, ValidBlock block →
      (blockKeys block).Nodup := by
    intro block member valid
    obtain ⟨head, settings, rfl, every⟩ := block_of_options member
    rcases valid.2 with global | derivative
    · rw [global.2, keys_of_global global.1]
      exact List.nodup_singleton _
    · obtain ⟨result, last⟩ := last_named_some derivative.2
      rw [keys_of_derivative derivative.1 every last]
      exact List.nodup_singleton _
  have start : Between {} := ⟨rfl, fun name member => (List.not_mem_nil member).elim⟩
  have free : ∀ key, ¬Taken {} key := by
    intro key taken
    cases key <;> cases taken
  rw [Blocks.finish_iff_blocks (valued requestOptions)
      (fun option member opens parsed next =>
        closes_first ((mem_valued_iff option).mp member).2 opens)
      (fun parsed closed closes => close_of_empty (closed_empty closes))
      (close_of_empty start.closed) final]
  change (optionBlocks requestOptions).foldlM _ _ = _ ↔ _
  rw [CheckedFold.fold_ok_iff _ steps (fun block member parsed between _ =>
      keeps block member parsed between) start,
    CheckedFold.admitted_iff_distinct _ (fun _ _ _ => Iff.rfl) differ records
      (fun block member parsed between _ => keeps block member parsed between) start]
  simp only [free, not_false_eq_true, implies_true, and_true]

end Blocks

section NoWait

variable {parsed next closed : Parsed} {option : RequestOption}

theorem close_marked :
    closeCase (markNoWait parsed) = .ok next ↔
      ∃ closed, closeCase parsed = .ok closed ∧ next = markNoWait closed := by
  simp only [close_ok_iff]
  constructor
  · intro closes
    rcases closes with empty | complete
    · exact ⟨parsed, .inl ⟨empty.1, rfl⟩, empty.2⟩
    · exact ⟨addCase parsed, .inr ⟨complete.1, rfl⟩, complete.2⟩
  · intro closes
    obtain ⟨closed, empty | complete, rfl⟩ := closes
    · exact .inl ⟨empty.1, congrArg markNoWait empty.2⟩
    · exact .inr ⟨complete.1, congrArg markNoWait complete.2⟩

theorem apply_setting_marked :
    applySetting (markNoWait parsed) option = markNoWait (applySetting parsed option) := by
  unfold applySetting
  split <;> rfl

theorem open_block_marked :
    openBlock (markNoWait parsed) option = markNoWait (openBlock parsed option) := by
  unfold openBlock
  split <;> rfl

theorem except_map_ok {result : Parse Parsed} {change : Parsed → Parsed} (value : Parsed)
    (returned : result = .ok value) : result.map change = .ok (change value) := by
  rw [returned]
  rfl

theorem parse_marked (named : option.name ≠ "noWait") :
    parseOption (markNoWait parsed) option = .ok next ↔
      ∃ read, parseOption parsed option = .ok read ∧ next = markNoWait read := by
  by_cases setting : isSetting option = true
  · simp only [parse_setting_ok_iff setting]
    constructor
    · intro parses
      obtain ⟨typed, fresh, admitted, rfl⟩ := parses
      exact ⟨_, ⟨typed, fresh, admitted, rfl⟩, apply_setting_marked⟩
    · intro parses
      obtain ⟨read, ⟨typed, fresh, admitted, rfl⟩, rfl⟩ := parses
      exact ⟨typed, fresh, admitted, apply_setting_marked.symm⟩
  · simp only [parse_head_ok_iff named (Bool.eq_false_of_not_eq_true setting)]
    constructor
    · intro parses
      obtain ⟨typed, fresh, opened⟩ := parses
      obtain ⟨marked, closes, rfl⟩ := except_map_ok_cases opened
      obtain ⟨closed, unmarked, rfl⟩ := close_marked.mp closes
      exact ⟨_, ⟨typed, fresh, except_map_ok closed unmarked⟩, open_block_marked⟩
    · intro parses
      obtain ⟨read, ⟨typed, fresh, opened⟩, rfl⟩ := parses
      obtain ⟨closed, closes, rfl⟩ := except_map_ok_cases opened
      rw [← open_block_marked]
      exact ⟨typed, fresh, except_map_ok _ (close_marked.mpr ⟨closed, closes, rfl⟩)⟩

theorem finish_marked {options : List RequestOption}
    (valued : ∀ option ∈ options, option.name ≠ "noWait") :
    Blocks.finish parseOption closeCase (markNoWait parsed) options = .ok next ↔
      ∃ final, Blocks.finish parseOption closeCase parsed options = .ok final ∧
        next = markNoWait final := by
  induction options generalizing parsed with
  | nil => exact close_marked
  | cons option rest induction =>
      rw [List.forall_mem_cons] at valued
      simp only [Blocks.finish_cons, parse_marked valued.1]
      constructor
      · intro finished
        obtain ⟨_, ⟨read, reads, rfl⟩, finished⟩ := finished
        obtain ⟨final, unmarked, rfl⟩ := (induction valued.2).mp finished
        exact ⟨final, ⟨read, reads, unmarked⟩, rfl⟩
      · intro finished
        obtain ⟨final, ⟨read, reads, finished⟩, rfl⟩ := finished
        exact ⟨_, ⟨read, reads, rfl⟩, (induction valued.2).mpr ⟨final, finished, rfl⟩⟩

theorem globals_kept (reads : parseOption parsed option = .ok next)
    (free : "noWait" ∉ parsed.parsedGlobalOptions) : "noWait" ∉ next.parsedGlobalOptions := by
  by_cases named : option.name = "noWait"
  · rw [((parse_no_wait_ok_iff named).mp reads).2.2]
    exact free
  · by_cases setting : isSetting option = true
    · rw [((parse_setting_ok_iff setting).mp reads).2.2.2]
      unfold applySetting
      split <;> exact free
    · have opens := Bool.eq_false_of_not_eq_true setting
      obtain ⟨closed, closes, rfl⟩ :=
        except_map_ok_cases ((parse_head_ok_iff named opens).mp reads).2.2
      rw [← close_keeps_globals closes] at free
      unfold openBlock
      split
      · intro member
        rcases List.mem_cons.mp member with same | held
        · exact named same.symm
        · exact free held
      · exact free

theorem finish_ok_iff (requestOptions : List RequestOption)
    (free : "noWait" ∉ parsed.parsedGlobalOptions) :
    Blocks.finish parseOption closeCase parsed requestOptions = .ok next ↔
      (∀ option ∈ requestOptions, option.name = "noWait" → option.values = []) ∧
        ∃ final, Blocks.finish parseOption closeCase parsed (valued requestOptions) = .ok final ∧
          next = if requestOptions.any fun option => option.name = "noWait" then markNoWait final
            else final := by
  induction requestOptions generalizing parsed with
  | nil => simp [valued]
  | cons option rest induction =>
      rw [List.forall_mem_cons, Blocks.finish_cons]
      by_cases named : option.name = "noWait"
      · have dropped : valued (option :: rest) = valued rest := by
          rw [valued, List.filter_cons_of_neg (by simp [named]), valued]
        have others : ∀ other ∈ valued rest, other.name ≠ "noWait" :=
          fun other member => ((mem_valued_iff other).mp member).2
        rw [dropped, List.any_cons, decide_eq_true named, Bool.true_or]
        simp only [reduceIte]
        have markedFree : "noWait" ∉ (markNoWait parsed).parsedGlobalOptions := free
        constructor
        · intro finished
          obtain ⟨read, reads, finished⟩ := finished
          obtain ⟨bare, _, rfl⟩ := (parse_no_wait_ok_iff named).mp reads
          obtain ⟨bareRest, marked, run, rfl⟩ := (induction markedFree).mp finished
          obtain ⟨final, unmarked, rfl⟩ := (finish_marked others).mp run
          refine ⟨⟨fun _ => bare, bareRest⟩, final, unmarked, ?_⟩
          split <;> rfl
        · intro finished
          obtain ⟨⟨bare, bareRest⟩, final, finished, rfl⟩ := finished
          refine ⟨markNoWait parsed, (parse_no_wait_ok_iff named).mpr ⟨bare named, free, rfl⟩, ?_⟩
          refine (induction markedFree).mpr ⟨bareRest, markNoWait final,
            (finish_marked others).mpr ⟨final, finished, rfl⟩, ?_⟩
          split <;> rfl
      · have kept : valued (option :: rest) = option :: valued rest := by
          rw [valued, List.filter_cons_of_pos (by simp [named]), valued]
        rw [kept, List.any_cons, decide_eq_false named, Bool.false_or]
        simp only [Blocks.finish_cons]
        constructor
        · intro finished
          obtain ⟨read, reads, finished⟩ := finished
          obtain ⟨bareRest, final, finished, same⟩ :=
            (induction (globals_kept reads free)).mp finished
          exact ⟨⟨fun wait => absurd wait named, bareRest⟩, final, ⟨read, reads, finished⟩, same⟩
        · intro finished
          obtain ⟨⟨_, bareRest⟩, final, ⟨read, reads, finished⟩, same⟩ := finished
          exact ⟨read, reads, (induction (globals_kept reads free)).mpr
            ⟨bareRest, final, finished, same⟩⟩

end NoWait

section Result

variable {requestOptions : List RequestOption}

theorem fold_cases {cut : List (List RequestOption)}
    (shapes : ∀ block ∈ cut, ∃ head settings, block = head :: settings ∧
      ∀ option ∈ settings, isSetting option = true)
    (whole : ∀ block ∈ cut, WholeBlock block) {parsed : Parsed} (between : Between parsed) :
    (cut.foldl applyBlock parsed).options.derivativeCases =
      parsed.options.derivativeCases ++ cut.flatMap blockCases := by
  induction cut generalizing parsed with
  | nil => exact (List.append_nil _).symm
  | cons block rest induction =>
      rw [List.forall_mem_cons] at shapes whole
      obtain ⟨head, settings, rfl, every⟩ := shapes.1
      rw [List.foldl_cons, induction shapes.2 whole.2 (between_of_block every between),
        cases_of_block every between.closed whole.1, List.flatMap_cons, List.append_assoc]

def Opens (name : String) (block : List RequestOption) : Prop :=
  block.head?.map RequestOption.name = some name

theorem opens_iff {name : String} (global : name ∈ optionalGlobalOptions) :
    (∃ block ∈ optionBlocks requestOptions, Opens name block) ↔
      ∃ option ∈ requestOptions, option.name = name := by
  constructor
  · intro opened
    obtain ⟨block, member, opens⟩ := opened
    obtain ⟨head, settings, rfl, _⟩ := block_of_options member
    have inside := option_of_block member List.mem_cons_self
    exact ⟨head, ((mem_valued_iff head).mp inside).1, Option.some.inj opens⟩
  · intro given
    obtain ⟨option, member, rfl⟩ := given
    obtain ⟨block, inBlocks, inside⟩ :=
      block_of_option ((mem_valued_iff option).mpr ⟨member, (global_names global).1⟩)
    obtain ⟨head, settings, rfl, every⟩ := block_of_options inBlocks
    refine ⟨_, inBlocks, ?_⟩
    rcases List.mem_cons.mp inside with rfl | setting
    · rfl
    · exact absurd global (setting_not_global (every option setting))

theorem fold_globals {cut : List (List RequestOption)}
    (shapes : ∀ block ∈ cut, ∃ head settings, block = head :: settings ∧
      ∀ option ∈ settings, isSetting option = true)
    (parsed : Parsed) {name : String} (global : name ∈ optionalGlobalOptions) :
    name ∈ (cut.foldl applyBlock parsed).parsedGlobalOptions ↔
      (∃ block ∈ cut, Opens name block) ∨ name ∈ parsed.parsedGlobalOptions := by
  induction cut generalizing parsed with
  | nil => simp
  | cons block rest induction =>
      rw [List.forall_mem_cons] at shapes
      obtain ⟨head, settings, rfl, every⟩ := shapes.1
      have own : name ∈ (applyBlock parsed (head :: settings)).parsedGlobalOptions ↔
          Opens name (head :: settings) ∨ name ∈ parsed.parsedGlobalOptions := by
        rw [(globals_of_block every).2.2.2.2, Opens, List.head?_cons, Option.map_some,
          Option.some.injEq]
        split
        · rw [List.mem_cons, eq_comm]
        · next other =>
            have differ : head.name ≠ name := fun same => other (same ▸ global)
            simp [differ]
      rw [List.foldl_cons, induction shapes.2, own]
      simp only [List.mem_cons, exists_eq_or_imp]
      rw [or_left_comm, or_assoc]

theorem same_global (once : ((requestOptions.map RequestOption.name).filter
      (· ∈ optionalGlobalOptions)).Nodup) {first second : RequestOption}
    (inFirst : first ∈ requestOptions) (inSecond : second ∈ requestOptions)
    (global : first.name ∈ optionalGlobalOptions) (same : second.name = first.name) :
    second = first := by
  rw [List.filter_map] at once
  have kept : ∀ option ∈ requestOptions, option.name = first.name →
      option ∈ requestOptions.filter
        ((fun name => decide (name ∈ optionalGlobalOptions)) ∘ RequestOption.name) := by
    intro option member named
    rw [List.mem_filter, Function.comp_apply, named]
    exact ⟨member, decide_eq_true global⟩
  exact List.inj_on_of_nodup_map once (kept second inSecond same) (kept first inFirst rfl) same

theorem global_result {name : String} (global : name ∈ optionalGlobalOptions)
    (once : ((requestOptions.map RequestOption.name).filter
      (· ∈ optionalGlobalOptions)).Nodup)
    (result : Parsed → Int) (value : RequestOption → Int)
    (assigns : ∀ parsed head settings, (∀ option ∈ settings, isSetting option = true) →
      result (applyBlock parsed (head :: settings)) =
        if head.name = name then value head else result parsed) (default : Int) :
    let final := (optionBlocks requestOptions).foldl applyBlock {}
    (if name ∈ final.parsedGlobalOptions then result final else default) =
      ((requestOptions.find? fun option => option.name = name).map value).getD default := by
  intro final
  have recorded := fold_globals (fun block => @block_of_options requestOptions block) {} global
  rw [opens_iff global, or_iff_left List.not_mem_nil] at recorded
  cases found : requestOptions.find? fun option => option.name = name with
  | none =>
      have absent : name ∉ final.parsedGlobalOptions := by
        intro taken
        obtain ⟨option, member, named⟩ := recorded.mp taken
        exact List.find?_eq_none.mp found option member (decide_eq_true named)
      rw [if_neg absent]
      rfl
  | some held =>
      have member := List.mem_of_find?_eq_some found
      have named : held.name = name := by
        simpa using List.find?_some found
      rw [if_pos (recorded.mpr ⟨held, member, named⟩)]
      have sets : ∀ block ∈ optionBlocks requestOptions, Opens name block → ∀ parsed,
          result (applyBlock parsed block) = value held := by
        intro block inside opens parsed
        obtain ⟨head, settings, rfl, every⟩ := block_of_options inside
        have own : head.name = name := Option.some.inj opens
        have inOptions := ((mem_valued_iff head).mp (option_of_block inside List.mem_cons_self)).1
        have same := same_global once member inOptions (named ▸ global) (own.trans named.symm)
        rw [assigns parsed head settings every, if_pos own, same]
      have keeps : ∀ block ∈ optionBlocks requestOptions, ¬Opens name block → ∀ parsed,
          result parsed = value held → result (applyBlock parsed block) = value held := by
        intro block inside opens parsed same
        obtain ⟨head, settings, rfl, every⟩ := block_of_options inside
        rw [assigns parsed head settings every,
          if_neg fun own => opens (congrArg some own), same]
      exact CheckedFold.fold_reaches _ sets keeps
        (.inl ((opens_iff global).mpr ⟨held, member, named⟩))


theorem well_typed_bare_iff {option : RequestOption} (named : option.name = "noWait") :
    WellTyped option ↔ option.values = [] := by
  constructor
  · intro typed
    rcases typed with bare | held
    · exact bare.2
    · obtain ⟨value, _, known⟩ := held
      rw [named] at known
      cases known
  · intro bare
    exact .inl ⟨named, bare⟩

theorem valid_iff :
    ((∀ option ∈ requestOptions, option.name = "noWait" → option.values = []) ∧
        ∀ block ∈ optionBlocks requestOptions, ValidBlock block) ↔
      (∀ option ∈ requestOptions, WellTyped option) ∧
        (∀ option ∈ requestOptions, option.name = "order" → 0 ≤ (firstValue option).intValue) ∧
        ∀ block ∈ optionBlocks requestOptions, WholeBlock block := by
  constructor
  · intro valid
    have fits : ∀ option ∈ requestOptions, option.name ≠ "noWait" → Fits option := by
      intro option member named
      obtain ⟨block, inBlocks, inside⟩ :=
        block_of_option ((mem_valued_iff option).mpr ⟨member, named⟩)
      exact (valid.2 block inBlocks).1 option inside
    refine ⟨?_, ?_, fun block member => (valid.2 block member).2⟩
    · intro option member
      by_cases named : option.name = "noWait"
      · exact (well_typed_bare_iff named).mpr (valid.1 option member named)
      · exact (fits option member named).1
    · intro option member order
      exact (fits option member (by rw [order]; decide)).2 order
  · intro grammar
    obtain ⟨typed, nonNegative, whole⟩ := grammar
    constructor
    · intro option member named
      exact (well_typed_bare_iff named).mp (typed option member)
    · intro block member
      refine ⟨?_, whole block member⟩
      intro option inside
      have given := ((mem_valued_iff option).mp (option_of_block member inside)).1
      exact ⟨typed option given, nonNegative option given⟩

theorem valued_globals :
    ((valued requestOptions).map RequestOption.name).filter (· ∈ optionalGlobalOptions) =
      (requestOptions.map RequestOption.name).filter (· ∈ optionalGlobalOptions) := by
  induction requestOptions with
  | nil => rfl
  | cons option rest induction =>
      rw [List.map_cons, List.filter_cons, ← induction]
      by_cases named : option.name = "noWait"
      · have dropped : valued (option :: rest) = valued rest := by
          rw [valued, List.filter_cons_of_neg (by simp [named]), valued]
        rw [dropped, named]
        rfl
      · have kept : valued (option :: rest) = option :: valued rest := by
          rw [valued, List.filter_cons_of_pos (by simp [named]), valued]
        rw [kept, List.map_cons, List.filter_cons]

theorem keys_nodup_iff :
    ((optionBlocks requestOptions).flatMap blockKeys).Nodup ↔
      ((requestOptions.map RequestOption.name).filter (· ∈ optionalGlobalOptions)).Nodup ∧
        ((derivativeCases requestOptions).map Prod.fst).Nodup := by
  have lefts : ∀ block, (blockKeys block).filterMap Sum.getLeft? =
      (block.map RequestOption.name).filter (· ∈ optionalGlobalOptions) := by
    intro block
    simp [blockKeys, List.filterMap_append, List.filterMap_map, Function.comp_def]
  have rights : ∀ block, (blockKeys block).filterMap Sum.getRight? =
      (blockCases block).map Prod.fst := by
    intro block
    simp [blockKeys, List.filterMap_append, List.filterMap_map, Function.comp_def]
  have flat : (optionBlocks requestOptions).flatten = valued requestOptions :=
    Blocks.flatten_blocks isSetting _
  rw [CheckedFold.nodup_sum_iff, List.filterMap_flatMap, List.filterMap_flatMap,
    ← valued_globals, ← flat, derivativeCases, List.map_flatMap]
  simp only [lefts, rights]
  rw [List.map_flatten, List.filter_flatten, List.map_map]
  rfl

/-- The defaults of the global options that were not read. -/
def conclude (closed : Parsed) : UdfOptions :=
  let unit := if "unit" ∈ closed.parsedGlobalOptions then closed.options.unitTimeSegment
    else 1000000000
  { options := { closed.options with
      unitTimeSegment := unit
      derivativeNeighbourhood := if "neighbourhood" ∈ closed.parsedGlobalOptions then
        closed.options.derivativeNeighbourhood else unit }
    emitTimeout := if "emitTimeout" ∈ closed.parsedGlobalOptions then closed.emitTimeout else 10 }

theorem parse_ok_iff (result : UdfOptions) :
    parseDerivativeOptions requestOptions = .ok result ↔
      ∃ closed, Blocks.finish parseOption closeCase {} requestOptions = .ok closed ∧
        closed.options.derivativeCases ≠ [] ∧ result = conclude closed := by
  unfold parseDerivativeOptions Blocks.finish
  cases requestOptions.foldlM parseOption {} with
  | error message =>
      constructor
      · intro failed
        cases failed
      · intro finished
        obtain ⟨closed, failed, _⟩ := finished
        cases failed
  | ok parsed =>
      change (closeCase parsed >>= _) = _ ↔ ∃ closed, closeCase parsed = .ok closed ∧ _
      cases closeCase parsed with
      | error message =>
          constructor
          · intro failed
            cases failed
          · intro finished
            obtain ⟨closed, failed, _⟩ := finished
            cases failed
      | ok closed =>
          simp only [Except.ok.injEq, exists_eq_left']
          change (if closed.options.derivativeCases = [] then _ else _) = _ ↔ _
          split
          · next none =>
              simp [none]
          · next some =>
              rw [and_iff_right some, eq_comm]
              exact ⟨Except.ok.inj, congrArg _⟩

theorem fold_no_wait :
    ((optionBlocks requestOptions).foldl applyBlock {}).options.noWaitFuture = false := by
  have keeps : ∀ block ∈ optionBlocks requestOptions, ¬False → ∀ parsed : Parsed,
      parsed.options.noWaitFuture = false →
      (applyBlock parsed block).options.noWaitFuture = false := by
    intro block member _ parsed unmarked
    obtain ⟨head, settings, rfl, every⟩ := block_of_options member
    rw [(globals_of_block every).2.2.2.1, unmarked]
  exact CheckedFold.fold_reaches {} (fun _ _ never => never.elim) keeps (.inr rfl)

theorem derivative_cases_read (whole : ∀ block ∈ optionBlocks requestOptions, WholeBlock block) :
    ((optionBlocks requestOptions).foldl applyBlock {}).options.derivativeCases =
      derivativeCases requestOptions := by
  have start : Between {} := ⟨rfl, fun name member => (List.not_mem_nil member).elim⟩
  exact fold_cases (fun block => @block_of_options requestOptions block) whole start

/-- The conclusion from the blocks is what the list means. -/
theorem conclude_eq (grammar : Grammar requestOptions) (closed : Parsed)
    (marked : closed = if requestOptions.any fun option => option.name = "noWait" then
        markNoWait ((optionBlocks requestOptions).foldl applyBlock {})
      else (optionBlocks requestOptions).foldl applyBlock {}) :
    conclude closed = meaning requestOptions := by
  have unit := global_result (by decide) grammar.globalsOnce
    (fun parsed => parsed.options.unitTimeSegment) _
    (fun _ _ _ every => (globals_of_block every).1) 1000000000
  have neighbourhood := fun default => global_result (by decide) grammar.globalsOnce
    (fun parsed => parsed.options.derivativeNeighbourhood) _
    (fun _ _ _ every => (globals_of_block every).2.1) default
  have emitTimeout := global_result (by decide) grammar.globalsOnce
    (fun parsed => parsed.emitTimeout) _
    (fun _ _ _ every => (globals_of_block every).2.2.1) 10
  have cases_ := derivative_cases_read grammar.whole
  dsimp only at unit neighbourhood emitTimeout
  rw [marked]
  unfold meaning durationOf
  cases waits : requestOptions.any fun option => option.name = "noWait" with
  | true =>
      rw [if_pos rfl]
      unfold conclude markNoWait
      dsimp only
      rw [unit, neighbourhood, emitTimeout, cases_, Option.map_map]
      rfl
  | false =>
      rw [if_neg Bool.false_ne_true]
      unfold conclude
      dsimp only
      rw [unit, neighbourhood, emitTimeout, cases_, Option.map_map, fold_no_wait]
      rfl

theorem marked_cases (waits : Bool) (final : Parsed) :
    (if waits then markNoWait final else final).options.derivativeCases =
      final.options.derivativeCases := by
  cases waits <;> rfl

/-- The parse returns exactly for the lists of the grammar, and gives what their blocks say. -/
theorem parses_grammar_iff (requestOptions : List RequestOption) (result : UdfOptions) :
    parseDerivativeOptions requestOptions = .ok result ↔
      Grammar requestOptions ∧ result = meaning requestOptions := by
  rw [parse_ok_iff]
  constructor
  · intro parsed
    obtain ⟨closed, finished, some, rfl⟩ := parsed
    obtain ⟨bare, final, finished, marked⟩ :=
      (finish_ok_iff requestOptions List.not_mem_nil).mp finished
    obtain ⟨⟨valid, distinct⟩, rfl⟩ := (finish_valued_ok_iff final).mp finished
    obtain ⟨typed, nonNegative, whole⟩ := valid_iff.mp ⟨bare, valid⟩
    obtain ⟨globalsOnce, casesOnce⟩ := keys_nodup_iff.mp distinct
    rw [marked, marked_cases, derivative_cases_read whole] at some
    have grammar : Grammar requestOptions :=
      ⟨typed, globalsOnce, whole, nonNegative, casesOnce, some⟩
    exact ⟨grammar, conclude_eq grammar closed marked⟩
  · intro accepted
    obtain ⟨grammar, rfl⟩ := accepted
    obtain ⟨bare, valid⟩ := valid_iff.mpr ⟨grammar.wellTyped, grammar.nonNegative, grammar.whole⟩
    have distinct := keys_nodup_iff.mpr ⟨grammar.globalsOnce, grammar.distinct⟩
    have finished := (finish_ok_iff requestOptions List.not_mem_nil).mpr
      ⟨bare, _, (finish_valued_ok_iff _).mpr ⟨⟨valid, distinct⟩, rfl⟩, rfl⟩
    refine ⟨_, finished, ?_, (conclude_eq grammar _ rfl).symm⟩
    rw [marked_cases, derivative_cases_read grammar.whole]
    exact grammar.someCase

end Result

end StreamDataProcessor.Kapacitor.DerivativeGrammar
