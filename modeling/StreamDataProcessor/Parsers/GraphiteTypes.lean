import StreamDataProcessor.Parsers.GraphiteMemory
import StreamDataProcessor.Foundation.DecimalNumerals
import StreamDataProcessor.Foundation.Entries

/-!
# Types of Graphite fields

A column of a field is of the type that all its values have in common: integers, decimal numbers
or texts. The parser takes the join of the types it reads values as, which is that type where it
reads every number as one.
-/

namespace StreamDataProcessor.Parsers.Graphite

open Foundation.Numerals Foundation.Binary64 Foundation.Effect Arrow Metadata Utils.StringUtils

set_option autoImplicit false

def fieldValues (metrics : List Metric) (name : String) : List String :=
  metrics.filterMap fun metric => metric.fields.lookup name

/-- A decimal integer in the range of `int64_t`. -/
def isLong (value : String) : Bool :=
  (decimalInteger value.toList).any fun integer => -2 ^ 63 ≤ integer ∧ integer < 2 ^ 63

/-- A decimal number in the range of `double`. -/
def isFinite (value : String) : Bool :=
  (decimalNumeral value.toList).any fun number => (roundMagnitude number.1 number.2).2 = false

def commonType (values : List String) : FieldType :=
  if values.all isLong = true then .int64
  else if values.all isFinite = true ∧ ∃ value ∈ values, decimalInteger value.toList = none then
    .double
  else .string

def commonCell (type : FieldType) (value : String) : Scalar :=
  match type with
  | .int64 => (decimalInteger value.toList).map Value.integer
  | .double => (decimalNumeral value.toList).map fun number =>
      .double (roundMagnitude number.1 number.2).1
  | .string => some (.string value)

section Values

theorem is_long_iff (value : String) : isLong value = true ↔
    ∃ integer, decimalInteger value.toList = some integer ∧ (clamp integer).2 = false := by
  have bounded : ∀ integer : Int,
      (clamp integer).2 = false ↔ -2 ^ 63 ≤ integer ∧ integer < 2 ^ 63 := by
    intro integer
    unfold clamp
    split_ifs <;> simp <;> omega
  simp only [isLong, Option.any_eq_true, decide_eq_true_eq, bounded]

theorem is_finite_iff (value : String) : isFinite value = true ↔
    ∃ negative magnitude, decimalNumeral value.toList = some (negative, magnitude) ∧
      (roundMagnitude negative magnitude).2 = false := by
  simp [isFinite, Option.any_eq_true]

/-- An integer in range is typed as an integer unless it is a zero that is not `0`. -/
theorem integer_of_long {value : String} (long : isLong value = true) :
    ∃ integer, decimalInteger value.toList = some integer ∧
      strtoll value.toList = ⟨integer, [], false⟩ := by
  obtain ⟨integer, denotes, inRange⟩ := (is_long_iff value).mp long
  refine ⟨integer, denotes, ?_⟩
  rw [strtoll_of_integer denotes, inRange, (clamp_in_range inRange).1]

/-- The C library reads all of a value as a number in range, and not as zero. -/
def readsNumber (value : String) : Bool :=
  (strtoll value.toList).outOfRange = false ∧ (isInteger value = true ∨
    ((strtod value.toList).outOfRange = false ∧ isDouble value = true))

theorem type_after_string_iff (raised : Bool) (value : String) :
    typeAfter raised value = .string ↔
      value ≠ "0" ∧ (raised = true ∨ readsNumber value = false) := by
  unfold typeAfter readsNumber
  by_cases zero : value = "0"
  · simp [zero]
  · rw [if_neg zero]
    cases raised with
    | true => simp [zero]
    | false =>
        cases late : (strtoll value.toList).outOfRange with
        | true => simp [zero]
        | false =>
            cases integer : isInteger value with
            | true => simp
            | false =>
                cases far : (strtod value.toList).outOfRange with
                | true => simp [zero]
                | false => cases double : isDouble value <;> simp [zero]

theorem type_after_of_integer {raised : Bool} {value : String}
    (typed : typeAfter raised value ≠ .string) :
    typeAfter raised value = .int64 ↔ value = "0" ∨ isInteger value = true := by
  unfold typeAfter at typed ⊢
  by_cases zero : value = "0"
  · simp [zero]
  · rw [if_neg zero] at typed ⊢
    by_cases late : (raised || (strtoll value.toList).outOfRange) = true
    · exact absurd (if_pos late) typed
    · rw [if_neg late] at typed ⊢
      by_cases integer : isInteger value = true
      · simp [integer]
      · rw [if_neg integer] at typed ⊢
        simp only [zero, integer, Bool.false_eq_true, or_self, iff_false]
        split <;> exact nofun

/-- The magnitude of a numeral is not zero. -/
def isNonzero (value : String) : Bool :=
  (decimalNumeral value.toList).any fun number => number.2 ≠ 0

/-- A number is read as one just when it is no zero and its integer part is in range. -/
theorem reads_number_iff {value : String} (finite : isFinite value = true) :
    readsNumber value = true ↔
      (strtoll value.toList).outOfRange = false ∧ isNonzero value = true := by
  obtain ⟨negative, magnitude, numeral, inRange⟩ := (is_finite_iff value).mp finite
  obtain ⟨_, number⟩ := decimal_numeral_iff.mp numeral
  obtain ⟨rounded, isRounded, zeroIff⟩ := @round_magnitude_of_range negative magnitude
    (magnitude_nonneg number) inRange
  have read := strtod_of_numeral numeral
  have double : isDouble value = true ↔ magnitude ≠ 0 := by
    rw [isDouble, read, decide_eq_true_eq, isRounded, ne_eq, ← zeroIff, signedDouble]
    by_cases zero : rounded = 0
    · cases negative <;> simp [zero, isZero]
    · cases negative <;> simp [zero, isZero]
  have nonzero : isNonzero value = true ↔ magnitude ≠ 0 := by
    rw [isNonzero, numeral, Option.any_some, decide_eq_true_eq]
  have integer : isInteger value = true → (strtoll value.toList).outOfRange = false →
      magnitude ≠ 0 := by
    intro isInteger inRangeLong
    obtain ⟨nonzeroLong, whole⟩ := of_decide_eq_true isInteger
    obtain ⟨_, denotes⟩ := integer_of_strtoll numeral whole nonzeroLong
    rw [numeral_of_integer denotes, Option.some.injEq, Prod.mk.injEq] at numeral
    obtain ⟨_, _, bounds⟩ := digits_of_strtoll whole nonzeroLong
    rw [no_space_before (numeral_of_integer denotes)] at bounds
    have positive := (bounds inRangeLong).1
    rw [← numeral.2]
    exact_mod_cast positive.ne'
  rw [readsNumber, decide_eq_true_eq, nonzero, double, read, inRange]
  apply and_congr_right
  intro inRangeLong
  constructor
  · rintro (isInteger | ⟨_, other⟩)
    · exact integer isInteger inRangeLong
    · exact other
  · exact fun other => .inr ⟨rfl, other⟩

theorem finite_of_long {value : String} (long : isLong value = true) : isFinite value = true := by
  obtain ⟨integer, denotes, inRange⟩ := (is_long_iff value).mp long
  refine (is_finite_iff value).mpr ⟨_, _, numeral_of_integer denotes, ?_⟩
  by_cases zero : digitsValue 10 (splitSign value.toList).2 = 0
  · rw [zero, Nat.cast_zero]
    cases (splitSign value.toList).1 <;> decide +kernel
  · obtain ⟨_, low, high⟩ := clamp_in_range inRange
    have same := (decimal_integer_iff.mp denotes).2
    apply round_in_range
    · exact_mod_cast Nat.pos_of_ne_zero zero
    · have bounded : digitsValue 10 (splitSign value.toList).2 ≤ 2 ^ 63 := by
        rw [← same] at low high
        cases (splitSign value.toList).1 with
        | true =>
            simp only [signed] at low high
            omega
        | false =>
            simp only [signed] at low high
            omega
      exact_mod_cast bounded

theorem long_typed {raised : Bool} {value : String} (long : isLong value = true)
    (readable : typeAfter raised value ≠ .string) : typeAfter raised value = .int64 := by
  rw [type_after_of_integer readable]
  by_cases zero : value = "0"
  · exact .inl zero
  · have reads : readsNumber value = true := by
      rw [ne_eq, type_after_string_iff, not_and, not_or, Bool.not_eq_false] at readable
      exact (readable zero).2
    obtain ⟨_, nonzero⟩ := (reads_number_iff (finite_of_long long)).mp reads
    obtain ⟨integer, denotes, read⟩ := integer_of_long long
    rw [isNonzero, numeral_of_integer denotes, Option.any_some, decide_eq_true_eq] at nonzero
    have same := (decimal_integer_iff.mp denotes).2
    right
    rw [isInteger, read, decide_eq_true_eq]
    refine ⟨?_, rfl⟩
    rintro rfl
    apply nonzero
    dsimp only
    unfold signed at same
    split at same
    · exact_mod_cast neg_eq_zero.mp same
    · exact_mod_cast same

theorem other_typed {raised : Bool} {value : String} (finite : isFinite value = true)
    (other : decimalInteger value.toList = none) : typeAfter raised value ≠ .int64 := by
  intro typed
  have readable : typeAfter raised value ≠ .string := by
    rw [typed]
    exact nofun
  rcases (type_after_of_integer readable).mp typed with rfl | integer
  · revert other
    decide
  · obtain ⟨nonzero, whole⟩ := of_decide_eq_true integer
    obtain ⟨negative, magnitude, numeral, _⟩ := (is_finite_iff value).mp finite
    obtain ⟨_, denotes⟩ := integer_of_strtoll numeral whole nonzero
    rw [denotes] at other
    cases other

theorem finite_of_common {values : List String} (other : commonType values ≠ .string) :
    ∀ value ∈ values, isFinite value = true := by
  unfold commonType at other
  split at other
  · next long => exact fun value listed => finite_of_long (List.all_eq_true.mp long value listed)
  · split at other
    · next both => exact List.all_eq_true.mp both.1
    · exact absurd rfl other

theorem common_integer_iff {values : List String} (other : commonType values ≠ .string)
    {typedAt : String → Bool → Prop}
    (occurs : ∀ value ∈ values, ∃ raised, typedAt value raised)
    (within : ∀ value raised, typedAt value raised → value ∈ values)
    (readable : ∀ value raised, typedAt value raised → typeAfter raised value ≠ .string) :
    commonType values = .int64 ↔
      ∀ value raised, typedAt value raised → typeAfter raised value = .int64 := by
  constructor
  · intro common value raised typed
    apply long_typed _ (readable value raised typed)
    unfold commonType at common
    split at common
    · next long => exact List.all_eq_true.mp long value (within value raised typed)
    · split at common <;> cases common
  · intro integers
    by_contra notInteger
    have finite := finite_of_common other
    unfold commonType at other notInteger
    split at other
    · next long => exact notInteger (if_pos long)
    · split at other
      · next both =>
        obtain ⟨_, value, listed, none⟩ := both
        obtain ⟨raised, typed⟩ := occurs value listed
        exact other_typed (finite value listed) none (integers value raised typed)
      · exact other rfl

end Values

section Typing

def typeEach : Bool → List (String × String) → List (String × FieldType)
  | _, [] => []
  | raised, (name, value) :: rest =>
      (name, typeAfter raised value) :: typeEach (raised || unreadable value) rest

theorem type_fields_eq (raised : Bool) (before : FieldsTypes) (fields : List (String × String)) :
    typeFields raised before fields = (typeEach raised fields).foldl
      (fun fieldsTypes field => addFieldType fieldsTypes field.1 field.2) before := by
  induction fields generalizing raised before with
  | nil => rfl
  | cons field rest induction => rw [typeFields, induction, typeEach, List.foldl_cons]

theorem any_field_cons (field : String × String) (rest : List (String × String)) :
    anyField (field :: rest) = (unreadable field.2 || anyField rest) := List.any_cons

theorem mem_type_each (raised : Bool) (fields : List (String × String)) (name : String)
    (type : FieldType) :
    (name, type) ∈ typeEach raised fields ↔ ∃ earlier value later,
      fields = earlier ++ (name, value) :: later ∧
        type = typeAfter (raised || anyField earlier) value := by
  induction fields generalizing raised with
  | nil => simp [typeEach]
  | cons field rest induction =>
      rw [typeEach, List.mem_cons, induction]
      constructor
      · rintro (same | ⟨earlier, value, later, rfl, rfl⟩)
        · cases same
          exact ⟨[], field.2, rest, rfl, by rw [anyField, List.any_nil, Bool.or_false]⟩
        · refine ⟨field :: earlier, value, later, rfl, ?_⟩
          rw [any_field_cons, ← Bool.or_assoc]
      · rintro ⟨earlier, value, later, whole, rfl⟩
        cases earlier with
        | nil =>
            cases whole
            rw [anyField, List.any_nil, Bool.or_false]
            exact .inl rfl
        | cons first earlier =>
            cases whole
            refine .inr ⟨earlier, value, later, rfl, ?_⟩
            rw [any_field_cons, ← Bool.or_assoc]

theorem add_field_type_string (fieldsTypes : FieldsTypes) (added : String) (type : FieldType)
    (name : String) :
    (addFieldType fieldsTypes added type)[name]? = some .string ↔
      fieldsTypes[name]? = some .string ∨ (added, type) = (name, .string) := by
  unfold addFieldType
  by_cases same : added = name
  · subst same
    cases held : fieldsTypes[added]? with
    | none => simp
    | some heldType =>
        cases heldType <;> cases type <;> simp [held]
  · have other : ∀ type, (fieldsTypes.insert added type)[name]? = fieldsTypes[name]? := by
      intro type
      rw [Std.ExtTreeMap.getElem?_insert, if_neg]
      rwa [Std.LawfulEqCmp.compare_eq_iff_eq]
    split
    · simp [other, same]
    · split <;> simp [other, same]

theorem add_field_type_integer (fieldsTypes : FieldsTypes) (added : String) (type : FieldType)
    (name : String) :
    (addFieldType fieldsTypes added type)[name]? = some .int64 ↔
      (fieldsTypes[name]? = some .int64 ∧ (added = name → type = .int64)) ∨
        (fieldsTypes[name]? = none ∧ (added, type) = (name, .int64)) := by
  unfold addFieldType
  by_cases same : added = name
  · subst same
    cases held : fieldsTypes[added]? with
    | none => simp
    | some heldType =>
        cases heldType <;> cases type <;> simp [held]
  · have other : ∀ type, (fieldsTypes.insert added type)[name]? = fieldsTypes[name]? := by
      intro type
      rw [Std.ExtTreeMap.getElem?_insert, if_neg]
      rwa [Std.LawfulEqCmp.compare_eq_iff_eq]
    split
    · simp [other, same]
    · split <;> simp [other, same]

variable {raised : Bool} {fields : List (String × String)} {name : String}

theorem type_fields_string :
    (typeFields raised ∅ fields)[name]? = some .string ↔
      (name, .string) ∈ typeEach raised fields := by
  have each : ∀ (types : List (String × FieldType)) (before : FieldsTypes),
      (types.foldl (fun fieldsTypes field => addFieldType fieldsTypes field.1 field.2)
        before)[name]? = some .string ↔
          before[name]? = some .string ∨ (name, .string) ∈ types := by
    intro types
    induction types with
    | nil => simp
    | cons field rest induction =>
        intro before
        rw [List.foldl_cons, induction, add_field_type_string, List.mem_cons, or_assoc,
          eq_comm (a := (name, FieldType.string))]
  rw [type_fields_eq, each]
  simp

theorem type_fields_integer (present : name ∈ typeFields raised ∅ fields) :
    (typeFields raised ∅ fields)[name]? = some .int64 ↔
      ∀ type, (name, type) ∈ typeEach raised fields → type = .int64 := by
  have each : ∀ (types : List (String × FieldType)) (before : FieldsTypes),
      (types.foldl (fun fieldsTypes field => addFieldType fieldsTypes field.1 field.2)
        before)[name]? = some .int64 ↔
          (before[name]? = some .int64 ∧ ∀ type, (name, type) ∈ types → type = .int64) ∨
          (before[name]? = none ∧ name ∈ types.map Prod.fst ∧
            ∀ type, (name, type) ∈ types → type = .int64) := by
    intro types
    induction types with
    | nil => simp
    | cons field rest induction =>
        intro before
        have none : (addFieldType before field.1 field.2)[name]? = none ↔
            before[name]? = none ∧ field.1 ≠ name := by
          have absent : ∀ types : FieldsTypes, types[name]? = none ↔ name ∉ types := by
            intro types
            rw [Std.ExtTreeMap.mem_iff_isSome_getElem?, Bool.not_eq_true,
              Option.isSome_eq_false_iff, Option.isNone_iff_eq_none]
          rw [absent, absent, mem_add_field_type, not_or, ne_eq, eq_comm (a := name)]
        rw [List.foldl_cons, induction, add_field_type_integer, none]
        obtain ⟨added, type⟩ := field
        by_cases same : added = name
        · subst same
          simp only [List.map_cons, List.mem_cons, Prod.mk.injEq, true_and, true_implies,
            true_or, ne_eq, not_true_eq_false, and_false, false_and, or_false, forall_eq_or_imp]
          tauto
        · have other : name ≠ added := fun equal => same equal.symm
          simp only [List.map_cons, List.mem_cons, Prod.mk.injEq, same, other, false_and,
            false_implies, and_true, and_false, or_false, ne_eq, not_false_eq_true, false_or]
  have mem : name ∈ (typeEach raised fields).map Prod.fst := by
    have names : ∀ (raised : Bool) (fields : List (String × String)),
        (typeEach raised fields).map Prod.fst = fields.map Prod.fst := by
      intro raised fields
      induction fields generalizing raised with
      | nil => rfl
      | cons field rest induction => rw [typeEach, List.map_cons, induction, List.map_cons]
    rw [names]
    have either := (mem_type_fields raised ∅ fields name).mp present
    simpa using either
  rw [type_fields_eq, each]
  simp [mem]

end Typing

section Names

theorem add_field_names {fields : List (String × String)} {field : String × String}
    (distinct : (fields.map Prod.fst).Nodup) : ((addField fields field).map Prod.fst).Nodup := by
  unfold addField
  split
  · exact distinct
  · next absent =>
    rw [List.map_append, List.nodup_append]
    refine ⟨distinct, List.nodup_singleton _, ?_⟩
    intro name listed own isOwn same
    cases List.mem_singleton.mp isOwn
    exact absent (same ▸ listed)

theorem merge_names {held metric : Metric} (distinct : (held.fields.map Prod.fst).Nodup) :
    ((held.mergeWith metric).fields.map Prod.fst).Nodup := by
  have each : ∀ (added fields : List (String × String)), (fields.map Prod.fst).Nodup →
      ((added.foldl addField fields).map Prod.fst).Nodup := by
    intro added
    induction added with
    | nil => exact fun _ distinct => distinct
    | cons field rest induction =>
        intro fields distinct
        exact induction _ (add_field_names distinct)
  unfold Metric.mergeWith
  split
  · exact distinct
  · exact each metric.fields held.fields distinct

theorem insert_names {metric : Metric} {metrics : List Metric}
    (own : (metric.fields.map Prod.fst).Nodup)
    (distinct : ∀ held ∈ metrics, (held.fields.map Prod.fst).Nodup) :
    ∀ held ∈ insertMetric metric metrics, (held.fields.map Prod.fst).Nodup := by
  induction metrics with
  | nil =>
      intro held listed
      cases List.mem_singleton.mp listed
      exact own
  | cons first rest induction =>
      rw [List.forall_mem_cons] at distinct
      rw [insertMetric]
      split
      · exact List.forall_mem_cons.mpr ⟨distinct.1, induction distinct.2⟩
      · split
        · exact List.forall_mem_cons.mpr ⟨own, List.forall_mem_cons.mpr distinct⟩
        · exact List.forall_mem_cons.mpr ⟨merge_names distinct.1, distinct.2⟩

theorem metrics_names {parser : GraphiteParser} (buffer : String) :
    ∀ metric ∈ metricsOf parser buffer, (metric.fields.map Prod.fst).Nodup := by
  have each : ∀ (lines : List String) (metrics : List Metric),
      (∀ metric ∈ metrics, (metric.fields.map Prod.fst).Nodup) →
        ∀ metric ∈ lines.foldl (insertLine parser) metrics,
          (metric.fields.map Prod.fst).Nodup := by
    intro lines
    induction lines with
    | nil => exact fun _ distinct => distinct
    | cons line rest induction =>
        intro metrics distinct
        apply induction
        unfold insertLine
        cases found : lineMetric parser line with
        | none => exact distinct
        | some metric =>
            apply insert_names _ distinct
            obtain ⟨metricTemplate, _, rfl⟩ := Option.map_eq_some_iff.mp found
            exact List.nodup_singleton _
  apply each
  simp

end Names

section Columns

variable (visitFields : List (String × String) → List (String × String)) (parser : GraphiteParser)

/-- A value of a field is typed, after a conversion out of range of a timestamp or of a value that
is typed earlier, or else without one. -/
def TypedAt (buffer name value : String) (raised : Bool) : Prop :=
  ∃ earlier later,
    typedFields visitFields (metricsOf parser buffer) = earlier ++ (name, value) :: later ∧
      raised = (anyLate parser buffer || anyField earlier)

/-- A column of numbers has none that is a zero other than `0`, or that has an integer part out of
range or is typed after a conversion out of range, and a column of strings has a value that is not
read as a number. -/
structure ColumnTells (buffer name : String) : Prop where
  numbers : commonType (fieldValues (metricsOf parser buffer) name) ≠ .string →
    ∀ value raised, TypedAt visitFields parser buffer name value raised →
      value = "0" ∨ (raised = false ∧ (strtoll value.toList).outOfRange = false ∧
        isNonzero value = true)
  texts : commonType (fieldValues (metricsOf parser buffer) name) = .string →
    ∃ value raised, TypedAt visitFields parser buffer name value raised ∧ value ≠ "0" ∧
      (raised = true ∨ readsNumber value = false)

/-- The row of a metric, with each of its fields as a value of the field's common type. -/
def commonRow (now : Int) (tags names : List String) (metrics : List Metric) (metric : Metric) :
    Row :=
  some (.integer (if metric.timestamp ≠ -1 then metric.timestamp else now)) ::
    some (.string metric.measurementName) ::
    (tags.map fun name => (metric.tags[name]?).map Value.string) ++
    names.map fun name =>
      (metric.fields.lookup name).bind (commonCell (commonType (fieldValues metrics name)))

/-- A batch of the metrics in which each field has a column of its common type. -/
structure TypedColumns (now : Int) (metrics : List Metric) (recordBatch : RecordBatch)
    (tags names : List String) : Prop where
  distinct : names.Nodup
  valued : ∀ name, name ∈ names ↔ ∃ metric ∈ metrics, name ∈ metric.fields.map Prod.fst
  fieldNames : recordBatch.schema.fieldNames =
    parser.timeColumnName :: parser.measurementColumnName :: (tags ++ names)
  types : recordBatch.schema.types = .timestamp .second :: .utf8 ::
    ((tags.map fun _ => DataType.utf8) ++
      names.map fun name => (commonType (fieldValues metrics name)).arrowType)
  rows : recordBatch.rows = metrics.map (commonRow now tags names metrics)

variable {visitFields parser}

theorem mem_field_values (visits : ∀ fields, (visitFields fields).Perm fields) (buffer : String)
    (name value : String) :
    value ∈ fieldValues (metricsOf parser buffer) name ↔
      (name, value) ∈ typedFields visitFields (metricsOf parser buffer) := by
  rw [fieldValues, List.mem_filterMap, mem_typed_fields visits]
  apply exists_congr
  intro metric
  apply and_congr_right
  intro listed
  exact Foundation.Entries.lookup_iff_mem (metrics_names buffer metric listed)

theorem typed_at_listed (visits : ∀ fields, (visitFields fields).Perm fields)
    {buffer name value : String} {raised : Bool}
    (typed : TypedAt visitFields parser buffer name value raised) :
    value ∈ fieldValues (metricsOf parser buffer) name := by
  obtain ⟨earlier, later, whole, _⟩ := typed
  rw [mem_field_values visits, whole]
  exact List.mem_append_right _ List.mem_cons_self

theorem listed_typed_at (visits : ∀ fields, (visitFields fields).Perm fields)
    {buffer name value : String} (listed : value ∈ fieldValues (metricsOf parser buffer) name) :
    ∃ raised, TypedAt visitFields parser buffer name value raised := by
  rw [mem_field_values visits] at listed
  obtain ⟨earlier, later, whole⟩ := List.append_of_mem listed
  exact ⟨_, earlier, later, whole, rfl⟩

theorem typed_each_iff {buffer name : String} {type : FieldType} :
    (name, type) ∈ typeEach (anyLate parser buffer)
        (typedFields visitFields (metricsOf parser buffer)) ↔
      ∃ value raised, TypedAt visitFields parser buffer name value raised ∧
        type = typeAfter raised value := by
  rw [mem_type_each]
  constructor
  · rintro ⟨earlier, value, later, whole, same⟩
    exact ⟨value, _, ⟨earlier, later, whole, rfl⟩, same⟩
  · rintro ⟨value, _, ⟨earlier, later, whole, rfl⟩, same⟩
    exact ⟨earlier, value, later, whole, same⟩

theorem tells_readable_iff {raised : Bool} {value : String} (finite : isFinite value = true) :
    typeAfter raised value ≠ .string ↔
      value = "0" ∨ (raised = false ∧ (strtoll value.toList).outOfRange = false ∧
        isNonzero value = true) := by
  rw [ne_eq, type_after_string_iff, not_and_or, not_not, not_or, Bool.not_eq_true,
    Bool.not_eq_false, reads_number_iff finite]

theorem column_type_iff (visits : ∀ fields, (visitFields fields).Perm fields) {buffer : String}
    {name : String} {type : FieldType}
    (typed : (fieldsTypesOf visitFields (anyLate parser buffer) (metricsOf parser buffer))[name]? =
      some type) :
    type = commonType (fieldValues (metricsOf parser buffer) name) ↔
      ColumnTells visitFields parser buffer name := by
  have present : name ∈ typeFields (anyLate parser buffer) ∅
      (typedFields visitFields (metricsOf parser buffer)) := by
    rw [Std.ExtTreeMap.mem_iff_isSome_getElem?]
    exact Option.isSome_of_eq_some typed
  have isString := @type_fields_string (anyLate parser buffer)
    (typedFields visitFields (metricsOf parser buffer)) name
  have isInteger := type_fields_integer present
  rw [fieldsTypesOf] at typed
  rw [typed, Option.some.injEq, typed_each_iff] at isString
  rw [typed, Option.some.injEq] at isInteger
  simp only [typed_each_iff] at isInteger
  constructor
  · intro same
    constructor
    · intro other value raised typedAt
      rw [← tells_readable_iff (finite_of_common other value (typed_at_listed visits typedAt))]
      rw [← same] at other
      exact fun text => other (isString.mpr ⟨value, raised, typedAt, text.symm⟩)
    · intro text
      obtain ⟨value, raised, typedAt, isText⟩ := isString.mp (same.trans text)
      exact ⟨value, raised, typedAt, (type_after_string_iff raised value).mp isText.symm⟩
  · intro tells
    by_cases text : commonType (fieldValues (metricsOf parser buffer) name) = .string
    · obtain ⟨value, raised, typedAt, unread⟩ := tells.texts text
      rw [text, isString]
      exact ⟨value, raised, typedAt, ((type_after_string_iff raised value).mpr unread).symm⟩
    · have readable : ∀ value raised, TypedAt visitFields parser buffer name value raised →
          typeAfter raised value ≠ .string := by
        intro value raised typedAt
        rw [tells_readable_iff (finite_of_common text value (typed_at_listed visits typedAt))]
        exact tells.numbers text value raised typedAt
      have number : type ≠ .string := by
        rw [ne_eq, isString]
        rintro ⟨value, raised, typedAt, isText⟩
        exact readable value raised typedAt isText.symm
      have integers := common_integer_iff text (fun value => listed_typed_at visits)
        (fun value raised => typed_at_listed visits) readable
      have both : type = .int64 ↔
          commonType (fieldValues (metricsOf parser buffer) name) = .int64 := by
        rw [isInteger, integers]
        constructor
        · exact fun all value raised typedAt => all _ ⟨value, raised, typedAt, rfl⟩
        · rintro all _ ⟨value, raised, typedAt, rfl⟩
          exact all value raised typedAt
      revert number text both
      cases type <;> cases commonType (fieldValues (metricsOf parser buffer) name) <;> simp

theorem cell_of_common {values : List String} {value : String} (listed : value ∈ values) :
    cellOf (commonType values) value = commonCell (commonType values) value := by
  cases common : commonType values with
  | string => rfl
  | double =>
      have other : commonType values ≠ .string := by
        rw [common]
        exact nofun
      obtain ⟨negative, magnitude, numeral, _⟩ :=
        (is_finite_iff value).mp (finite_of_common other value listed)
      rw [cellOf, commonCell, strtod_of_numeral numeral, numeral]
      rfl
  | int64 =>
      have long : isLong value = true := by
        unfold commonType at common
        split at common
        · next long => exact List.all_eq_true.mp long value listed
        · split at common <;> cases common
      obtain ⟨integer, denotes, read⟩ := integer_of_long long
      rw [cellOf, commonCell, read, denotes]
      rfl

theorem map_of_keys {Result : Type} (fieldsTypes : FieldsTypes)
    (result : String × FieldType → Result) :
    fieldsTypes.toList.map result =
      fieldsTypes.keys.map fun name => result (name, fieldsTypes.getD name .string) := by
  rw [← Std.ExtTreeMap.map_fst_toList_eq_keys, List.map_map]
  apply List.map_congr_left
  intro field listed
  have typed := Std.ExtTreeMap.mem_toList_iff_getElem?_eq_some.mp listed
  rw [Function.comp_apply, Std.ExtTreeMap.getD_eq_getD_getElem?, typed, Option.getD_some]

theorem result_types_eq (tags : List String) (fieldsTypes : FieldsTypes) :
    (resultFields parser tags fieldsTypes).map Field.type = .timestamp .second :: .utf8 ::
      ((tags.map fun _ => DataType.utf8) ++
        fieldsTypes.keys.map fun name => (fieldsTypes.getD name .string).arrowType) := by
  rw [← map_of_keys fieldsTypes fun field => field.2.arrowType]
  simp only [resultFields, List.cons_append, List.map_cons, List.map_append, List.map_map]
  rfl

theorem arrow_type_injective {first second : FieldType}
    (same : first.arrowType = second.arrowType) : first = second := by
  cases first <;> cases second <;> first | rfl | cases same

theorem columns_tell_iff (visits : ∀ fields, (visitFields fields).Perm fields) (buffer : String) :
    (∀ metric ∈ metricsOf parser buffer, ∀ name ∈ metric.fields.map Prod.fst,
        ColumnTells visitFields parser buffer name) ↔
      ∀ name ∈ (fieldsTypesOf visitFields (anyLate parser buffer) (metricsOf parser buffer)).keys,
        (fieldsTypesOf visitFields (anyLate parser buffer) (metricsOf parser buffer)).getD name
          .string = commonType (fieldValues (metricsOf parser buffer) name) := by
  have valued := mem_fields_types_of visits (anyLate parser buffer) (metricsOf parser buffer)
  have each : ∀ name,
      name ∈ fieldsTypesOf visitFields (anyLate parser buffer) (metricsOf parser buffer) →
        (ColumnTells visitFields parser buffer name ↔
          (fieldsTypesOf visitFields (anyLate parser buffer) (metricsOf parser buffer)).getD name
            .string = commonType (fieldValues (metricsOf parser buffer) name)) := by
    intro name listed
    obtain ⟨type, typed⟩ :=
      Option.isSome_iff_exists.mp (Std.ExtTreeMap.mem_iff_isSome_getElem?.mp listed)
    rw [← column_type_iff visits typed, Std.ExtTreeMap.getD_eq_getD_getElem?, typed,
      Option.getD_some]
  simp only [Std.ExtTreeMap.mem_keys]
  constructor
  · intro tells name listed
    obtain ⟨metric, inMetrics, own⟩ := (valued name).mp listed
    exact (each name listed).mp (tells metric inMetrics name own)
  · intro same metric inMetrics name own
    have listed := (valued name).mpr ⟨metric, inMetrics, own⟩
    exact (each name listed).mpr (same name listed)

theorem columns_tell_of_typed (visits : ∀ fields, (visitFields fields).Perm fields) {now : Int}
    {buffer : String} {batches : List RecordBatch} {after : ParserState}
    (nonempty : split buffer "\n" ≠ [])
    (returned : parserCall visitFields parser (now, buffer) {} = .ok batches after)
    (typed : ∀ recordBatch ∈ batches, ∃ tags names,
      TypedColumns parser now (metricsOf parser buffer) recordBatch tags names) :
    ∀ metric ∈ metricsOf parser buffer, ∀ name ∈ metric.fields.map Prod.fst,
      ColumnTells visitFields parser buffer name := by
  obtain ⟨named, rfl, fieldNames, types, _⟩ := call_returns visits nonempty returned
  obtain ⟨tags, names, columns⟩ := typed named List.mem_cons_self
  rw [columns_tell_iff visits]
  have valued := mem_fields_types_of visits (anyLate parser buffer) (metricsOf parser buffer)
  rw [result_field_names] at fieldNames
  rw [result_types_eq] at types
  have sameNames : names.Perm
      (fieldsTypesOf visitFields (anyLate parser buffer) (metricsOf parser buffer)).keys := by
    apply (List.perm_ext_iff_of_nodup columns.distinct Std.ExtTreeMap.nodup_keys).mpr
    intro name
    rw [columns.valued, Std.ExtTreeMap.mem_keys, valued]
  have appended := columns.fieldNames.symm.trans fieldNames
  rw [List.cons.injEq, List.cons.injEq] at appended
  obtain ⟨rfl, rfl⟩ := List.append_inj' appended.2.2 sameNames.length_eq
  have sameTypes := columns.types.symm.trans types
  rw [List.cons.injEq, List.cons.injEq] at sameTypes
  have inColumns := List.map_inj_left.mp (List.append_cancel_left sameTypes.2.2)
  exact fun name listed => (arrow_type_injective (inColumns name listed)).symm

/-- The columns of a call are of their common types just when each tells numbers and strings
apart. -/
theorem columns_typed_iff (visits : ∀ fields, (visitFields fields).Perm fields) {now : Int}
    {buffer : String} {batches : List RecordBatch} {after : ParserState}
    (returned : parserCall visitFields parser (now, buffer) {} = .ok batches after) :
    (∀ recordBatch ∈ batches, ∃ tags names,
        TypedColumns parser now (metricsOf parser buffer) recordBatch tags names) ↔
      ∀ metric ∈ metricsOf parser buffer, ∀ name ∈ metric.fields.map Prod.fst,
        ColumnTells visitFields parser buffer name := by
  by_cases empty : split buffer "\n" = []
  · have none : metricsOf parser buffer = [] := by rw [metricsOf, empty, List.foldl_nil]
    have unchanged : parserCall visitFields parser (now, buffer) {} = .ok [] {} := by
      rw [parserCall, parseRecordBatches, if_pos empty]
      rfl
    rw [unchanged] at returned
    cases returned
    simp [none]
  constructor
  · exact columns_tell_of_typed visits empty returned
  · intro tells
    obtain ⟨named, rfl, fieldNames, types, rows⟩ := call_returns visits empty returned
    have same := (columns_tell_iff visits buffer).mp tells
    rw [result_field_names] at fieldNames
    rw [result_types_eq] at types
    rw [List.forall_mem_singleton]
    refine ⟨tagNames (metricsOf parser buffer), _, Std.ExtTreeMap.nodup_keys, ?_, fieldNames, ?_,
      ?_⟩
    · intro name
      rw [Std.ExtTreeMap.mem_keys, mem_fields_types_of visits]
    · rw [types]
      congr 3
      apply List.map_congr_left
      intro name listed
      rw [same name listed]
    · rw [rows]
      apply List.map_congr_left
      intro metric inMetrics
      rw [rowOf, commonRow, map_of_keys]
      congr 1
      apply List.map_congr_left
      intro name listed
      cases found : metric.fields.lookup name with
      | none => rfl
      | some value =>
          rw [same name listed]
          exact cell_of_common (List.mem_filterMap.mpr ⟨metric, inMetrics, found⟩)

end Columns

/-- An integer and a fraction make a column of floating-point numbers. -/
theorem numbers_are_typed :
    ∃ batches after, parserCall id measurementParser (0, "cpu 5\nmem 2.5") {} =
        .ok batches after ∧
      ∀ recordBatch ∈ batches, ∃ tags names, TypedColumns measurementParser 0
        (metricsOf measurementParser "cpu 5\nmem 2.5") recordBatch tags names := by
  obtain ⟨batches, after, returned⟩ := (call_answers_iff (fun _ => .refl _) 0 (by decide)).mpr
    (by decide +kernel : NamesApart measurementParser
      (IsColumn (metricsOf measurementParser "cpu 5\nmem 2.5")))
  refine ⟨batches, after, returned, ?_⟩
  rw [@columns_typed_iff id measurementParser (fun _ => .refl _) _ _ _ _ returned]
  have names : ∀ metric ∈ metricsOf measurementParser "cpu 5\nmem 2.5",
      ∀ name ∈ metric.fields.map Prod.fst, name = "value" := by
    decide +kernel
  have two : typedFields id (metricsOf measurementParser "cpu 5\nmem 2.5") =
      [("value", "5"), ("value", "2.5")] := by
    decide +kernel
  intro metric listed name own
  cases names metric listed name own
  constructor
  · rintro _ value raised ⟨earlier, later, whole, same⟩
    rw [two] at whole
    right
    rw [same]
    rcases earlier with _ | ⟨first, _ | ⟨second, others⟩⟩
    · simp only [List.nil_append, List.cons.injEq, Prod.mk.injEq, true_and] at whole
      rw [← whole.1]
      decide +kernel
    · simp only [List.cons_append, List.nil_append, List.cons.injEq, Prod.mk.injEq,
        true_and] at whole
      rw [← whole.1, ← whole.2.1]
      decide +kernel
    · simp at whole
  · intro text
    exact absurd text (by decide +kernel)

/-- A column of a zero with a fraction is one of strings. -/
theorem zero_with_fraction_is_string :
    ∃ batches after, parserCall id measurementParser (0, "cpu 0.0") {} = .ok batches after ∧
      ¬∀ recordBatch ∈ batches, ∃ tags names, TypedColumns measurementParser 0
        (metricsOf measurementParser "cpu 0.0") recordBatch tags names := by
  obtain ⟨batches, after, returned⟩ := (call_answers_iff (fun _ => .refl _) 0 (by decide)).mpr
    (by decide +kernel : NamesApart measurementParser
      (IsColumn (metricsOf measurementParser "cpu 0.0")))
  refine ⟨batches, after, returned, fun typed => ?_⟩
  have tells := columns_tell_of_typed (fun _ => .refl _) (by decide +kernel) returned typed
  have one : ∃ metric ∈ metricsOf measurementParser "cpu 0.0",
      "value" ∈ metric.fields.map Prod.fst := by
    decide +kernel
  obtain ⟨metric, listed, own⟩ := one
  have number := (tells metric listed "value" own).numbers (by decide +kernel) "0.0" false
    ⟨[], [], by decide +kernel, by decide +kernel⟩
  revert number
  decide +kernel

end StreamDataProcessor.Parsers.Graphite
