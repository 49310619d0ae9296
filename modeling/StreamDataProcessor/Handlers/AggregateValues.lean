import StreamDataProcessor.Handlers.AggregateShape
import StreamDataProcessor.Utils.ArgExtremes
import StreamDataProcessor.Utils.GroupSorting

/-!
# The values of aggregate functions

What each function should give for a column of a batch, over the values that are not null, and
when the scalar that is appended for it is that value.
-/

namespace StreamDataProcessor.Handlers.Aggregate

open Foundation Foundation.Effect Foundation.Binary64 Arrow Metadata Utils

set_option autoImplicit false

def valueLe : Value → Value → Prop
  | .integer left, .integer right => left ≤ right
  | .double left, .double right => doubleLe left right = true
  | .string left, .string right => left ≤ right
  | .boolean left, .boolean right => left ≤ right
  | _, _ => False

/-- A value is a least one beside another; NaN is least beside NaN only. -/
def NotAbove (value other : Value) : Prop :=
  other = .double .nan ∨ value ≠ .double .nan ∧ valueLe value other

def NotBelow (value other : Value) : Prop :=
  other = .double .nan ∨ value ≠ .double .nan ∧ valueLe other value

def number : Value → Option Double
  | .integer value => some (.finite value)
  | .double value => some value
  | .boolean value => some (.finite (if value then 1 else 0))
  | .string _ => none

def numbers (cells : List Scalar) : List Double := cells.filterMap fun cell => cell.bind number

/-- The sum of the values that are not null, divided by their number. -/
def meanOf (cells : List Scalar) : Option Double :=
  if numbers cells = [] then none
  else some (doubleDivide ((numbers cells).foldl doubleAdd (.finite 0)) (numbers cells).length)

def isInteger : DataType → Bool
  | .int8 | .int16 | .int32 | .int64 | .uint8 | .uint16 | .uint32 | .uint64 => true
  | _ => false

/-- At a row, no other one of the batch has a time beyond its own. -/
def AtExtreme (beyond : Int → Int → Prop) (batch : RecordBatch) (row : Nat) : Prop :=
  ∃ times, HasTimes batch times ∧ HoldsExtreme beyond times.cells row

/-- The cell of a type is that at a row of extreme time, and null where there is no such row. -/
def ReadsAt (beyond : Int → Int → Prop) (batch : RecordBatch) (column : Column) (type : DataType)
    (cell : Scalar) : Prop :=
  (∃ row, AtExtreme beyond batch row ∧ column.cells[row]? = some cell ∧
    (cell ≠ none → type = column.type)) ∨
  (∀ row, ¬AtExtreme beyond batch row) ∧ cell = none

/-- The cell of a type is an extreme value of the column, and null where it has no values. -/
def ReadsExtreme (beyond : Value → Value → Prop) (column : Column) (type : DataType)
    (cell : Scalar) : Prop :=
  (∃ value, cell = some value ∧ type = column.type ∧ some value ∈ column.cells ∧
    ∀ other, some other ∈ column.cells → beyond value other) ∨
  (∀ value, some value ∉ column.cells) ∧ cell = none

/-- The cell of a type is the mean of the column, rounded under a type of integers, and null
where the column has no values. -/
def ReadsMean (column : Column) (type : DataType) (cell : Scalar) : Prop :=
  (∃ mean, meanOf column.cells = some mean ∧
    (type = .double ∧ cell = some (.double mean) ∨
      isInteger type = true ∧ ∃ rounded : Int, cell = some (.integer rounded) ∧
        |(rounded : ℚ) - mean.toRat| < 1)) ∨
  (∀ value, some value ∉ column.cells) ∧ cell = none

/-- The value of a function over a batch, null where the batch lacks the column. -/
def Computes (aggregateFunction : AggregateFunctionEnumType) (batch : RecordBatch)
    (columnName : String) (type : DataType) (cell : Scalar) : Prop :=
  match batch.getColumnByName columnName with
  | none => cell = none
  | some column =>
      match aggregateFunction with
      | .first => ReadsAt (· ≤ ·) batch column type cell
      | .last => ReadsAt (· ≥ ·) batch column type cell
      | .max => ReadsExtreme NotBelow column type cell
      | .min => ReadsExtreme NotAbove column type cell
      | .mean => ReadsMean column type cell

section Folds

/-- A value that stands beside another in a fold that skips NaN. -/
def Beside (beyond : Double → Double → Prop) (held value : Double) : Prop :=
  held ≠ .nan ∧ (value = .nan ∨ beyond held value)

structure Picks (beyond : Double → Double → Prop) (held value picked : Double) : Prop where
  besideHeld : Beside beyond picked held
  besideValue : Beside beyond picked value
  own : picked = held ∨ picked = value

theorem fold_picks {beyond : Double → Double → Prop} {pick : Double → Double → Double}
    (transitive : ∀ first second third, first ≠ .nan → second ≠ .nan → third ≠ .nan →
      beyond first second → beyond second third → beyond first third)
    (reflexive : ∀ value, value ≠ .nan → beyond value value)
    (picks : ∀ held value, held ≠ .nan → Picks beyond held value (pick held value))
    (values : List Double) {held : Double} (isNumber : held ≠ .nan) :
    Beside beyond (values.foldl pick held) held ∧
      (∀ value ∈ values, Beside beyond (values.foldl pick held) value) ∧
      (values.foldl pick held = held ∨ values.foldl pick held ∈ values) := by
  induction values generalizing held with
  | nil =>
      exact ⟨⟨isNumber, .inr (reflexive held isNumber)⟩, fun _ member => (by cases member),
        .inl rfl⟩
  | cons value rest induction =>
      obtain ⟨besideHeld, besideValue, own⟩ := picks held value isNumber
      obtain ⟨fold, others, final⟩ := induction besideHeld.1
      rw [List.foldl_cons]
      have through : ∀ other, Beside beyond (pick held value) other →
          Beside beyond (rest.foldl pick (pick held value)) other := by
        intro other beside
        refine ⟨fold.1, ?_⟩
        rcases beside.2 with skipped | after
        · exact .inl skipped
        · rcases fold.2 with isNan | before
          · exact absurd isNan beside.1
          · by_cases skipped : other = .nan
            · exact .inl skipped
            · exact .inr (transitive _ _ _ fold.1 beside.1 skipped before after)
      refine ⟨through held besideHeld, ?_, ?_⟩
      · intro other member
        rcases List.mem_cons.mp member with rfl | inRest
        · exact through other besideValue
        · exact others other inRest
      · rcases final with isPick | inRest
        · rw [isPick]
          rcases own with isHeld | isValue
          · exact .inl isHeld
          · exact .inr (by rw [isValue]; exact List.mem_cons_self)
        · exact .inr (List.mem_cons_of_mem _ inRest)

theorem double_le_trans (first second third : Double) (firstNumber : first ≠ .nan)
    (secondNumber : second ≠ .nan) (thirdNumber : third ≠ .nan)
    (lower : doubleLe first second = true) (upper : doubleLe second third = true) :
    doubleLe first third = true := by
  rw [double_le_iff firstNumber secondNumber] at lower
  rw [double_le_iff secondNumber thirdNumber] at upper
  exact (double_le_iff firstNumber thirdNumber).mpr (lower.trans upper)

theorem double_le_refl (value : Double) (isNumber : value ≠ .nan) : doubleLe value value = true :=
  (double_le_iff isNumber isNumber).mpr (le_refl _)

theorem double_le_of_not {left right : Double} (leftNumber : left ≠ .nan)
    (rightNumber : right ≠ .nan) (above : ¬doubleLe left right = true) :
    doubleLe right left = true := by
  rw [double_le_iff leftNumber rightNumber] at above
  exact (double_le_iff rightNumber leftNumber).mpr (not_le.mp above).le

theorem min_picks (held value : Double) (isNumber : held ≠ .nan) :
    Picks (fun left right => doubleLe left right = true) held value (doubleMin held value) := by
  have own := double_le_refl held isNumber
  rw [doubleMin, if_neg isNumber]
  split
  · next skipped => exact ⟨⟨isNumber, .inr own⟩, ⟨isNumber, .inl skipped⟩, .inl rfl⟩
  · next valueNumber =>
    split
    · next below => exact ⟨⟨isNumber, .inr own⟩, ⟨isNumber, .inr below⟩, .inl rfl⟩
    · next above =>
      exact ⟨⟨valueNumber, .inr (double_le_of_not isNumber valueNumber above)⟩,
        ⟨valueNumber, .inr (double_le_refl value valueNumber)⟩, .inr rfl⟩

theorem max_picks (held value : Double) (isNumber : held ≠ .nan) :
    Picks (fun left right => doubleLe right left = true) held value (doubleMax held value) := by
  have own := double_le_refl held isNumber
  rw [doubleMax, if_neg isNumber]
  split
  · next skipped => exact ⟨⟨isNumber, .inr own⟩, ⟨isNumber, .inl skipped⟩, .inl rfl⟩
  · next valueNumber =>
    split
    · next above =>
      exact ⟨⟨valueNumber, .inr above⟩,
        ⟨valueNumber, .inr (double_le_refl value valueNumber)⟩, .inr rfl⟩
    · next below =>
      exact ⟨⟨isNumber, .inr own⟩,
        ⟨isNumber, .inr (double_le_of_not isNumber valueNumber below)⟩, .inl rfl⟩

end Folds

/-- The types for which `MinMax` and `Mean` have kernels. -/
def hasKernel : DataType → Bool
  | .int8 | .int16 | .int32 | .int64 | .uint8 | .uint16 | .uint32 | .uint64 => true
  | .float | .double | .boolean => true
  | _ => false

section Kernels

variable {column : Column}

theorem mem_doubles {cells : List Scalar} {value : Double} :
    value ∈ doubles cells ↔ some (.double value) ∈ cells := by
  rw [doubles, List.mem_filterMap]
  constructor
  · intro found
    obtain ⟨cell, member, own⟩ := found
    split at own
    · rw [← Option.some.inj own]
      exact member
    · cases own
  · intro member
    exact ⟨_, member, rfl⟩

theorem mem_booleans {cells : List Scalar} {value : Bool} :
    value ∈ booleans cells ↔ some (.boolean value) ∈ cells := by
  rw [booleans, List.mem_filterMap]
  constructor
  · intro found
    obtain ⟨cell, member, own⟩ := found
    split at own
    · rw [← Option.some.inj own]
      exact member
    · cases own
  · intro member
    exact ⟨_, member, rfl⟩

theorem double_cell (isDouble : column.type = .float ∨ column.type = .double) {value : Value}
    (member : some value ∈ column.cells) : ∃ own, value = .double own := by
  have admitted := column.conforms _ member
  rcases isDouble with type | type
  all_goals
    rw [type] at admitted
    cases value with
    | double own => exact ⟨own, rfl⟩
    | integer own => cases admitted
    | string own => cases admitted
    | boolean own => cases admitted

theorem boolean_cell (isBoolean : column.type = .boolean) {value : Value}
    (member : some value ∈ column.cells) : ∃ own, value = .boolean own := by
  have admitted := column.conforms _ member
  rw [isBoolean] at admitted
  cases value with
  | boolean own => exact ⟨own, rfl⟩
  | integer own => cases admitted
  | string own => cases admitted
  | double own => cases admitted

/-- Both extremes of a column, of which none is NaN. -/
structure Extremal (column : Column) (least greatest : Value) : Prop where
  found : minMax column.type column.cells = .ok (some least, some greatest)
  leastOccurs : some least ∈ column.cells
  greatestOccurs : some greatest ∈ column.cells
  minimal : ∀ other, some other ∈ column.cells → NotAbove least other
  maximal : ∀ other, some other ∈ column.cells → NotBelow greatest other

theorem integer_extremal (integer : isInteger column.type = true)
    (present : ∃ value, some value ∈ column.cells) :
    ∃ least greatest, Extremal column least greatest := by
  have integral : isIntegral column.type = true := by
    cases type : column.type <;> rw [type] at integer <;> first | rfl | cases integer
  obtain ⟨value, member⟩ := present
  obtain ⟨least, greatest, found, leastOccurs, greatestOccurs, minimal, maximal⟩ :=
    exists_extremes integral ⟨_, member, nofun⟩
  have kernel : minMax column.type column.cells =
      .ok (integerMinMax (integers column.cells)) := by
    cases type : column.type <;> rw [type] at integer <;> first | rfl | cases integer
  refine ⟨_, _, by rw [kernel, found], leastOccurs, greatestOccurs, ?_, ?_⟩
  · intro other occurs
    obtain ⟨own, isOwn⟩ := integral_cell integral (column.conforms _ occurs) nofun
    rw [Option.some.inj isOwn]
    exact .inr ⟨nofun, minimal own (isOwn ▸ occurs)⟩
  · intro other occurs
    obtain ⟨own, isOwn⟩ := integral_cell integral (column.conforms _ occurs) nofun
    rw [Option.some.inj isOwn]
    exact .inr ⟨nofun, maximal own (isOwn ▸ occurs)⟩

theorem double_folds (values : List Double) :
    Beside (fun left right => doubleLe left right = true)
        (values.foldl doubleMin (.infinity false)) (.infinity false) ∧
      (∀ value ∈ values, Beside (fun left right => doubleLe left right = true)
        (values.foldl doubleMin (.infinity false)) value) ∧
      (values.foldl doubleMin (.infinity false) = .infinity false ∨
        values.foldl doubleMin (.infinity false) ∈ values) :=
  fold_picks double_le_trans double_le_refl min_picks values (nofun)

theorem double_max_folds (values : List Double) :
    Beside (fun left right => doubleLe right left = true)
        (values.foldl doubleMax (.infinity true)) (.infinity true) ∧
      (∀ value ∈ values, Beside (fun left right => doubleLe right left = true)
        (values.foldl doubleMax (.infinity true)) value) ∧
      (values.foldl doubleMax (.infinity true) = .infinity true ∨
        values.foldl doubleMax (.infinity true) ∈ values) :=
  fold_picks (fun first second third firstNumber secondNumber thirdNumber upper lower =>
    double_le_trans third second first thirdNumber secondNumber firstNumber lower upper)
    double_le_refl max_picks values (nofun)

theorem infinity_above {value : Double} (isNumber : value ≠ .nan)
    (below : doubleLe (.infinity false) value = true) : value = .infinity false := by
  rw [@double_le_iff (.infinity false) value nofun isNumber] at below
  cases value with
  | nan => exact absurd rfl isNumber
  | infinity negative =>
      cases negative with
      | false => rfl
      | true => cases le_bot_iff.mp below
  | finite value => cases WithTop.coe_ne_top (top_le_iff.mp (WithBot.coe_le_coe.mp below))
  | negativeZero => cases WithTop.coe_ne_top (top_le_iff.mp (WithBot.coe_le_coe.mp below))

theorem infinity_below {value : Double} (isNumber : value ≠ .nan)
    (above : doubleLe value (.infinity true) = true) : value = .infinity true := by
  rw [@double_le_iff value (.infinity true) isNumber nofun] at above
  have bottom := le_bot_iff.mp above
  cases value with
  | nan => exact absurd rfl isNumber
  | infinity negative =>
      cases negative with
      | true => rfl
      | false => cases bottom
  | finite value => cases bottom
  | negativeZero => cases bottom

theorem double_min_max_some {values : List Double} (nonempty : values ≠ []) :
    doubleMinMax values = (some (.double (values.foldl doubleMin (.infinity false))),
      some (.double (values.foldl doubleMax (.infinity true)))) := by
  cases values with
  | nil => exact absurd rfl nonempty
  | cons value rest => rfl

theorem double_kernel (isDouble : column.type = .float ∨ column.type = .double) :
    minMax column.type column.cells = .ok (doubleMinMax (doubles column.cells)) := by
  rcases isDouble with type | type
  all_goals
    rw [type]
    rfl

theorem double_extremal (isDouble : column.type = .float ∨ column.type = .double)
    (present : ∃ value, some value ∈ column.cells ∧ value ≠ .double .nan) :
    ∃ least greatest, Extremal column least greatest := by
  obtain ⟨value, member, isNumber⟩ := present
  obtain ⟨own, rfl⟩ := double_cell isDouble member
  have ownNumber : own ≠ .nan := fun isNan => isNumber (congrArg Value.double isNan)
  have occurs := mem_doubles.mpr member
  obtain ⟨leastHeld, leastBeside, leastOwn⟩ := double_folds (doubles column.cells)
  obtain ⟨greatestHeld, greatestBeside, greatestOwn⟩ := double_max_folds (doubles column.cells)
  have leastMember : (doubles column.cells).foldl doubleMin (.infinity false) ∈
      doubles column.cells := by
    rcases leastOwn with isTop | inValues
    · have below := (leastBeside own occurs).2.resolve_left ownNumber
      rw [isTop] at below ⊢
      rw [← infinity_above ownNumber below]
      exact occurs
    · exact inValues
  have greatestMember : (doubles column.cells).foldl doubleMax (.infinity true) ∈
      doubles column.cells := by
    rcases greatestOwn with isBottom | inValues
    · have above := (greatestBeside own occurs).2.resolve_left ownNumber
      rw [isBottom] at above ⊢
      rw [← infinity_below ownNumber above]
      exact occurs
    · exact inValues
  refine ⟨_, _, by rw [double_kernel isDouble, double_min_max_some (List.ne_nil_of_mem occurs)],
    mem_doubles.mp leastMember, mem_doubles.mp greatestMember, ?_, ?_⟩
  · intro other inCells
    obtain ⟨otherOwn, rfl⟩ := double_cell isDouble inCells
    obtain ⟨notNan, beside⟩ := leastBeside otherOwn (mem_doubles.mpr inCells)
    rcases beside with skipped | below
    · exact .inl (congrArg Value.double skipped)
    · exact .inr ⟨fun isNan => notNan (Value.double.inj isNan), below⟩
  · intro other inCells
    obtain ⟨otherOwn, rfl⟩ := double_cell isDouble inCells
    obtain ⟨notNan, beside⟩ := greatestBeside otherOwn (mem_doubles.mpr inCells)
    rcases beside with skipped | above
    · exact .inl (congrArg Value.double skipped)
    · exact .inr ⟨fun isNan => notNan (Value.double.inj isNan), above⟩

theorem boolean_min_max_some {values : List Bool} (nonempty : values ≠ []) :
    booleanMinMax values =
      (some (.boolean (values.all id)), some (.boolean (values.any id))) := by
  cases values with
  | nil => exact absurd rfl nonempty
  | cons value rest => rfl

theorem boolean_extremal (isBoolean : column.type = .boolean)
    (present : ∃ value, some value ∈ column.cells) :
    ∃ least greatest, Extremal column least greatest := by
  obtain ⟨value, member⟩ := present
  obtain ⟨own, rfl⟩ := boolean_cell isBoolean member
  have occurs := mem_booleans.mpr member
  have leastMember : (booleans column.cells).all id ∈ booleans column.cells := by
    cases all : (booleans column.cells).all id with
    | true =>
        have isTrue := List.all_eq_true.mp all own occurs
        rw [id_eq] at isTrue
        exact isTrue ▸ occurs
    | false =>
        obtain ⟨other, inValues, isFalse⟩ := List.all_eq_false.mp all
        rw [id_eq, Bool.not_eq_true] at isFalse
        exact isFalse ▸ inValues
  have greatestMember : (booleans column.cells).any id ∈ booleans column.cells := by
    cases any : (booleans column.cells).any id with
    | true =>
        obtain ⟨other, inValues, isTrue⟩ := List.any_eq_true.mp any
        rw [id_eq] at isTrue
        exact isTrue ▸ inValues
    | false =>
        have isFalse := List.any_eq_false.mp any own occurs
        rw [id_eq, Bool.not_eq_true] at isFalse
        exact isFalse ▸ occurs
  have kernel : minMax column.type column.cells =
      .ok (booleanMinMax (booleans column.cells)) := by
    rw [isBoolean]
    rfl
  refine ⟨_, _, by rw [kernel, boolean_min_max_some (List.ne_nil_of_mem occurs)],
    mem_booleans.mp leastMember, mem_booleans.mp greatestMember, ?_, ?_⟩
  · intro other inCells
    obtain ⟨otherOwn, rfl⟩ := boolean_cell isBoolean inCells
    refine .inr ⟨nofun, ?_⟩
    intro isTrue
    exact List.all_eq_true.mp isTrue otherOwn (mem_booleans.mpr inCells)
  · intro other inCells
    obtain ⟨otherOwn, rfl⟩ := boolean_cell isBoolean inCells
    refine .inr ⟨nofun, ?_⟩
    intro isTrue
    exact List.any_eq_true.mpr ⟨otherOwn, mem_booleans.mpr inCells, isTrue⟩

/-- A column of a type with kernels that has a value other than NaN has extremes. -/
theorem exists_extremal (kernel : hasKernel column.type = true)
    (present : ∃ value, some value ∈ column.cells ∧ value ≠ .double .nan) :
    ∃ least greatest, Extremal column least greatest := by
  have some_value : ∃ value, some value ∈ column.cells := present.imp fun _ both => both.1
  cases type : column.type with
  | boolean => exact boolean_extremal type some_value
  | float => exact double_extremal (.inl type) present
  | double => exact double_extremal (.inr type) present
  | int8 | int16 | int32 | int64 | uint8 | uint16 | uint32 | uint64 =>
      exact integer_extremal (by rw [type]; rfl) some_value
  | na | halfFloat | decimal | utf8 | timestamp unit | duration unit =>
      rw [type] at kernel
      cases kernel

theorem min_max_kernel {extremes : Scalar × Scalar}
    (returned : minMax column.type column.cells = .ok extremes) : hasKernel column.type = true := by
  cases type : column.type <;> rw [type] at returned <;> first | rfl | cases returned

theorem min_max_number {extremes : Scalar × Scalar}
    (returned : minMax column.type column.cells = .ok extremes) :
    extremes.1 ≠ some (.double .nan) ∧ extremes.2 ≠ some (.double .nan) := by
  have integers_apart : ∀ found : Option Int,
      found.map Value.integer ≠ some (.double .nan) := by
    intro found
    cases found with
    | none => exact nofun
    | some value => exact nofun
  cases type : column.type with
  | boolean =>
      rw [type] at returned
      cases returned
      cases booleans column.cells with
      | nil => exact ⟨nofun, nofun⟩
      | cons value rest => exact ⟨nofun, nofun⟩
  | float | double =>
      rw [type] at returned
      cases returned
      by_cases empty : doubles column.cells = []
      · rw [empty]
        exact ⟨nofun, nofun⟩
      · rw [double_min_max_some empty]
        constructor
        · intro isNan
          exact (double_folds (doubles column.cells)).1.1 (Value.double.inj (Option.some.inj isNan))
        · intro isNan
          exact (double_max_folds (doubles column.cells)).1.1
            (Value.double.inj (Option.some.inj isNan))
  | int8 | int16 | int32 | int64 | uint8 | uint16 | uint32 | uint64 =>
      rw [type] at returned
      cases returned
      exact ⟨integers_apart _, integers_apart _⟩
  | na | halfFloat | decimal | utf8 | timestamp unit | duration unit =>
      rw [type] at returned
      cases returned

theorem fold_finite {Item : Type} (value : Item → ℚ) (items : List Item) (start : ℚ) :
    (items.map fun item => Double.finite (value item)).foldl doubleAdd (.finite start) =
      .finite (start + (items.map value).sum) := by
  induction items generalizing start with
  | nil => rw [List.map_nil, List.map_nil, List.foldl_nil, List.sum_nil, add_zero]
  | cons item rest induction =>
      rw [List.map_cons, List.foldl_cons, List.map_cons, List.sum_cons, ← add_assoc]
      exact induction _

theorem mean_of_rationals {Item : Type} {value : Item → ℚ} {items : List Item}
    {cells : List Scalar}
    (counted : numbers cells = items.map fun item => Double.finite (value item)) :
    meanOf cells = if items = [] then none
      else some (.finite ((items.map value).sum / items.length)) := by
  unfold meanOf
  rw [counted]
  by_cases empty : items = []
  · rw [if_pos empty, if_pos (by rw [empty]; rfl)]
  · rw [if_neg empty, if_neg (by rwa [List.map_eq_nil_iff]), fold_finite, List.length_map, zero_add]
    rfl

theorem numbers_of_integers {cells : List Scalar}
    (each : ∀ value, some value ∈ cells → ∃ own, value = .integer own) :
    numbers cells = (integers cells).map fun value : Int => Double.finite (value : ℚ) := by
  induction cells with
  | nil => rfl
  | cons cell rest induction =>
      have others := induction fun value member => each value (List.mem_cons_of_mem _ member)
      cases cell with
      | none => exact others
      | some value =>
          obtain ⟨own, rfl⟩ := each value List.mem_cons_self
          exact congrArg (List.cons _) others

theorem numbers_of_doubles {cells : List Scalar}
    (each : ∀ value, some value ∈ cells → ∃ own, value = .double own) :
    numbers cells = doubles cells := by
  induction cells with
  | nil => rfl
  | cons cell rest induction =>
      have others := induction fun value member => each value (List.mem_cons_of_mem _ member)
      cases cell with
      | none => exact others
      | some value =>
          obtain ⟨own, rfl⟩ := each value List.mem_cons_self
          exact congrArg (List.cons _) others

theorem numbers_of_booleans {cells : List Scalar}
    (each : ∀ value, some value ∈ cells → ∃ own, value = .boolean own) :
    numbers cells =
      (booleans cells).map fun value => Double.finite (if value then 1 else 0) := by
  induction cells with
  | nil => rfl
  | cons cell rest induction =>
      have others := induction fun value member => each value (List.mem_cons_of_mem _ member)
      cases cell with
      | none => exact others
      | some value =>
          obtain ⟨own, rfl⟩ := each value List.mem_cons_self
          exact congrArg (List.cons _) others

theorem count_as_sum (values : List Bool) :
    ((values.count true : Nat) : ℚ) = (values.map fun value => if value then (1 : ℚ) else 0).sum := by
  induction values with
  | nil => rfl
  | cons value rest induction =>
      rw [List.map_cons, List.sum_cons, ← induction]
      cases value with
      | true =>
          rw [List.count_cons_self, Nat.cast_add, Nat.cast_one, add_comm]
          rfl
      | false =>
          rw [List.count_cons_of_ne (show false ≠ true by decide)]
          exact (zero_add _).symm

theorem sum_as_rational (values : List Int) :
    ((values.sum : Int) : ℚ) = (values.map fun value : Int => (value : ℚ)).sum := by
  induction values with
  | nil => rfl
  | cons value rest induction =>
      rw [List.sum_cons, Int.cast_add, induction, List.map_cons, List.sum_cons]

theorem mean_eq (kernel : hasKernel column.type = true) :
    mean column.type column.cells = .ok ((meanOf column.cells).map .double) := by
  cases type : column.type with
  | boolean =>
      have counted := numbers_of_booleans fun value => boolean_cell type
      rw [mean_of_rationals counted, ← count_as_sum]
      by_cases empty : booleans column.cells = []
      · rw [if_pos empty, mean, empty]
        rfl
      · rw [if_neg empty]
        dsimp only [mean]
        rw [if_neg empty]
        rfl
  | float | double =>
      have counted := numbers_of_doubles fun value =>
        double_cell (by rw [type]; first | exact .inl rfl | exact .inr rfl)
      rw [meanOf, counted]
      by_cases empty : doubles column.cells = []
      · rw [if_pos empty]
        dsimp only [mean]
        rw [if_pos empty]
        rfl
      · rw [if_neg empty]
        dsimp only [mean]
        rw [if_neg empty]
        rfl
  | int8 | int16 | int32 | int64 | uint8 | uint16 | uint32 | uint64 =>
      have each : ∀ value, some value ∈ column.cells → ∃ own, value = .integer own := by
        intro value member
        obtain ⟨own, isOwn⟩ := integral_cell (by rw [type]; rfl) (column.conforms _ member)
          (Option.some_ne_none _)
        exact ⟨own, Option.some.inj isOwn⟩
      rw [mean_of_rationals (numbers_of_integers each), ← sum_as_rational]
      by_cases empty : integers column.cells = []
      · rw [if_pos empty]
        dsimp only [mean]
        rw [if_pos empty]
        rfl
      · rw [if_neg empty]
        dsimp only [mean]
        rw [if_neg empty]
        rfl
  | na | halfFloat | decimal | utf8 | timestamp unit | duration unit =>
      rw [type] at kernel
      cases kernel

theorem mean_kernel {value : Scalar}
    (returned : mean column.type column.cells = .ok value) : hasKernel column.type = true := by
  cases type : column.type <;> rw [type] at returned <;> first | rfl | cases returned

theorem mean_of_iff (kernel : hasKernel column.type = true) :
    (∃ value, some value ∈ column.cells) ↔ ∃ mean, meanOf column.cells = some mean := by
  have counts : ∀ value, some value ∈ column.cells → ∃ own, number value = some own := by
    intro value member
    have admitted := column.conforms _ member
    cases value with
    | integer own => exact ⟨_, rfl⟩
    | double own => exact ⟨_, rfl⟩
    | boolean own => exact ⟨_, rfl⟩
    | string own =>
        cases type : column.type <;> rw [type] at kernel admitted <;>
          first | exact absurd admitted Bool.false_ne_true | exact absurd kernel Bool.false_ne_true
  constructor
  · intro present
    obtain ⟨value, member⟩ := present
    obtain ⟨own, isOwn⟩ := counts value member
    have inNumbers : own ∈ numbers column.cells := List.mem_filterMap.mpr ⟨_, member, isOwn⟩
    exact ⟨_, by rw [meanOf, if_neg (List.ne_nil_of_mem inNumbers)]⟩
  · intro mean
    obtain ⟨mean, isMean⟩ := mean
    unfold meanOf at isMean
    split at isMean
    · cases isMean
    · next nonempty =>
      obtain ⟨own, inNumbers⟩ := List.exists_mem_of_ne_nil _ nonempty
      obtain ⟨cell, member, isOwn⟩ := List.mem_filterMap.mp inNumbers
      cases cell with
      | none => cases isOwn
      | some value => exact ⟨value, member⟩

end Kernels

end StreamDataProcessor.Handlers.Aggregate
