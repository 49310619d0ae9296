import StreamDataProcessor.Foundation.Binary64

/-!
# Arrow statuses, types and scalars

Only what the handlers use of Arrow. A status is a result; an escaping C++
exception, undefined behaviour and a call that never returns are kept apart
from it, so that claims about a call can tell them from an error status.
-/

namespace StreamDataProcessor.Arrow

open Foundation.Binary64

set_option autoImplicit false

inductive StatusCode where
  | invalid
  | keyError
  | typeError
  | notImplemented
  | indexError
  | executionError
  deriving DecidableEq, Repr

structure Status where
  code : StatusCode
  message : String
  deriving DecidableEq, Repr

inductive Fault where
  | status (status : Status)
  | exception (what : String)
  | undefined (what : String)
  | diverges
  deriving DecidableEq, Repr

abbrev Outcome (Value : Type) := Except Fault Value

def fail {Value : Type} (code : StatusCode) (message : String) : Outcome Value :=
  .error (.status ⟨code, message⟩)

inductive TimeUnit where
  | second
  | milli
  | micro
  | nano
  deriving DecidableEq, Repr

def TimeUnit.perSecond : TimeUnit → Int
  | .second => 1
  | .milli => 1000
  | .micro => 1000000
  | .nano => 1000000000

inductive DataType where
  | na
  | boolean
  | uint8
  | int8
  | uint16
  | int16
  | uint32
  | int32
  | uint64
  | int64
  | halfFloat
  | float
  | double
  | decimal
  | utf8
  | timestamp (unit : TimeUnit)
  | duration (unit : TimeUnit)
  deriving DecidableEq, Repr

inductive Value where
  | integer (value : Int)
  | double (value : Double)
  | string (value : String)
  | boolean (value : Bool)
  deriving DecidableEq

/-- A scalar is null when it is `none` (`is_valid` is false). -/
abbrev Scalar := Option Value

def DataType.admits : DataType → Scalar → Bool
  | _, none => true
  | .na, some _ => false
  | .boolean, some (.boolean _) => true
  | .utf8, some (.string _) => true
  | .halfFloat, some (.double _) => true
  | .float, some (.double _) => true
  | .double, some (.double _) => true
  | .decimal, some (.double _) => true
  | .uint8, some (.integer _) => true
  | .int8, some (.integer _) => true
  | .uint16, some (.integer _) => true
  | .int16, some (.integer _) => true
  | .uint32, some (.integer _) => true
  | .int32, some (.integer _) => true
  | .uint64, some (.integer _) => true
  | .int64, some (.integer _) => true
  | .timestamp _, some (.integer _) => true
  | .duration _, some (.integer _) => true
  | _, _ => false

@[simp] theorem DataType.admits_null (type : DataType) : type.admits none = true := by
  cases type <;> rfl

/-- `static_pointer_cast<Int64Scalar>(scalar)->value` and its timestamp and
duration forms: the value of a null scalar is the default one. -/
def integerValue : Scalar → Int
  | some (.integer value) => value
  | _ => 0

def doubleValue : Scalar → Double
  | some (.double value) => value
  | _ => .finite 0

def booleanValue : Scalar → Bool
  | some (.boolean value) => value
  | _ => false

/-- `Scalar::ToString`, with a rendering of the values that are not text. -/
def scalarToString (renderScalar : DataType → Value → String) (type : DataType) :
    Scalar → String
  | none => "null"
  | some (.string text) => text
  | some value => renderScalar type value

/-- The order in which `SortIndices` puts the cells of a column: values first,
NaN after the other numbers, nulls last. -/
def sortsBefore : Scalar → Scalar → Bool
  | _, none => true
  | none, some _ => false
  | some (.integer left), some (.integer right) => left ≤ right
  | some (.string left), some (.string right) => left ≤ right
  | some (.boolean left), some (.boolean right) => left ≤ right
  | some (.double left), some (.double right) =>
      match left, right with
      | _, .nan => true
      | .nan, _ => false
      | .infinity true, _ => true
      | _, .infinity false => true
      | _, .infinity true => false
      | .infinity false, _ => false
      | _, _ => left.toRat ≤ right.toRat
  | _, _ => true

/-- The scalar cast between timestamp units: multiplication towards the finer
unit, truncating division towards the coarser one. The product is not bounded here: where
the code's `int64_t` shows, its users keep what 64 bits keep. -/
def convertTimestamp (source target : TimeUnit) (value : Int) : Int :=
  if source.perSecond ≤ target.perSecond then value * (target.perSecond / source.perSecond)
  else value.tdiv (source.perSecond / target.perSecond)

/-- `castTimestampScalar` on a scalar of the given type. How text is parsed and how a
floating-point number is truncated is left undefined: time columns hold timestamps. -/
def castTimestampScalar (type : DataType) (scalar : Scalar) (unit : TimeUnit) :
    Outcome Scalar :=
  match type, scalar with
  | _, none => .ok none
  | .timestamp own, some (.integer value) =>
      .ok (some (.integer (convertTimestamp own unit value)))
  | .uint8, some (.integer value) | .int8, some (.integer value)
  | .uint16, some (.integer value) | .int16, some (.integer value)
  | .uint32, some (.integer value) | .int32, some (.integer value)
  | .uint64, some (.integer value) | .int64, some (.integer value) =>
      .ok (some (.integer value))
  | .utf8, some _ => .error (.undefined "text is parsed as a timestamp")
  | .halfFloat, some _ | .float, some _ | .double, some _ =>
      .error (.undefined "a floating-point number is truncated to a timestamp")
  | _, _ => fail .notImplemented "casting the scalar to a timestamp is not implemented"

/-- The double that a number or a truth value is cast to. -/
def Value.toDouble : Value → Option Double
  | .integer value => some (.finite (nearest value))
  | .double value => some value
  | .boolean value => some (.finite (if value then 1 else 0))
  | .string _ => none

/-- `CastTo(float64())` on a scalar of the given type. How text is parsed is left undefined:
the handlers that cast check for, or are configured with, numeric columns. -/
def castToFloat64 (type : DataType) : Scalar → Outcome Scalar
  | none => .ok none
  | some value =>
      if type = .decimal then
        fail .notImplemented "casting a decimal scalar to double is not implemented"
      else match value.toDouble with
        | some double => .ok (some (.double double))
        | none => .error (.undefined "text is parsed as a number")

def isNumericType : DataType → Bool
  | .uint8 | .int8 | .uint16 | .int16 | .uint32 | .int32 | .uint64 | .int64 => true
  | .halfFloat | .float | .double | .decimal => true
  | _ => false

theorem convert_timestamp_mono (source target : TimeUnit) {left right : Int}
    (le : left ≤ right) :
    convertTimestamp source target left ≤ convertTimestamp source target right := by
  unfold convertTimestamp
  split
  · apply Int.mul_le_mul_of_nonneg_right le
    cases source <;> cases target <;> decide
  · next finer =>
    apply Int.tdiv_le_tdiv _ le
    revert finer
    cases source <;> cases target <;> decide

theorem cast_timestamp_exists {type : DataType} {unit : TimeUnit} {value : Int}
    {timestamp : Scalar} (cast : castTimestampScalar type (some (.integer value)) unit =
      .ok timestamp) (other : Int) :
    ∃ own, castTimestampScalar type (some (.integer other)) unit = .ok own := by
  cases type <;> first | exact ⟨_, rfl⟩ | cases cast

theorem cast_timestamp_mono {type : DataType} {unit : TimeUnit} {left right : Int}
    {earlier later : Scalar}
    (castLeft : castTimestampScalar type (some (.integer left)) unit = .ok earlier)
    (castRight : castTimestampScalar type (some (.integer right)) unit = .ok later)
    (le : left ≤ right) : integerValue earlier ≤ integerValue later := by
  cases type <;> cases castLeft <;> cases castRight
  case timestamp.refl.refl own => exact convert_timestamp_mono own unit le
  all_goals exact le

theorem convert_timestamp_same (unit : TimeUnit) (value : Int) :
    convertTimestamp unit unit value = value := by
  have whole : unit.perSecond / unit.perSecond = 1 := by cases unit <;> rfl
  rw [convertTimestamp, if_pos (Int.le_refl _), whole, Int.mul_one]

theorem convert_timestamp_nonneg (source target : TimeUnit) {value : Int}
    (nonneg : 0 ≤ value) : 0 ≤ convertTimestamp source target value := by
  have mono := convert_timestamp_mono source target nonneg
  have zero : convertTimestamp source target 0 = 0 := by
    cases source <;> cases target <;> rfl
  rwa [zero] at mono

end StreamDataProcessor.Arrow
