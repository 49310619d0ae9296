import StreamDataProcessor.Arrow.Types

/-!
# Appending scalars to array builders

`arrow_utils.cpp`. The scalars are read through unchecked casts, whether they are null or not.
-/

namespace StreamDataProcessor.Utils

open Arrow

set_option autoImplicit false

/-- The scalar of a builder's type, behind a pointer to a scalar of another type. -/
def appendToBuilder (type scalarType : DataType) (value : Scalar) : Outcome Scalar :=
  if scalarType ≠ type then .error (.undefined "a scalar is read as one of another type")
  else match type, value with
    | .int64, value => .ok (some (.integer (integerValue value)))
    | .double, value => .ok (some (.double (doubleValue value)))
    | .utf8, some value => .ok (some value)
    | .utf8, none => .error (.undefined "a null buffer is dereferenced")
    | .boolean, value => .ok (some (.boolean (booleanValue value)))
    | _, _ => fail .notImplemented
        "Expected one of \x7barrow::int64, arrow::float64, arrow::utf8, arrow::boolean types"

def appendToTimestampBuilder (unit : Arrow.TimeUnit) (scalarType : DataType) (value : Scalar) :
    Outcome Scalar := do
  let timestampScalar ← castTimestampScalar scalarType value unit
  return some (.integer (integerValue timestampScalar))

/-- Whether `createArrayBuilder` or `createTimestampArrayBuilder` has a builder of the type. -/
def buildable : DataType → Bool
  | .int64 | .double | .utf8 | .boolean | .timestamp _ => true
  | _ => false

end StreamDataProcessor.Utils
