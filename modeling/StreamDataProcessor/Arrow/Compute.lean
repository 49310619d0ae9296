import StreamDataProcessor.Arrow.Table

/-!
# Compute functions

`arrow::compute::MinMax` and `Mean`, which skip nulls, and `Scalar::Equals`.
-/

namespace StreamDataProcessor.Arrow

open Foundation.Binary64

set_option autoImplicit false

/-- The order of the numbers other than NaN. -/
def doubleLe : Double → Double → Bool
  | .infinity true, _ => true
  | _, .infinity false => true
  | _, .infinity true => false
  | .infinity false, _ => false
  | left, right => left.toRat ≤ right.toRat

def doubleMin (left right : Double) : Double :=
  if left = .nan then right
  else if right = .nan then left
  else if doubleLe left right then left else right

def doubleMax (left right : Double) : Double :=
  if left = .nan then right
  else if right = .nan then left
  else if doubleLe left right then right else left

/-- The sum, exact on finite numbers. -/
def doubleAdd : Double → Double → Double
  | .nan, _ => .nan
  | _, .nan => .nan
  | .infinity left, .infinity right => if left = right then .infinity left else .nan
  | .infinity negative, _ => .infinity negative
  | _, .infinity negative => .infinity negative
  | left, right => .finite (left.toRat + right.toRat)

def doubleDivide (sum : Double) (count : Nat) : Double :=
  match sum with
  | .nan => .nan
  | .infinity negative => .infinity negative
  | sum => .finite (sum.toRat / count)

def integers (cells : List Scalar) : List Int :=
  cells.filterMap fun
    | some (.integer value) => some value
    | _ => none

def doubles (cells : List Scalar) : List Double :=
  cells.filterMap fun
    | some (.double value) => some value
    | _ => none

def booleans (cells : List Scalar) : List Bool :=
  cells.filterMap fun
    | some (.boolean value) => some value
    | _ => none

def integerMinMax (values : List Int) : Scalar × Scalar :=
  (values.min?.map .integer, values.max?.map .integer)

def doubleMinMax : List Double → Scalar × Scalar
  | [] => (none, none)
  | values =>
      (some (.double (values.foldl doubleMin (.infinity false))),
        some (.double (values.foldl doubleMax (.infinity true))))

def booleanMinMax : List Bool → Scalar × Scalar
  | [] => (none, none)
  | values => (some (.boolean (values.all id)), some (.boolean (values.any id)))

def minMax (type : DataType) (cells : List Scalar) : Outcome (Scalar × Scalar) :=
  match type with
  | .int8 | .int16 | .int32 | .int64 | .uint8 | .uint16 | .uint32 | .uint64 =>
      .ok (integerMinMax (integers cells))
  | .float | .double => .ok (doubleMinMax (doubles cells))
  | .boolean => .ok (booleanMinMax (booleans cells))
  | _ => fail .notImplemented "Function min_max has no kernel matching input types"

/-- `Mean`, a double whatever the type of the column. The sum and the quotient are exact here,
where the library keeps 64 bits of a sum of integers and rounds the quotient. -/
def mean (type : DataType) (cells : List Scalar) : Outcome Scalar :=
  match type with
  | .int8 | .int16 | .int32 | .int64 | .uint8 | .uint16 | .uint32 | .uint64 =>
      let values := integers cells
      .ok (if values = [] then none
        else some (.double (.finite (((values.sum : Int) : ℚ) / values.length))))
  | .float | .double =>
      let values := doubles cells
      .ok (if values = [] then none
        else some (.double (doubleDivide (values.foldl doubleAdd (.finite 0)) values.length)))
  | .boolean =>
      let values := booleans cells
      .ok (if values = [] then none
        else some (.double (.finite ((values.count true : ℚ) / values.length))))
  | _ => fail .notImplemented "Function mean has no kernel matching input types"

/-- `Scalar::Equals`: NaN equals nothing, and the two zeros are equal. -/
def scalarEquals : Scalar → Scalar → Bool
  | some (.double left), some (.double right) =>
      left ≠ .nan ∧ right ≠ .nan ∧ doubleLe left right ∧ doubleLe right left
  | left, right => left = right

@[simp] theorem scalar_equals_integer (left right : Int) :
    scalarEquals (some (.integer left)) (some (.integer right)) = decide (left = right) := by
  simp [scalarEquals]

end StreamDataProcessor.Arrow
