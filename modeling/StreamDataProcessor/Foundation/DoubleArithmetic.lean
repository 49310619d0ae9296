import StreamDataProcessor.Foundation.Numerals

/-!
# Products and comparisons of binary64 numbers

A product is rounded once, over the whole range: it may overflow to an infinity or become
subnormal. NaN is neither less than nor equal to any number. `min` and `max` are those of C++,
which give their first argument where neither is less.
-/

namespace Foundation.Binary64

open Numerals

set_option autoImplicit false

namespace Double

def isNegative : Double → Bool
  | .finite value => value < 0
  | .negativeZero => true
  | .infinity negative => negative
  | .nan => false

def isZero : Double → Bool
  | .finite value => value = 0
  | .negativeZero => true
  | .infinity _ | .nan => false

def times (left right : Double) : Double :=
  let negative := left.isNegative != right.isNegative
  match left, right with
  | .nan, _ | _, .nan => .nan
  | .infinity _, other | other, .infinity _ =>
      if other.isZero then .nan else .infinity negative
  | _, _ => (roundMagnitude negative |left.toRat * right.toRat|).1

def less : Double → Double → Bool
  | .nan, _ | _, .nan => false
  | .infinity left, .infinity right => left && !right
  | .infinity negative, _ => negative
  | _, .infinity negative => !negative
  | left, right => left.toRat < right.toRat

def lessOrEqual : Double → Double → Bool
  | .nan, _ | _, .nan => false
  | left, right => !right.less left

end Double

instance : Mul Double := ⟨Double.times⟩

instance : LT Double := ⟨fun left right => left.less right = true⟩

instance : LE Double := ⟨fun left right => left.lessOrEqual right = true⟩

instance : DecidableLT Double := fun _ _ => inferInstanceAs (Decidable (_ = true))

instance : DecidableLE Double := fun _ _ => inferInstanceAs (Decidable (_ = true))

instance : Min Double := ⟨fun left right => if right < left then right else left⟩

instance : Max Double := ⟨fun left right => if left < right then right else left⟩

example : (.finite 3 * .infinity true : Double) = .infinity true ∧
    (Double.finite (1 / 2) * .finite 10 = .finite 5) ∧ ¬(Double.nan ≤ .nan) := by decide +kernel

end Foundation.Binary64
