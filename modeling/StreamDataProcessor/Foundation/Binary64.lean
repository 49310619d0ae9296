import Mathlib.Data.Rat.Floor
import Mathlib.Algebra.Order.Ring.Rat

/-!
# Binary64 numbers

Finite numbers are the rationals they denote; the two zeros, the infinities and
NaN are kept apart. `nearest` is round-to-nearest, ties to even, on the range of
the normal numbers.
-/

namespace Foundation.Binary64

inductive Double where
  | finite (value : ℚ)
  | negativeZero
  | infinity (negative : Bool)
  | nan
  deriving DecidableEq

/-- The exact value of a finite number. -/
def Double.toRat : Double → ℚ
  | .finite value => value
  | .negativeZero => 0
  | .infinity _ => 0
  | .nan => 0

def roundHalfEven (value : ℚ) : Int :=
  let below := ⌊value⌋
  let rest := value - below
  if rest < 1 / 2 then below
  else if 1 / 2 < rest then below + 1
  else if below % 2 = 0 then below else below + 1

/-- The exponent of the last of the 53 significant bits of a non-zero value. -/
def lastPlace (value : ℚ) : Int :=
  let guess : Int := Nat.log2 value.num.natAbs - Nat.log2 value.den - 52
  if |value| < 2 ^ 52 * 2 ^ guess then guess - 1 else guess

def nearest (value : ℚ) : ℚ :=
  if value = 0 then 0
  else roundHalfEven (value / 2 ^ lastPlace value) * 2 ^ lastPlace value

example : nearest (2 ^ 53 + 1) = 2 ^ 53 := by decide +kernel

end Foundation.Binary64
