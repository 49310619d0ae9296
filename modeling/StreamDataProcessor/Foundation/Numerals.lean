import StreamDataProcessor.Foundation.Binary64
import Mathlib.Data.List.TakeWhile
import Mathlib.Tactic.NormNum
import Mathlib.Tactic.Linarith

/-!
# Reading numbers as the C library does

`strtoll` in base ten and `strtod`, in the C locale. A conversion comes with the text
after it, and with whether it sets `errno` to `ERANGE`.
-/

namespace Foundation.Numerals

open Foundation.Binary64

set_option autoImplicit false

def isSpace (char : Char) : Bool := char ∈ [' ', '\t', '\n', '\x0b', '\x0c', '\r']

structure Conversion (Value : Type) where
  value : Value
  rest : List Char
  outOfRange : Bool := false

def splitSign : List Char → Bool × List Char
  | '-' :: rest => (true, rest)
  | '+' :: rest => (false, rest)
  | text => (false, text)

def digitValue (char : Char) : Nat :=
  if char.isDigit then char.toNat - 48 else char.toLower.toNat - 87

def digitsValue (base : Nat) (digits : List Char) : Nat :=
  digits.foldl (fun value digit => base * value + digitValue digit) 0

def signed (negative : Bool) (magnitude : Nat) : Int :=
  if negative then -magnitude else magnitude

/-- The `long long` for an integer, and whether it is only the nearest one. -/
def clamp (exact : Int) : Int × Bool :=
  if exact < -2 ^ 63 then (-2 ^ 63, true)
  else if 2 ^ 63 ≤ exact then (2 ^ 63 - 1, true)
  else (exact, false)

def strtoll (text : List Char) : Conversion Int :=
  let (negative, unsigned) := splitSign (text.dropWhile isSpace)
  let digits := unsigned.takeWhile Char.isDigit
  let (value, outOfRange) := clamp (signed negative (digitsValue 10 digits))
  if digits = [] then ⟨0, text, false⟩
  else ⟨value, unsigned.dropWhile Char.isDigit, outOfRange⟩

/-- The digits of a floating point number, with the letter and the base of its exponent. -/
structure Notation where
  base : Nat
  isDigit : Char → Bool
  marker : Char
  exponentBase : ℚ

def decimalNotation : Notation := ⟨10, Char.isDigit, 'e', 10⟩

def isHexDigit (char : Char) : Bool := char.isDigit || ('a' ≤ char.toLower && char.toLower ≤ 'f')

def hexNotation : Notation := ⟨16, isHexDigit, 'p', 2⟩

/-- An exponent without digits is no part of the number. -/
def scanExponent (marker : Char) : List Char → Int × List Char
  | [] => (0, [])
  | char :: after =>
      let (negative, unsigned) := splitSign after
      let digits := unsigned.takeWhile Char.isDigit
      if char.toLower = marker ∧ digits ≠ [] then
        (signed negative (digitsValue 10 digits), unsigned.dropWhile Char.isDigit)
      else (0, char :: after)

def scanFraction (isDigit : Char → Bool) : List Char → List Char × List Char
  | '.' :: after => (after.takeWhile isDigit, after.dropWhile isDigit)
  | text => ([], text)

/-- The exact value of the number that a text begins with. -/
def scanNumber (kind : Notation) (text : List Char) : Option (ℚ × List Char) :=
  let whole := text.takeWhile kind.isDigit
  let (fraction, afterFraction) := scanFraction kind.isDigit (text.dropWhile kind.isDigit)
  let (exponent, rest) := scanExponent kind.marker afterFraction
  if whole ++ fraction = [] then none
  else some (digitsValue kind.base (whole ++ fraction) / (kind.base : ℚ) ^ fraction.length *
    kind.exponentBase ^ exponent, rest)

/-- A hexadecimal number after `0x`, or else a decimal one. -/
def scanMagnitude (text : List Char) : Option (ℚ × List Char) :=
  match text with
  | '0' :: marker :: digits =>
      match (if marker.toLower = 'x' then scanNumber hexNotation digits else none) with
      | some scanned => some scanned
      | none => scanNumber decimalNotation text
  | _ => scanNumber decimalNotation text

/-- The characters in parentheses that may follow `nan`. -/
def dropNanCharacters (text : List Char) : List Char :=
  match text with
  | '(' :: inner =>
      match inner.dropWhile fun char => char.isAlphanum || char = '_' with
      | ')' :: rest => rest
      | _ => text
  | _ => text

/-- Infinities and NaN, in letters of any case. -/
def scanWord (negative : Bool) (text : List Char) : Option (Double × List Char) :=
  let lower := text.map Char.toLower
  if ['i', 'n', 'f', 'i', 'n', 'i', 't', 'y'].isPrefixOf lower then
    some (.infinity negative, text.drop 8)
  else if ['i', 'n', 'f'].isPrefixOf lower then some (.infinity negative, text.drop 3)
  else if ['n', 'a', 'n'].isPrefixOf lower then some (.nan, dropNanCharacters (text.drop 3))
  else none

def signedDouble (negative : Bool) (magnitude : ℚ) : Double :=
  if magnitude = 0 then if negative then .negativeZero else .finite 0
  else .finite (if negative then -magnitude else magnitude)

/-- The double next to a magnitude, and whether the magnitude is out of the range of the
normal numbers: it overflows, or its rounding as a subnormal number is not exact. A magnitude
is subnormal if even 53 bits of it, rounded, are below the least normal number. -/
def roundMagnitude (negative : Bool) (magnitude : ℚ) : Double × Bool :=
  if 2 ^ 1024 - 2 ^ 970 ≤ magnitude then (.infinity negative, true)
  else
    let place : Int := max (lastPlace magnitude) (-1074)
    let rounded := (roundHalfEven (magnitude / 2 ^ place) : ℚ) * 2 ^ place
    (signedDouble negative rounded,
      magnitude < 1 / 2 ^ 1022 - 1 / 2 ^ 1076 ∧ rounded ≠ magnitude)

def strtod (text : List Char) : Conversion Double :=
  let (negative, unsigned) := splitSign (text.dropWhile isSpace)
  match scanWord negative unsigned with
  | some (value, rest) => ⟨value, rest, false⟩
  | none =>
      match scanMagnitude unsigned with
      | none => ⟨.finite 0, text, false⟩
      | some (magnitude, rest) =>
          let (value, outOfRange) := roundMagnitude negative magnitude
          ⟨value, rest, outOfRange⟩

example : (strtod "-1.5e1x".toList).value = .finite (-15) ∧
    (strtod "-1.5e1x".toList).rest = ['x'] := by decide +kernel

example : (strtod "2.2250738585072013e-308".toList).outOfRange = false ∧
    (strtod "2.2250738585072011e-308".toList).outOfRange = true := by decide +kernel

theorem clamp_in_range {exact : Int} (inRange : (clamp exact).2 = false) :
    (clamp exact).1 = exact ∧ -2 ^ 63 ≤ exact ∧ exact < 2 ^ 63 := by
  unfold clamp at inRange ⊢
  split at inRange
  · cases inRange
  · next low =>
    split at inRange
    · cases inRange
    · next high =>
      rw [if_neg low, if_neg high]
      exact ⟨rfl, by omega, by omega⟩

theorem digits_of_strtoll {text : List Char} (whole : (strtoll text).rest = [])
    (nonzero : (strtoll text).value ≠ 0) :
    (splitSign (text.dropWhile isSpace)).2 ≠ [] ∧
      (∀ char ∈ (splitSign (text.dropWhile isSpace)).2, char.isDigit = true) ∧
      ((strtoll text).outOfRange = false →
        0 < digitsValue 10 (splitSign (text.dropWhile isSpace)).2 ∧
          digitsValue 10 (splitSign (text.dropWhile isSpace)).2 ≤ 2 ^ 63) := by
  unfold strtoll at whole nonzero ⊢
  generalize splitSign (text.dropWhile isSpace) = parts at whole nonzero ⊢
  obtain ⟨negative, unsigned⟩ := parts
  dsimp only at whole nonzero ⊢
  by_cases none : unsigned.takeWhile Char.isDigit = []
  · rw [if_pos none] at nonzero
    exact absurd rfl nonzero
  · rw [if_neg none] at whole nonzero ⊢
    have digits : unsigned.takeWhile Char.isDigit = unsigned := by
      have parts := List.takeWhile_append_dropWhile (p := Char.isDigit) (l := unsigned)
      rwa [show unsigned.dropWhile Char.isDigit = [] from whole, List.append_nil] at parts
    rw [digits] at none nonzero ⊢
    refine ⟨none, List.dropWhile_eq_nil_iff.mp whole, ?_⟩
    intro inRange
    obtain ⟨same, low, high⟩ := clamp_in_range inRange
    rw [same] at nonzero
    cases negative <;> simp only [signed, if_true, Bool.false_eq_true, if_false] at nonzero low high <;>
      omega

theorem scan_number_of_digits {text : List Char} (nonempty : text ≠ [])
    (digits : ∀ char ∈ text, char.isDigit = true) :
    scanNumber decimalNotation text = some ((digitsValue 10 text : ℚ), []) := by
  have taken : text.takeWhile Char.isDigit = text := List.takeWhile_eq_self_iff.mpr digits
  have dropped : text.dropWhile Char.isDigit = [] := List.dropWhile_eq_nil_iff.mpr digits
  simp [scanNumber, decimalNotation, taken, dropped, scanFraction, scanExponent, nonempty]

theorem digit_lower {char : Char} (digit : char.isDigit = true) : char.toLower = char := by
  simp only [Char.isDigit, Bool.and_eq_true, decide_eq_true_eq] at digit
  apply dif_neg
  intro capital
  have between := UInt32.le_trans capital.1 digit.2
  exact absurd between (by decide)

theorem digit_ne {char letter : Char} (digit : char.isDigit = true)
    (none : letter.isDigit = false) : char.toLower ≠ letter := by
  rw [digit_lower digit]
  rintro rfl
  rw [none] at digit
  cases digit

theorem scan_magnitude_of_digits {text : List Char} (nonempty : text ≠ [])
    (digits : ∀ char ∈ text, char.isDigit = true) :
    scanMagnitude text = some ((digitsValue 10 text : ℚ), []) := by
  unfold scanMagnitude
  split
  · next marker rest =>
    rw [if_neg (digit_ne (digits marker (by simp)) (by decide))]
    exact scan_number_of_digits nonempty digits
  · exact scan_number_of_digits nonempty digits

theorem scan_word_of_digits {text : List Char} (negative : Bool)
    (digits : ∀ char ∈ text, char.isDigit = true) : scanWord negative text = none := by
  cases text with
  | nil => rfl
  | cons char rest =>
      have digit := digits char (by simp)
      have letters : ('i' == char.toLower) = false ∧ ('n' == char.toLower) = false :=
        ⟨beq_false_of_ne (digit_ne digit (by decide)).symm,
          beq_false_of_ne (digit_ne digit (by decide)).symm⟩
      simp only [scanWord, List.map_cons, List.isPrefixOf, letters, Bool.false_and,
        Bool.false_eq_true, if_false]

theorem round_in_range {negative : Bool} {magnitude : ℚ} (small : 1 ≤ magnitude)
    (large : magnitude ≤ 2 ^ 63) : (roundMagnitude negative magnitude).2 = false := by
  have low : ¬(2 : ℚ) ^ 1024 - 2 ^ 970 ≤ magnitude := by
    have halved : (2 : ℚ) ^ 1024 = 2 ^ 1023 + 2 ^ 1023 := by rw [← mul_two, ← pow_succ]
    have less : (2 : ℚ) ^ 970 ≤ 2 ^ 1023 := pow_le_pow_right₀ (by norm_num) (by norm_num)
    have more : (2 : ℚ) ^ 63 < 2 ^ 1023 := pow_lt_pow_right₀ (by norm_num) (by norm_num)
    rw [not_le]
    calc magnitude ≤ 2 ^ 63 := large
      _ < 2 ^ 1023 := more
      _ = 2 ^ 1024 - 2 ^ 1023 := by rw [halved, add_sub_cancel_right]
      _ ≤ 2 ^ 1024 - 2 ^ 970 := sub_le_sub_left less _
  have high : ¬magnitude < 1 / 2 ^ 1022 - 1 / 2 ^ 1076 := by
    have unit : (1 : ℚ) / 2 ^ 1022 ≤ 1 :=
      div_le_one_of_le₀ (one_le_pow₀ (by norm_num)) (by positivity)
    exact not_lt.mpr ((sub_le_self _ (by positivity)).trans (unit.trans small))
  simp only [roundMagnitude, if_neg low, high, false_and, decide_false]

theorem strtod_in_range {text : List Char} (whole : (strtoll text).rest = [])
    (nonzero : (strtoll text).value ≠ 0) (inRange : (strtoll text).outOfRange = false) :
    (strtod text).outOfRange = false := by
  obtain ⟨nonempty, digits, bounds⟩ := digits_of_strtoll whole nonzero
  obtain ⟨positive, bounded⟩ := bounds inRange
  simp only [strtod, scan_word_of_digits _ digits, scan_magnitude_of_digits nonempty digits]
  exact round_in_range (by exact_mod_cast positive) (by exact_mod_cast bounded)

end Foundation.Numerals
