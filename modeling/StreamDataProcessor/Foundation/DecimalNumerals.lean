import StreamDataProcessor.Foundation.Numerals
import StreamDataProcessor.Foundation.Rounding

/-!
# Decimal numerals

The texts that are decimal integers and decimal numbers as a whole, and what `strtoll` and `strtod`
make of them.
-/

namespace Foundation.Numerals

open Foundation.Binary64

set_option autoImplicit false

/-- The integer that a text of digits after at most a sign denotes. -/
def decimalInteger (text : List Char) : Option Int :=
  let (negative, digits) := splitSign text
  if digits ≠ [] ∧ digits.all Char.isDigit = true then
    some (signed negative (digitsValue 10 digits))
  else none

/-- Whether the number that a decimal numeral denotes is negative, and its magnitude. -/
def decimalNumeral (text : List Char) : Option (Bool × ℚ) :=
  let (negative, unsigned) := splitSign text
  match scanNumber decimalNotation unsigned with
  | some (magnitude, []) => some (negative, magnitude)
  | _ => none

theorem decimal_integer_iff {text : List Char} {value : Int} :
    decimalInteger text = some value ↔
      ((splitSign text).2 ≠ [] ∧ ∀ char ∈ (splitSign text).2, char.isDigit = true) ∧
        signed (splitSign text).1 (digitsValue 10 (splitSign text).2) = value := by
  unfold decimalInteger
  rw [Option.ite_none_right_eq_some, List.all_eq_true, Option.some.injEq]

theorem decimal_numeral_iff {text : List Char} {negative : Bool} {magnitude : ℚ} :
    decimalNumeral text = some (negative, magnitude) ↔
      (splitSign text).1 = negative ∧
        scanNumber decimalNotation (splitSign text).2 = some (magnitude, []) := by
  unfold decimalNumeral
  obtain ⟨sign, unsigned⟩ := splitSign text
  dsimp only
  split
  · next scanned found =>
    rw [found, Option.some.injEq, Option.some.injEq, Prod.mk.injEq, Prod.mk.injEq]
    simp
  · next other =>
    simp only [reduceCtorEq, false_iff, not_and]
    intro _ found
    exact other magnitude found

theorem numeral_of_integer {text : List Char} {value : Int}
    (integer : decimalInteger text = some value) :
    decimalNumeral text =
      some ((splitSign text).1, (digitsValue 10 (splitSign text).2 : ℚ)) := by
  obtain ⟨⟨nonempty, digits⟩, _⟩ := decimal_integer_iff.mp integer
  exact decimal_numeral_iff.mpr ⟨rfl, scan_number_of_digits nonempty digits⟩

theorem head_of_scan {text : List Char} {scanned : ℚ × List Char}
    (found : scanNumber decimalNotation text = some scanned) :
    ∃ char rest, text = char :: rest ∧ (char.isDigit = true ∨ char = '.') := by
  cases text with
  | nil => cases found
  | cons char rest =>
      refine ⟨char, rest, rfl, ?_⟩
      by_contra other
      rw [not_or, Bool.not_eq_true] at other
      have whole : (char :: rest).takeWhile Char.isDigit = [] := by
        rw [List.takeWhile_cons_of_neg (by simp [other.1])]
      have after : (char :: rest).dropWhile Char.isDigit = char :: rest := by
        rw [List.dropWhile_cons_of_neg (by simp [other.1])]
      have fraction : scanFraction Char.isDigit (char :: rest) = ([], char :: rest) := by
        unfold scanFraction
        split
        · next same => exact absurd (List.cons.inj same).1 other.2
        · rfl
      simp only [scanNumber, decimalNotation, whole, after, fraction] at found
      cases found

theorem no_space_before {text : List Char} {number : Bool × ℚ}
    (numeral : decimalNumeral text = some number) : text.dropWhile isSpace = text := by
  cases text with
  | nil => rfl
  | cons char rest =>
      apply List.dropWhile_cons_of_neg
      intro space
      simp only [isSpace, List.mem_cons, List.not_mem_nil, or_false, decide_eq_true_eq] at space
      rcases space with rfl | rfl | rfl | rfl | rfl | rfl <;> cases numeral

theorem strtoll_of_integer {text : List Char} {value : Int}
    (integer : decimalInteger text = some value) :
    strtoll text = ⟨(clamp value).1, [], (clamp value).2⟩ := by
  have start := no_space_before (numeral_of_integer integer)
  obtain ⟨⟨nonempty, digits⟩, same⟩ := decimal_integer_iff.mp integer
  unfold strtoll
  rw [start]
  dsimp only
  rw [List.takeWhile_eq_self_iff.mpr digits, List.dropWhile_eq_nil_iff.mpr digits,
    if_neg nonempty, same]

/-- What `strtoll` reads whole, and is no zero, is a decimal integer if it is a numeral. -/
theorem integer_of_strtoll {text : List Char} {number : Bool × ℚ}
    (numeral : decimalNumeral text = some number) (whole : (strtoll text).rest = [])
    (nonzero : (strtoll text).value ≠ 0) : ∃ value, decimalInteger text = some value := by
  obtain ⟨nonempty, digits, _⟩ := digits_of_strtoll whole nonzero
  rw [no_space_before numeral] at nonempty digits
  exact ⟨_, decimal_integer_iff.mpr ⟨⟨nonempty, digits⟩, rfl⟩⟩

theorem scan_word_of_head {char : Char} {rest : List Char} (negative : Bool)
    (head : char.isDigit = true ∨ char = '.') : scanWord negative (char :: rest) = none := by
  have letters : ('i' == char.toLower) = false ∧ ('n' == char.toLower) = false := by
    rcases head with digit | rfl
    · exact ⟨beq_false_of_ne (digit_ne digit (by decide)).symm,
        beq_false_of_ne (digit_ne digit (by decide)).symm⟩
    · decide
  simp only [scanWord, List.map_cons, List.isPrefixOf, letters, Bool.false_and,
    Bool.false_eq_true, if_false]

/-- No hexadecimal number is a decimal numeral as a whole. -/
theorem scan_magnitude_of_number {text : List Char} {magnitude : ℚ}
    (number : scanNumber decimalNotation text = some (magnitude, [])) :
    scanMagnitude text = some (magnitude, []) := by
  unfold scanMagnitude
  split
  · next marker digits =>
    by_cases hex : marker.toLower = 'x'
    · have none : marker.isDigit = false := by
        rw [← Bool.not_eq_true]
        intro digit
        exact absurd hex (digit_ne digit (by decide))
      have notPoint : marker ≠ '.' := by
        rintro rfl
        exact absurd hex (by decide)
      have fraction : scanFraction Char.isDigit (marker :: digits) = ([], marker :: digits) := by
        unfold scanFraction
        split
        · next same => exact absurd (List.cons.inj same).1 notPoint
        · rfl
      have exponent : scanExponent 'e' (marker :: digits) = (0, marker :: digits) := by
        rw [scanExponent, hex]
        dsimp only
        rw [if_neg (by simp)]
      have whole : ('0' :: marker :: digits).takeWhile Char.isDigit = ['0'] := by
        simp [none]
      have after : ('0' :: marker :: digits).dropWhile Char.isDigit = marker :: digits := by
        simp [none]
      simp [scanNumber, decimalNotation, whole, after, fraction, exponent] at number
    · rw [if_neg hex]
      exact number
  · exact number

theorem strtod_of_numeral {text : List Char} {negative : Bool} {magnitude : ℚ}
    (numeral : decimalNumeral text = some (negative, magnitude)) :
    strtod text =
      ⟨(roundMagnitude negative magnitude).1, [], (roundMagnitude negative magnitude).2⟩ := by
  obtain ⟨rfl, number⟩ := decimal_numeral_iff.mp numeral
  obtain ⟨char, rest, isText, head⟩ := head_of_scan number
  unfold strtod
  rw [no_space_before numeral]
  dsimp only
  rw [scan_magnitude_of_number number, isText, scan_word_of_head _ head]

theorem magnitude_nonneg {text rest : List Char} {magnitude : ℚ}
    (number : scanNumber decimalNotation text = some (magnitude, rest)) : 0 ≤ magnitude := by
  unfold scanNumber at number
  dsimp only [decimalNotation] at number
  split at number
  · cases number
  · rw [Option.some.injEq, Prod.mk.injEq] at number
    rw [← number.1]
    apply mul_nonneg
    · positivity
    · exact zpow_nonneg (by norm_num) _

/-- A magnitude in range is rounded to zero only if it is zero. -/
theorem round_magnitude_of_range {negative : Bool} {magnitude : ℚ} (nonneg : 0 ≤ magnitude)
    (inRange : (roundMagnitude negative magnitude).2 = false) :
    ∃ rounded, (roundMagnitude negative magnitude).1 = signedDouble negative rounded ∧
      (rounded = 0 ↔ magnitude = 0) := by
  unfold roundMagnitude at inRange ⊢
  split at inRange
  · cases inRange
  · next finite =>
    rw [if_neg finite]
    dsimp only at inRange ⊢
    refine ⟨_, rfl, ?_⟩
    rw [decide_eq_false_iff_not, not_and, not_not] at inRange
    by_cases small : magnitude < 1 / 2 ^ 1022 - 1 / 2 ^ 1076
    · rw [inRange small]
    · have least : (2 : ℚ) ^ (-1074 : Int) ≤ magnitude := by
        apply le_trans _ (not_lt.mp small)
        rw [one_div, one_div, ← zpow_natCast, ← zpow_natCast, ← zpow_neg, ← zpow_neg, le_sub_iff_add_le]
        calc (2 : ℚ) ^ (-1074 : Int) + 2 ^ (-1076 : Int)
            ≤ 2 ^ (-1023 : Int) + 2 ^ (-1023 : Int) :=
              add_le_add (zpow_le_zpow_right₀ (by norm_num) (by norm_num))
                (zpow_le_zpow_right₀ (by norm_num) (by norm_num))
          _ = 2 ^ (-1022 : Int) := by
            rw [← mul_two, ← zpow_add_one₀ two_ne_zero]
            congr 1
      have nonzero : magnitude ≠ 0 := by
        rintro rfl
        exact absurd least (not_le.mpr (zpow_pos two_pos _))
      have bounds := last_place_bounds nonzero
      rw [abs_of_nonneg nonneg] at bounds
      generalize isPlace : max (lastPlace magnitude) (-1074) = place
      have positive : (0 : ℚ) < 2 ^ place := zpow_pos two_pos _
      have reached : (2 : ℚ) ^ place ≤ magnitude := by
        rcases max_choice (lastPlace magnitude) (-1074) with own | lowest
        · rw [← isPlace, own]
          exact (le_mul_of_one_le_left (zpow_pos two_pos _).le (by norm_num)).trans bounds.1
        · rw [← isPlace, lowest]
          exact least
      have large : (1 : ℚ) ≤ magnitude / 2 ^ place := by
        rw [le_div_iff₀ positive, one_mul]
        exact reached
      have rounded : 1 ≤ roundHalfEven (magnitude / 2 ^ place) :=
        (Int.le_floor.mpr (by exact_mod_cast large)).trans (floor_le_round _)
      have kept : (roundHalfEven (magnitude / 2 ^ place) : ℚ) * 2 ^ place ≠ 0 := by
        apply mul_ne_zero _ positive.ne'
        exact_mod_cast (by omega : roundHalfEven (magnitude / 2 ^ place) ≠ 0)
      exact ⟨fun zero => absurd zero kept, fun zero => absurd zero nonzero⟩

end Foundation.Numerals
