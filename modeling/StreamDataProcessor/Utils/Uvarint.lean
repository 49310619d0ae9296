import Mathlib.Data.List.Basic
import Mathlib.Tactic.Common
import Mathlib.Algebra.Order.Ring.Nat
import Mathlib.Tactic.Ring

/-!
# Unsigned varints

`uvarint_utils.cpp`: seven bits a byte, the lowest first, with the top bit set on
every byte but the last. The decoder takes its bytes from the front of a stream;
one that ends too early has lost the bytes it took.
-/

namespace StreamDataProcessor.Utils.Uvarint

set_option autoImplicit false

abbrev Bytes := List UInt8

inductive DecodeError where
  | eof
  | runtimeError (what : String)
  deriving DecidableEq, Repr

def encodeLoop : Nat → Nat → Nat → Bytes
  | 0, bits, _ => [UInt8.ofNat bits]
  | fuel + 1, bits, value =>
      if value > 0 then
        UInt8.ofNat (128 ||| bits) :: encodeLoop fuel (value &&& 127) (value >>> 7)
      else [UInt8.ofNat bits]

/-- `encode`, whose argument is cut to 32 bits. -/
def encode (value : Nat) : Bytes :=
  let value := value % 2 ^ 32
  encodeLoop 5 (value &&& 127) (value >>> 7)

def decodeFrom (shift result : Nat) : Bytes → Except DecodeError (Nat × Bytes)
  | [] => .error .eof
  | byte :: rest =>
      let bits := byte.toNat &&& 127
      if shift ≥ 28 ∧ bits >>> 4 ≠ 0 then
        .error (.runtimeError "decoding value is larger than 32bit uint")
      else
        let result := result ||| (bits <<< shift)
        if byte.toNat &&& 128 = 0 then .ok (result, rest)
        else if shift + 7 ≥ 32 then
          .error (.runtimeError
            "too many bytes when decoding varint, larger than 32bit uint")
        else decodeFrom (shift + 7) result rest

def decode (input : Bytes) : Except DecodeError (Nat × Bytes) := decodeFrom 0 0 input

theorem and_mask (value : Nat) : value &&& 127 = value % 128 :=
  Nat.and_two_pow_sub_one_eq_mod value 7

theorem shift_right_seven (value : Nat) : value >>> 7 = value / 128 :=
  Nat.shiftRight_eq_div_pow value 7

theorem or_more_bit {bits : Nat} (small : bits < 128) : 128 ||| bits = 128 + bits := by
  simpa using (Nat.shiftLeft_add_eq_or_of_lt (i := 7) small 1).symm

theorem and_more_bit {byte : Nat} (small : byte < 256) :
    byte &&& 128 = 0 ↔ byte < 128 := by
  have table : ∀ value : Fin 256, (value.val &&& 128 = 0 ↔ value.val < 128) := by
    decide +kernel
  exact table ⟨byte, small⟩

theorem or_shifted {result shift : Nat} (small : result < 2 ^ shift) (bits : Nat) :
    result ||| (bits <<< shift) = result + bits * 2 ^ shift := by
  rw [Nat.or_comm, ← Nat.shiftLeft_add_eq_or_of_lt small bits, Nat.shiftLeft_eq, Nat.add_comm]

theorem encode_loop_eq (fuel value : Nat) :
    encodeLoop (fuel + 1) (value &&& 127) (value >>> 7) =
      if value < 128 then [UInt8.ofNat value]
      else UInt8.ofNat (128 + value % 128) ::
        encodeLoop fuel ((value / 128) &&& 127) ((value / 128) >>> 7) := by
  rw [encodeLoop, and_mask, shift_right_seven]
  by_cases last : value < 128
  · rw [if_pos last, if_neg (by omega), Nat.mod_eq_of_lt last]
  · rw [if_neg last, if_pos (by omega), or_more_bit (Nat.mod_lt _ (by decide))]

theorem decode_from_last {shift result bits : Nat} (rest : Bytes) (small : bits < 128)
    (fits : shift ≥ 28 → bits < 16) (below : result < 2 ^ shift) :
    decodeFrom shift result (UInt8.ofNat bits :: rest) =
      .ok (result + bits * 2 ^ shift, rest) := by
  have byte : (UInt8.ofNat bits).toNat = bits := by
    rw [UInt8.toNat_ofNat']
    omega
  have inRange : ¬(shift ≥ 28 ∧ bits >>> 4 ≠ 0) := by
    rintro ⟨high, nonzero⟩
    rw [Nat.shiftRight_eq_div_pow] at nonzero
    have := fits high
    omega
  simp only [decodeFrom, byte, and_mask, Nat.mod_eq_of_lt small]
  rw [if_neg inRange, if_pos ((and_more_bit (by omega)).mpr small), or_shifted below]

theorem decode_from_more {shift result bits : Nat} (rest : Bytes) (small : bits < 128)
    (room : shift + 7 < 32) (below : result < 2 ^ shift) :
    decodeFrom shift result (UInt8.ofNat (128 + bits) :: rest) =
      decodeFrom (shift + 7) (result + bits * 2 ^ shift) rest := by
  have byte : (UInt8.ofNat (128 + bits)).toNat = 128 + bits := by
    rw [UInt8.toNat_ofNat']
    omega
  have payload : (128 + bits) % 128 = bits := by omega
  have more : ¬(128 + bits) &&& 128 = 0 := by
    rw [and_more_bit (by omega)]
    omega
  simp only [decodeFrom, byte, and_mask, payload]
  rw [if_neg (by omega), if_neg more, if_neg (by omega), or_shifted below]

theorem result_bound {shift result bits : Nat} (below : result < 2 ^ shift)
    (small : bits < 128) : result + bits * 2 ^ shift < 2 ^ (shift + 7) := by
  rw [Nat.pow_add]
  have scaled := Nat.mul_le_mul_right (2 ^ shift) (Nat.le_of_lt_succ small)
  omega

/-- One more group of bits has room when the value does not fit in the first. -/
theorem room_for_more {shift value : Nat} (fits : value < 2 ^ (32 - shift))
    (more : ¬value < 128) : shift + 7 < 32 ∧ value / 128 < 2 ^ (32 - (shift + 7)) := by
  have room : 7 < 32 - shift := by
    by_contra short
    have bound : 2 ^ (32 - shift) ≤ 2 ^ 7 := Nat.pow_le_pow_right (by decide) (by omega)
    omega
  refine ⟨by omega, ?_⟩
  rw [Nat.div_lt_iff_lt_mul (by decide)]
  have split : 2 ^ (32 - shift) = 2 ^ (32 - (shift + 7)) * 128 := by
    rw [← Nat.pow_add 2 _ 7]
    congr 1
    omega
  omega

theorem fits_last {shift value : Nat} (fits : value < 2 ^ (32 - shift)) :
    shift ≥ 28 → value < 16 := by
  intro high
  have bound : 2 ^ (32 - shift) ≤ 2 ^ 4 := Nat.pow_le_pow_right (by decide) (by omega)
  omega

theorem decode_encode_loop (fuel shift result value : Nat) (rest : Bytes)
    (fits : value < 2 ^ (32 - shift)) (enough : value < 2 ^ (7 * (fuel + 1)))
    (below : result < 2 ^ shift) :
    decodeFrom shift result (encodeLoop (fuel + 1) (value &&& 127) (value >>> 7) ++ rest) =
      .ok (result + value * 2 ^ shift, rest) := by
  induction fuel generalizing shift result value with
  | zero =>
      rw [encode_loop_eq, if_pos (by simpa using enough)]
      exact decode_from_last rest (by simpa using enough) (fits_last fits) below
  | succ fuel induction =>
      rw [encode_loop_eq]
      by_cases last : value < 128
      · rw [if_pos last]
        exact decode_from_last rest last (fits_last fits) below
      · obtain ⟨room, fitsNext⟩ := room_for_more fits last
        have small : value % 128 < 128 := Nat.mod_lt _ (by decide)
        have enoughNext : value / 128 < 2 ^ (7 * (fuel + 1)) := by
          rw [Nat.div_lt_iff_lt_mul (by decide), ← Nat.pow_add 2 _ 7]
          exact enough
        rw [if_neg last, List.cons_append, decode_from_more _ small room below,
          induction (shift + 7) _ (value / 128) fitsNext enoughNext (result_bound below small)]
        have regroup : value % 128 * 2 ^ shift + value / 128 * 2 ^ (shift + 7) =
            value * 2 ^ shift := by
          rw [Nat.pow_add, show value / 128 * (2 ^ shift * 2 ^ 7) =
            (128 * (value / 128)) * 2 ^ shift by ring, ← Nat.add_mul, Nat.mod_add_div]
        rw [Nat.add_assoc, regroup]

/-- What `encode` writes, `decode` reads, whatever follows. -/
theorem decode_encode {value : Nat} (small : value < 2 ^ 32) (rest : Bytes) :
    decode (encode value ++ rest) = .ok (value, rest) := by
  have decoded := decode_encode_loop 4 0 0 value rest small
    (small.trans (by decide)) (by decide)
  rw [decode, encode, Nat.mod_eq_of_lt small]
  simpa using decoded

theorem decode_part_of_encode_loop (fuel shift result value : Nat) (part suffix : Bytes)
    (fits : value < 2 ^ (32 - shift)) (below : result < 2 ^ shift) (proper : suffix ≠ [])
    (split : part ++ suffix = encodeLoop fuel (value &&& 127) (value >>> 7)) :
    decodeFrom shift result part = .error .eof := by
  have suffixLength := List.length_pos_of_ne_nil proper
  induction fuel generalizing shift result value part with
  | zero =>
      have length := congrArg List.length split
      simp only [encodeLoop, List.length_append, List.length_cons, List.length_nil] at length
      obtain rfl : part = [] := List.eq_nil_of_length_eq_zero (by omega)
      rfl
  | succ fuel induction =>
      cases part with
      | nil => rfl
      | cons byte rest =>
          rw [encode_loop_eq] at split
          by_cases last : value < 128
          · rw [if_pos last] at split
            have length := congrArg List.length split
            simp only [List.length_append, List.length_cons, List.length_nil] at length
            omega
          · rw [if_neg last, List.cons_append, List.cons.injEq] at split
            obtain ⟨rfl, tail⟩ := split
            obtain ⟨room, fitsNext⟩ := room_for_more fits last
            have small : value % 128 < 128 := Nat.mod_lt _ (by decide)
            rw [decode_from_more _ small room below]
            exact induction (shift + 7) _ (value / 128) rest fitsNext
              (result_bound below small) tail

/-- A header cut short reads as the end of the stream. -/
theorem decode_part_of_encode {value : Nat} (small : value < 2 ^ 32) {part suffix : Bytes}
    (proper : suffix ≠ []) (split : part ++ suffix = encode value) :
    decode part = .error .eof := by
  refine decode_part_of_encode_loop 5 0 0 value part suffix small (by decide) proper ?_
  rw [split, encode, Nat.mod_eq_of_lt small]

theorem encode_loop_length_le (fuel value count : Nat)
    (fits : value < 2 ^ (7 * (count + 1))) :
    (encodeLoop fuel (value &&& 127) (value >>> 7)).length ≤ count + 1 := by
  induction fuel generalizing value count with
  | zero => simp [encodeLoop]
  | succ fuel induction =>
      rw [encode_loop_eq]
      by_cases last : value < 128
      · simp [last]
      · rw [if_neg last, List.length_cons]
        cases count with
        | zero => exact absurd (by simpa using fits) last
        | succ count =>
            refine Nat.succ_le_succ (induction _ _ ?_)
            rw [Nat.div_lt_iff_lt_mul (by decide), ← Nat.pow_add 2 _ 7]
            exact fits

theorem lt_of_encode_loop_length (fuel value : Nat) (enough : value < 2 ^ (7 * (fuel + 1))) :
    value < 2 ^ (7 * (encodeLoop (fuel + 1) (value &&& 127) (value >>> 7)).length) := by
  induction fuel generalizing value with
  | zero =>
      rw [encode_loop_eq, if_pos (by simpa using enough)]
      simpa using enough
  | succ fuel induction =>
      rw [encode_loop_eq]
      by_cases last : value < 128
      · simp [last]
      · have next := induction (value / 128) (by
          rw [Nat.div_lt_iff_lt_mul (by decide), ← Nat.pow_add 2 _ 7]
          exact enough)
        rw [Nat.div_lt_iff_lt_mul (by decide), ← Nat.pow_add 2 _ 7] at next
        rw [if_neg last, List.length_cons]
        exact next

theorem encode_length_pos (value : Nat) : 0 < (encode value).length := by
  rw [encode, encode_loop_eq]
  split <;> simp

/-- `encode` writes no more bytes than a value of seven bits a byte needs. -/
theorem encode_length_le {value count : Nat} (small : value < 2 ^ 32) (positive : 0 < count)
    (fits : value < 2 ^ (7 * count)) : (encode value).length ≤ count := by
  obtain ⟨count, rfl⟩ := Nat.exists_eq_succ_of_ne_zero positive.ne'
  rw [encode, Nat.mod_eq_of_lt small]
  exact encode_loop_length_le 5 value count fits

theorem encode_length_mono {shorter longer : Nat} (le : shorter ≤ longer)
    (small : longer < 2 ^ 32) : (encode shorter).length ≤ (encode longer).length := by
  refine encode_length_le (by omega) (encode_length_pos longer) ?_
  have bound := lt_of_encode_loop_length 4 longer (small.trans (by decide))
  rw [encode, Nat.mod_eq_of_lt small]
  exact lt_of_le_of_lt le bound

theorem decode_from_consumes {shift result value : Nat} {input rest : Bytes}
    (aligned : 7 ∣ shift) (within : shift ≤ 28) (below : result < 2 ^ shift)
    (decoded : decodeFrom shift result input = .ok (value, rest)) :
    ∃ used, input = used ++ rest ∧ 0 < used.length ∧
      value < 2 ^ (shift + 7 * used.length) ∧ value < 2 ^ 32 := by
  induction input generalizing shift result with
  | nil => cases decoded
  | cons byte bytes induction =>
      have small : byte.toNat % 128 < 128 := Nat.mod_lt _ (by decide)
      have bound := result_bound below small
      simp only [decodeFrom, and_mask, or_shifted below] at decoded
      split at decoded
      · cases decoded
      · next inRange =>
        split at decoded
        · simp only [Except.ok.injEq, Prod.mk.injEq] at decoded
          obtain ⟨rfl, rfl⟩ := decoded
          refine ⟨[byte], rfl, Nat.one_pos, by simpa using bound, ?_⟩
          by_cases high : shift ≥ 28
          · obtain rfl : shift = 28 := by omega
            rw [Nat.shiftRight_eq_div_pow] at inRange
            omega
          · exact lt_of_lt_of_le bound (Nat.pow_le_pow_right (by decide) (by omega))
        · split at decoded
          · cases decoded
          · next room =>
            obtain ⟨used, bytesSplit, positive, fits, representable⟩ :=
              induction (by omega) (by omega) bound decoded
            refine ⟨byte :: used, by rw [bytesSplit]; rfl, by simp, ?_, representable⟩
            rw [List.length_cons, show shift + 7 * (used.length + 1) =
              shift + 7 + 7 * used.length by ring]
            exact fits

/-- The bytes `decode` takes are at least as many as `encode` writes. -/
theorem decode_consumes {value : Nat} {input rest : Bytes}
    (decoded : decode input = .ok (value, rest)) :
    value < 2 ^ 32 ∧ (encode value).length + rest.length ≤ input.length := by
  obtain ⟨used, rfl, positive, fits, small⟩ :=
    (@decode_from_consumes 0 0) (by decide) (by decide) (by decide) decoded
  have length := encode_length_le small positive (by simpa using fits)
  refine ⟨small, ?_⟩
  rw [List.length_append]
  omega

end StreamDataProcessor.Utils.Uvarint
