import StreamDataProcessor.Foundation.Continued
import StreamDataProcessor.Utils.Uvarint
import Mathlib.Data.Nat.Digits.Lemmas

/-!
# What the varint decoder accepts

The streams that `decode` reads begin with the groups of seven bits of a value of 32 bits, in at
most five bytes. It fails at the end of a stream of at most four bytes that all continue, and
with a range error on every other stream.
-/

namespace StreamDataProcessor.Utils.Uvarint

open Foundation.Continued

set_option autoImplicit false

def continues (byte : UInt8) : Bool := decide (128 ≤ byte.toNat)

def payload (byte : UInt8) : Nat := byte.toNat % 128

/-- The value of groups of seven bits, the lowest first. -/
def groupsValue (bytes : Bytes) : Nat := Nat.ofDigits 128 (bytes.map payload)

/-- An encoding of a value of 32 bits, not always the shortest one. -/
structure Leb128 (bytes : Bytes) (value : Nat) : Prop where
  ended : Ended continues bytes
  length : bytes.length ≤ 5
  denotes : groupsValue bytes = value
  representable : value < 2 ^ 32

def rangeErrors : List DecodeError :=
  [.runtimeError "decoding value is larger than 32bit uint",
    .runtimeError "too many bytes when decoding varint, larger than 32bit uint"]

theorem payload_lt (byte : UInt8) : payload byte < 128 := Nat.mod_lt _ (by decide)

theorem groups_value_cons (byte : UInt8) (rest : Bytes) :
    groupsValue (byte :: rest) = payload byte + 128 * groupsValue rest := by
  rw [groupsValue, List.map_cons, Nat.ofDigits_cons]
  rfl

theorem groups_value_lt (bytes : Bytes) : groupsValue bytes < 2 ^ (7 * bytes.length) := by
  have bound := Nat.ofDigits_lt_base_pow_length (b := 128) (l := bytes.map payload) (by decide) (by
    intro digit member
    obtain ⟨byte, _, rfl⟩ := List.mem_map.mp member
    exact payload_lt byte)
  rw [List.length_map] at bound
  rw [Nat.pow_mul]
  exact bound

theorem byte_determined {left right : UInt8} (marks : continues left = continues right)
    (payloads : payload left = payload right) : left = right := by
  rw [continues, continues, decide_eq_decide] at marks
  rw [payload, payload] at payloads
  apply UInt8.toNat_inj.mp
  have leftBound := left.toNat_lt
  have rightBound := right.toNat_lt
  omega

section Step

variable {groups result : Nat}

theorem decode_from_cons (below : result < 2 ^ (7 * groups)) (byte : UInt8) (rest : Bytes) :
    decodeFrom (7 * groups) result (byte :: rest) =
      if 4 ≤ groups ∧ 16 ≤ payload byte then
        .error (.runtimeError "decoding value is larger than 32bit uint")
      else if continues byte = false then .ok (result + payload byte * 2 ^ (7 * groups), rest)
      else if 4 ≤ groups then
        .error (.runtimeError "too many bytes when decoding varint, larger than 32bit uint")
      else decodeFrom (7 * (groups + 1)) (result + payload byte * 2 ^ (7 * groups)) rest := by
  have high : (7 * groups ≥ 28 ∧ payload byte >>> 4 ≠ 0) ↔ (4 ≤ groups ∧ 16 ≤ payload byte) := by
    rw [Nat.shiftRight_eq_div_pow]
    omega
  have last : byte.toNat &&& 128 = 0 ↔ continues byte = false := by
    rw [and_more_bit byte.toNat_lt, continues, decide_eq_false_iff_not, Nat.not_le]
  have many : 7 * groups + 7 ≥ 32 ↔ 4 ≤ groups := by omega
  have masked : byte.toNat &&& 127 = payload byte := and_mask byte.toNat
  rw [decodeFrom]
  simp only [masked, or_shifted below, high, last, many]
  rfl

theorem below_next (below : result < 2 ^ (7 * groups)) (byte : UInt8) :
    result + payload byte * 2 ^ (7 * groups) < 2 ^ (7 * (groups + 1)) :=
  result_bound below (payload_lt byte)

theorem fits_iff (within : groups ≤ 4) (below : result < 2 ^ (7 * groups)) (byte : UInt8) :
    ¬(4 ≤ groups ∧ 16 ≤ payload byte) ↔ result + payload byte * 2 ^ (7 * groups) < 2 ^ 32 := by
  rcases Nat.lt_or_eq_of_le within with early | rfl
  · have bound := below_next below byte
    have room : 2 ^ (7 * (groups + 1)) ≤ 2 ^ 28 := Nat.pow_le_pow_right (by decide) (by omega)
    omega
  · omega

theorem groups_value_shifted (byte : UInt8) (used : Bytes) :
    result + 2 ^ (7 * groups) * groupsValue (byte :: used) =
      result + payload byte * 2 ^ (7 * groups) + 2 ^ (7 * (groups + 1)) * groupsValue used := by
  rw [groups_value_cons, Nat.mul_succ, Nat.pow_add]
  ring

end Step

theorem decode_from_ok_iff {groups result value : Nat} {input rest : Bytes} (within : groups ≤ 4)
    (below : result < 2 ^ (7 * groups)) :
    decodeFrom (7 * groups) result input = .ok (value, rest) ↔
      ∃ used, input = used ++ rest ∧ Ended continues used ∧ groups + used.length ≤ 5 ∧
        result + 2 ^ (7 * groups) * groupsValue used = value ∧ value < 2 ^ 32 := by
  induction input generalizing groups result with
  | nil =>
      constructor
      · intro decoded
        cases decoded
      · intro found
        obtain ⟨used, split, ended, _⟩ := found
        rw [(List.append_eq_nil_iff.mp split.symm).1] at ended
        exact absurd ended not_ended_nil
  | cons byte stream induction =>
      have fits := fits_iff within below byte
      rw [decode_from_cons below, ended_front_cons fun used => groups + used.length ≤ 5 ∧
        result + 2 ^ (7 * groups) * groupsValue used = value ∧ value < 2 ^ 32]
      simp only [groups_value_shifted]
      by_cases refused : 4 ≤ groups ∧ 16 ≤ payload byte
      · have large : 2 ^ 32 ≤ result + payload byte * 2 ^ (7 * groups) :=
          Nat.not_lt.mp fun small => fits.mpr small refused
        rw [if_pos refused]
        constructor
        · intro decoded
          cases decoded
        · intro cases
          rcases cases with ⟨_, _, _, same, small⟩ | ⟨_, _, _, _, _, same, small⟩
          all_goals omega
      · have small := fits.mp refused
        rw [if_neg refused]
        cases mark : continues byte with
        | false =>
            rw [if_pos rfl, Except.ok.injEq, Prod.mk.injEq]
            have single : groupsValue [] = 0 := rfl
            rw [single, Nat.mul_zero, Nat.add_zero, List.length_singleton]
            constructor
            · intro decoded
              exact .inl ⟨rfl, decoded.2, by omega, decoded.1, decoded.1 ▸ small⟩
            · intro cases
              rcases cases with ⟨_, same, _, value, _⟩ | ⟨more, _⟩
              · exact ⟨value, same⟩
              · cases more
        | true =>
            rw [if_neg (by decide)]
            by_cases late : 4 ≤ groups
            · rw [if_pos late]
              constructor
              · intro decoded
                cases decoded
              · intro cases
                rcases cases with ⟨last, _⟩ | ⟨_, used, _, ended, short, _⟩
                · cases last
                · have positive := ended_length ended
                  rw [List.length_cons] at short
                  omega
            · rw [if_neg late, induction (by omega) (below_next below byte)]
              simp only [List.length_cons, true_and, Bool.true_eq_false, false_and, false_or]
              simp only [Nat.add_assoc groups, Nat.add_comm 1]

/-- What `decode` takes from a stream, and what it leaves. -/
theorem decode_ok_iff {value : Nat} {input rest : Bytes} :
    decode input = .ok (value, rest) ↔ ∃ used, input = used ++ rest ∧ Leb128 used value := by
  have general := @decode_from_ok_iff 0 0 value input rest (by decide) (by decide)
  simp only [Nat.mul_zero, Nat.pow_zero, Nat.zero_add, Nat.one_mul] at general
  rw [decode, general]
  constructor
  · intro found
    obtain ⟨used, split, ended, length, value, representable⟩ := found
    exact ⟨used, split, ended, length, value, representable⟩
  · intro found
    obtain ⟨used, split, encoding⟩ := found
    exact ⟨used, split, encoding.ended, encoding.length, encoding.denotes, encoding.representable⟩

theorem decode_from_eof_iff {groups result : Nat} {input : Bytes} (within : groups ≤ 4)
    (below : result < 2 ^ (7 * groups)) :
    decodeFrom (7 * groups) result input = .error .eof ↔
      groups + input.length ≤ 4 ∧ ∀ byte ∈ input, continues byte = true := by
  induction input generalizing groups result with
  | nil => simpa [decodeFrom] using within
  | cons byte stream induction =>
      rw [decode_from_cons below, List.forall_mem_cons, List.length_cons]
      by_cases late : 4 ≤ groups
      · have refused : ¬(groups + (stream.length + 1) ≤ 4) := by omega
        simp only [late, true_and, refused, false_and, iff_false, if_true]
        split
        · simp
        · split <;> simp
      · rw [if_neg (fun refused => late refused.1)]
        cases mark : continues byte with
        | false => simp
        | true =>
            rw [if_neg (by decide), if_neg late,
              induction (by omega) (below_next below byte)]
            simp only [true_and, Nat.add_assoc groups, Nat.add_comm 1]

theorem decode_eof_iff {input : Bytes} :
    decode input = .error .eof ↔ input.length ≤ 4 ∧ ∀ byte ∈ input, continues byte = true := by
  have general := @decode_from_eof_iff 0 0 input (by decide) (by decide)
  rw [Nat.zero_add] at general
  exact general

theorem decode_from_error {shift result : Nat} {input : Bytes} {error : DecodeError}
    (failed : decodeFrom shift result input = .error error) :
    error = .eof ∨ error ∈ rangeErrors := by
  induction input generalizing shift result with
  | nil => exact .inl (Except.error.inj failed).symm
  | cons byte rest induction =>
      rw [decodeFrom] at failed
      dsimp only at failed
      split at failed
      · rw [← Except.error.inj failed]
        exact .inr List.mem_cons_self
      · split at failed
        · cases failed
        · split at failed
          · rw [← Except.error.inj failed]
            exact .inr (List.mem_cons_of_mem _ List.mem_cons_self)
          · exact induction failed

theorem encode_encodes {value : Nat} (small : value < 2 ^ 32) : Leb128 (encode value) value := by
  have decoded := decode_encode small []
  rw [List.append_nil] at decoded
  obtain ⟨used, split, encoding⟩ := decode_ok_iff.mp decoded
  rw [split, List.append_nil]
  exact encoding

/-- No encoding of a value is shorter than the one that `encode` writes, and no other one is
as short. -/
theorem encode_shortest {value : Nat} {other : Bytes} (encoding : Leb128 other value) :
    (encode value).length ≤ other.length ∧
      (other.length = (encode value).length → other = encode value) := by
  have own := encode_encodes encoding.representable
  have bound := groups_value_lt other
  rw [encoding.denotes] at bound
  refine ⟨encode_length_le encoding.representable (ended_length encoding.ended) bound, ?_⟩
  intro same
  apply ended_unique (fun left right => byte_determined) encoding.ended own.ended
  apply Nat.ofDigits_inj_of_len_eq (b := 128) (by decide) (by simpa using same)
  · intro digit member
    obtain ⟨byte, _, rfl⟩ := List.mem_map.mp member
    exact payload_lt byte
  · intro digit member
    obtain ⟨byte, _, rfl⟩ := List.mem_map.mp member
    exact payload_lt byte
  · exact encoding.denotes.trans own.denotes.symm

/-- The decoder reads exactly the encodings of at most five bytes, tells a stream that ends too
early from one that is out of range, and undoes the encoder, whose encodings are the shortest. -/
theorem decodes_leb128 :
    (∀ (input rest : Bytes) (value : Nat), decode input = .ok (value, rest) ↔
      ∃ used, input = used ++ rest ∧ Leb128 used value) ∧
    (∀ input : Bytes, decode input = .error .eof ↔
      input.length ≤ 4 ∧ ∀ byte ∈ input, continues byte = true) ∧
    (∀ input : Bytes, (∃ error ∈ rangeErrors, decode input = .error error) ↔
      ¬(∃ used rest value, input = used ++ rest ∧ Leb128 used value) ∧
        ¬(input.length ≤ 4 ∧ ∀ byte ∈ input, continues byte = true)) ∧
    ∀ value : Fin (2 ^ 32),
      Leb128 (encode value) value ∧
      (∀ other, Leb128 other value → (encode value).length ≤ other.length ∧
        (other.length = (encode value).length → other = encode value)) ∧
      ∀ suffix, decode (encode value ++ suffix) = .ok (value.val, suffix) := by
  refine ⟨fun input rest value => decode_ok_iff, fun input => decode_eof_iff, ?_, ?_⟩
  · intro input
    rw [← decode_eof_iff]
    constructor
    · intro failed
      obtain ⟨error, listed, failed⟩ := failed
      constructor
      · intro found
        obtain ⟨used, rest, value, accepted⟩ := found
        rw [decode_ok_iff.mpr ⟨used, accepted⟩] at failed
        cases failed
      · intro ended
        rw [ended, Except.error.injEq] at failed
        rw [← failed] at listed
        revert listed
        decide
    · intro other
      cases outcome : decode input with
      | ok answer =>
          obtain ⟨value, rest⟩ := answer
          obtain ⟨used, accepted⟩ := decode_ok_iff.mp outcome
          exact absurd ⟨used, rest, value, accepted⟩ other.1
      | error error =>
          rcases decode_from_error outcome with rfl | listed
          · exact absurd outcome other.2
          · exact ⟨error, listed, rfl⟩
  · intro value
    refine ⟨encode_encodes value.isLt, fun other => encode_shortest, ?_⟩
    intro suffix
    exact decode_encode value.isLt suffix

end StreamDataProcessor.Utils.Uvarint
