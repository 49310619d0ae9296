import StreamDataProcessor.Arrow.Types
import StreamDataProcessor.Utils.Uvarint
import Mathlib.Data.List.TakeWhile
import Mathlib.Data.Nat.Digits.Lemmas

/-!
# Messages with a ten digit size

`wrapMessage` and `splitMessage` of `transport_utils.cpp`. A part is a place in the
event it points into; a size is a `size_t`. `errno` is the flag of `ERANGE`, which
`strtol` raises and nothing lowers.
-/

namespace StreamDataProcessor.Utils.TransportUtils

open Arrow Utils.Uvarint

set_option autoImplicit false

def messageSizeStringLength : Nat := 10

def connectMessage : Bytes := [99, 111, 110, 110, 101, 99, 116]

def endMessage : Bytes := [101, 110, 100]

def zeroByte : UInt8 := 48

def digitByte (digit : Nat) : UInt8 := UInt8.ofNat (48 + digit)

def decimal (size : Nat) : Bytes :=
  if size = 0 then [zeroByte] else (Nat.digits 10 size).reverse.map digitByte

def getSizeString (size : Nat) : Outcome Bytes :=
  let sizeString := decimal size
  if messageSizeStringLength < sizeString.length then .error (.exception "std::length_error")
  else .ok (List.replicate (messageSizeStringLength - sizeString.length) zeroByte ++ sizeString)

def wrapMessage (buffer : Bytes) : Outcome Bytes := do
  let messageSizeString ← getSizeString buffer.length
  .ok (messageSizeString ++ buffer)

def isSpace (byte : UInt8) : Bool := byte = 32 || (9 ≤ byte && byte ≤ 13)

def isDigit (byte : UInt8) : Bool := 48 ≤ byte && byte ≤ 57

def digitsValue (digits : Bytes) : Nat :=
  digits.foldl (fun value byte => 10 * value + (byte.toNat - 48)) 0

/-- `strtol` in base ten: the value and whether it was out of range. -/
def strtol (string : Bytes) : Int × Bool :=
  let string := string.dropWhile isSpace
  let negative := string.head? = some 45
  let digits := if negative ∨ string.head? = some 43 then string.tail else string
  let magnitude := digitsValue (digits.takeWhile isDigit)
  if negative then
    if 2 ^ 63 < magnitude then (-2 ^ 63, true) else (-magnitude, false)
  else
    if 2 ^ 63 ≤ magnitude then (2 ^ 63 - 1, true) else (magnitude, false)

def toSize (value : Int) : Nat := (value % 2 ^ 64).toNat

/-- The size, and whether `errno` is `ERANGE` afterwards. -/
def parseMessageSize (errno : Bool) (sizeString : Bytes) : Nat × Bool :=
  match sizeString.dropWhile (· = zeroByte) with
  | [] => (0, errno)
  | significant =>
      let (messageSize, outOfRange) := strtol significant
      let errno := errno || outOfRange
      (if errno then 0 else toSize messageSize, errno)

structure Part where
  offset : Nat
  size : Nat
  deriving DecidableEq, Repr

/-- `while (last_offset < length)`. The next offset depends on this one alone, so a
loop that takes more turns than there are offsets never ends. -/
def splitLoop (message : Bytes) : Nat → Bool → Nat → Outcome (List Part)
  | 0, _, _ => .error .diverges
  | fuel + 1, errno, lastOffset =>
      if lastOffset < message.length then
        let messagePartStartOffset := lastOffset + messageSizeStringLength
        if message.length < messagePartStartOffset then
          .error (.undefined "a size is read past the end of the message")
        else
          let (messageSize, errno) := parseMessageSize errno
            ((message.drop lastOffset).take messageSizeStringLength)
          let lastOffset := toSize (messagePartStartOffset + messageSize)
          (splitLoop message fuel errno lastOffset).map (⟨messagePartStartOffset, messageSize⟩ :: ·)
      else .ok []

def splitMessage (errno : Bool) (message : Bytes) : Outcome (List Part) :=
  splitLoop message (message.length + 1) errno 0

/-- What is read through a part; nothing is known of a part that runs past the end. -/
def Part.read (message : Bytes) (part : Part) : Option Bytes :=
  if part.offset + part.size ≤ message.length then
    some ((message.drop part.offset).take part.size)
  else none

def header (buffer : Bytes) : Bytes :=
  List.replicate (messageSizeStringLength - (decimal buffer.length).length) zeroByte ++
    decimal buffer.length

theorem decimal_length {size : Nat} (small : size < 10 ^ 10) :
    (decimal size).length ≤ messageSizeStringLength := by
  unfold decimal messageSizeStringLength
  split
  · simp
  · rw [List.length_map, List.length_reverse]
    exact (Nat.digits_length_le_iff (by decide) size).mpr small

theorem wrap_message_small {buffer : Bytes} (small : buffer.length < 10 ^ 10) :
    wrapMessage buffer = .ok (header buffer ++ buffer) := by
  have fits := decimal_length small
  unfold wrapMessage getSizeString
  dsimp only
  rw [if_neg (by omega)]
  rfl

theorem header_length {buffer : Bytes} (small : buffer.length < 10 ^ 10) :
    (header buffer).length = messageSizeStringLength := by
  have fits := decimal_length small
  rw [header, List.length_append, List.length_replicate]
  omega

theorem digit_byte_to_nat {digit : Nat} (small : digit < 10) :
    (digitByte digit).toNat = 48 + digit := by
  unfold digitByte
  rw [UInt8.toNat_ofNat']
  omega

theorem is_digit_digit_byte {digit : Nat} (small : digit < 10) :
    isDigit (digitByte digit) = true := by
  unfold isDigit
  rw [Bool.and_eq_true, decide_eq_true_eq, decide_eq_true_eq, UInt8.le_iff_toNat_le,
    UInt8.le_iff_toNat_le, digit_byte_to_nat small]
  change 48 ≤ _ ∧ _ ≤ 57
  omega

theorem digits_value_append (earlier : Bytes) (byte : UInt8) :
    digitsValue (earlier ++ [byte]) = 10 * digitsValue earlier + (byte.toNat - 48) := by
  simp [digitsValue, List.foldl_append]

theorem digits_value_of_digits {digits : List Nat} (small : ∀ digit ∈ digits, digit < 10) :
    digitsValue (digits.reverse.map digitByte) = Nat.ofDigits 10 digits := by
  induction digits with
  | nil => rfl
  | cons digit rest induction =>
      have own := small digit List.mem_cons_self
      have others := induction fun other member => small other (List.mem_cons_of_mem _ member)
      rw [List.reverse_cons, List.map_append, List.map_singleton, digits_value_append, others,
        digit_byte_to_nat own, Nat.ofDigits_cons]
      omega

theorem strtol_of_digits {digits : Bytes} (every : ∀ byte ∈ digits, isDigit byte = true)
    (small : digitsValue digits < 2 ^ 63) :
    strtol digits = ((digitsValue digits : Int), false) := by
  have unspaced : digits.dropWhile isSpace = digits := by
    cases digits with
    | nil => rfl
    | cons first rest =>
        have digit := every first List.mem_cons_self
        rw [List.dropWhile_cons_of_neg]
        revert digit
        simp only [isDigit, isSpace, Bool.and_eq_true, decide_eq_true_eq, Bool.or_eq_true,
          UInt8.le_iff_toNat_le, ← UInt8.toNat_inj, UInt8.reduceToNat]
        omega
  have unsigned : ∀ sign : UInt8, isDigit sign = false → digits.head? ≠ some sign := by
    intro sign other same
    cases digits with
    | nil => cases same
    | cons first rest =>
        have digit := every first List.mem_cons_self
        rw [Option.some.inj same, other] at digit
        cases digit
  have whole : digits.takeWhile isDigit = digits := List.takeWhile_eq_self_iff.mpr every
  simp only [strtol, unspaced, if_neg (not_or_intro (unsigned 45 rfl) (unsigned 43 rfl)), whole,
    if_neg (unsigned 45 rfl), if_neg (not_le_of_gt small)]

theorem decimal_digits {size : Nat} (byte : UInt8) (member : byte ∈ decimal size) :
    isDigit byte = true := by
  unfold decimal at member
  split at member
  · rw [List.mem_singleton.mp member]
    rfl
  · obtain ⟨digit, inside, rfl⟩ := List.mem_map.mp member
    exact is_digit_digit_byte (Nat.digits_lt_base (by decide) (List.mem_reverse.mp inside))

theorem drop_leading_zeros (count : Nat) {size : Nat} (positive : size ≠ 0) :
    (List.replicate count zeroByte ++ decimal size).dropWhile (· = zeroByte) = decimal size := by
  have nonempty : Nat.digits 10 size ≠ [] := Nat.digits_ne_nil_iff_ne_zero.mpr positive
  have leading := Nat.getLast_digit_ne_zero 10 positive
  have small := Nat.digits_lt_base (by decide) (List.getLast_mem nonempty)
  have shape : decimal size =
      digitByte ((Nat.digits 10 size).getLast nonempty) ::
        (Nat.digits 10 size).dropLast.reverse.map digitByte := by
    rw [decimal, if_neg positive]
    conv_lhs => rw [← List.dropLast_append_getLast nonempty]
    simp
  have significant : digitByte ((Nat.digits 10 size).getLast nonempty) ≠ zeroByte := by
    intro same
    have bytes := congrArg UInt8.toNat same
    rw [digit_byte_to_nat small] at bytes
    change 48 + _ = 48 at bytes
    omega
  rw [List.dropWhile_append_of_pos (by simp), shape, List.dropWhile_cons_of_neg (by simpa)]

theorem digits_value_decimal (size : Nat) : digitsValue (decimal size) = size := by
  unfold decimal
  split
  · next zero => rw [zero]; rfl
  · rw [digits_value_of_digits fun digit member => Nat.digits_lt_base (by decide) member,
      Nat.ofDigits_digits]

/-- A size string reads as the size it was made from, unless `errno` was left at `ERANGE`. -/
theorem parse_header {buffer : Bytes} (errno : Bool) (small : buffer.length < 10 ^ 10) :
    parseMessageSize errno (header buffer) = (if errno then 0 else buffer.length, errno) := by
  unfold parseMessageSize header
  by_cases empty : buffer.length = 0
  · rw [empty]
    cases errno <;> rfl
  · have read := strtol_of_digits (@decimal_digits buffer.length)
      (by rw [digits_value_decimal]; omega)
    rw [digits_value_decimal] at read
    have nonempty : decimal buffer.length ≠ [] := by
      rw [decimal, if_neg empty]
      simpa [Nat.digits_eq_nil_iff_eq_zero] using empty
    have size : toSize (buffer.length : Int) = buffer.length := by
      unfold toSize
      omega
    rw [drop_leading_zeros _ empty]
    cases shape : decimal buffer.length with
    | nil => exact absurd shape nonempty
    | cons first rest =>
        rw [shape] at read
        dsimp only
        rw [read, Bool.or_false, size]

end StreamDataProcessor.Utils.TransportUtils
