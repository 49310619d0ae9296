import StreamDataProcessor.Foundation.Effect
import StreamDataProcessor.Foundation.Framing
import StreamDataProcessor.Utils.TransportUtils

/-!
# Splitting a message

The turns of `splitMessage`, on wrapped buffers and on any bytes. A size string has
ten bytes, so that its value never is out of range and `errno` stays as it was.
-/

namespace StreamDataProcessor.Utils.MessageSplitting

open Arrow Foundation.Effect Foundation.Framing Utils.Uvarint Utils.TransportUtils

set_option autoImplicit false

section Digits

theorem digits_value_lt (digits : Bytes) (every : ∀ byte ∈ digits, isDigit byte = true) :
    digitsValue digits < 10 ^ digits.length := by
  induction digits using List.reverseRecOn with
  | nil => decide
  | append_singleton earlier byte induction =>
      have own := every byte (List.mem_append_right _ (List.mem_singleton_self byte))
      have others := induction fun other member => every other (List.mem_append_left _ member)
      simp only [isDigit, Bool.and_eq_true, decide_eq_true_eq, UInt8.le_iff_toNat_le,
        UInt8.reduceToNat] at own
      rw [digits_value_append, List.length_append, List.length_singleton, Nat.pow_succ]
      omega

/-- No more than eighteen characters hold a number that is out of range. -/
theorem strtol_in_range {string : Bytes} (short : string.length ≤ 18) :
    (strtol string).2 = false := by
  have bounded : ∀ digits : Bytes, digits.length ≤ 18 →
      digitsValue (digits.takeWhile isDigit) < 2 ^ 63 := by
    intro digits few
    have value := digits_value_lt (digits.takeWhile isDigit) fun byte member =>
      (List.mem_takeWhile_imp member)
    have length := (List.takeWhile_prefix (l := digits) isDigit).length_le
    have power : 10 ^ (digits.takeWhile isDigit).length ≤ 10 ^ 18 :=
      Nat.pow_le_pow_right (by decide) (length.trans few)
    omega
  have unspaced : (string.dropWhile isSpace).length ≤ 18 :=
    (List.dropWhile_suffix isSpace).length_le.trans short
  have unsigned : (string.dropWhile isSpace).tail.length ≤ 18 := by
    rw [List.length_tail]
    omega
  unfold strtol
  dsimp only
  have small : digitsValue ((if (string.dropWhile isSpace).head? = some 45 ∨
      (string.dropWhile isSpace).head? = some 43 then (string.dropWhile isSpace).tail
      else string.dropWhile isSpace).takeWhile isDigit) < 2 ^ 63 := by
    split
    · exact bounded _ unsigned
    · exact bounded _ unspaced
  rw [if_neg (not_lt_of_gt small), if_neg (not_le_of_gt small)]
  split <;> rfl

end Digits

theorem parse_raised (sizeString : Bytes) : parseMessageSize true sizeString = (0, true) := by
  unfold parseMessageSize
  split <;> rfl

theorem parse_keeps_errno {sizeString : Bytes} (errno : Bool)
    (ten : sizeString.length = messageSizeStringLength) :
    (parseMessageSize errno sizeString).2 = errno := by
  have short := (List.dropWhile_suffix (l := sizeString) (· = zeroByte)).length_le
  rw [messageSizeStringLength] at ten
  unfold parseMessageSize
  split
  · rfl
  · next significant _ =>
      have kept := @strtol_in_range (sizeString.dropWhile (· = zeroByte)) (by omega)
      dsimp only
      rw [kept, Bool.or_false]

section Turn

variable {sizeString buffer before after : Bytes} {errno : Bool}

theorem split_loop_next (fuel : Nat) (ten : sizeString.length = messageSizeStringLength) :
    splitLoop (before ++ (sizeString ++ after)) (fuel + 1) errno before.length =
      (splitLoop (before ++ (sizeString ++ after)) fuel errno
        (toSize (before.length + 10 + (parseMessageSize errno sizeString).1 : Nat))).map
          (⟨before.length + 10, (parseMessageSize errno sizeString).1⟩ :: ·) := by
  have shorter : before.length < (before ++ (sizeString ++ after)).length := by
    simp only [List.length_append, ten, messageSizeStringLength]
    omega
  have within : ¬(before ++ (sizeString ++ after)).length <
      before.length + messageSizeStringLength := by
    simp only [List.length_append, ten]
    omega
  have taken : ((before ++ (sizeString ++ after)).drop before.length).take
      messageSizeStringLength = sizeString := by
    rw [List.drop_left, ← ten, List.take_left]
  have kept := parse_keeps_errno errno ten
  rw [splitLoop, if_pos shorter]
  dsimp only
  rw [if_neg within, taken, kept]
  rfl

theorem split_loop_turn (fuel : Nat) (small : buffer.length < 10 ^ 10)
    (sized : before.length + 10 + buffer.length < 2 ^ 64) :
    splitLoop (before ++ (header buffer ++ after)) (fuel + 1) errno before.length =
      (splitLoop (before ++ (header buffer ++ after)) fuel errno
        (before.length + 10 + if errno then 0 else buffer.length)).map
          (⟨before.length + 10, if errno then 0 else buffer.length⟩ :: ·) := by
  have ten : (header buffer).length = messageSizeStringLength := header_length small
  have next : toSize (before.length + 10 + (if errno then 0 else buffer.length) : Nat) =
      before.length + 10 + if errno then 0 else buffer.length := by
    unfold toSize
    split <;> omega
  rw [split_loop_next fuel ten, parse_header errno small, next]

/-- The loop stops in the size it finds cut. -/
theorem split_loop_cut_size {message : Bytes} {offset : Nat} (fuel : Nat)
    (started : offset < message.length) (cut : message.length < offset + 10) :
    splitLoop message (fuel + 1) errno offset =
      .error (.undefined "a size is read past the end of the message") := by
  rw [splitLoop, if_pos started]
  exact if_pos cut

theorem split_loop_end (fuel : Nat) (message : Bytes) :
    splitLoop message (fuel + 1) errno message.length = .ok [] := by
  rw [splitLoop, if_neg (lt_irrefl _)]

end Turn

section Whole

variable {errno : Bool}

theorem read_own_bytes {before buffer after : Bytes} (small : buffer.length < 10 ^ 10) :
    Part.read (before ++ (header buffer ++ (buffer ++ after)))
      ⟨before.length + 10, buffer.length⟩ = some buffer := by
  have ten : (header buffer).length = 10 := header_length small
  have start : (before ++ header buffer).length = before.length + 10 := by
    rw [List.length_append, ten]
  have dropped : (before ++ (header buffer ++ (buffer ++ after))).drop (before.length + 10) =
      buffer ++ after := by
    rw [← List.append_assoc, ← start, List.drop_left]
  rw [Part.read, if_pos (by simp only [List.length_append, ten]; omega), dropped, List.take_left]

theorem split_loop_of_whole (group : List Bytes) (before : Bytes) (fuel : Nat)
    (small : ∀ buffer ∈ group, buffer.length < 10 ^ 10)
    (readable : errno = true → ∀ buffer ∈ group, buffer = [])
    (sized : (before ++ stream header group).length < 2 ^ 64)
    (enough : (stream header group).length < fuel) :
    ∃ parts, splitLoop (before ++ stream header group) fuel errno before.length = .ok parts ∧
      parts.map (·.read (before ++ stream header group)) = group.map some := by
  induction group generalizing before fuel with
  | nil =>
      obtain ⟨fuel, rfl⟩ := Nat.exists_eq_succ_of_ne_zero (by omega : fuel ≠ 0)
      rw [stream_nil, List.append_nil]
      exact ⟨[], split_loop_end fuel before, rfl⟩
  | cons buffer rest induction =>
      obtain ⟨fuel, rfl⟩ := Nat.exists_eq_succ_of_ne_zero (by omega : fuel ≠ 0)
      have own := small buffer List.mem_cons_self
      have ten : (header buffer).length = 10 := header_length own
      have taken : (if errno then 0 else buffer.length) = buffer.length := by
        split
        · next raised => rw [readable raised buffer List.mem_cons_self]; rfl
        · rfl
      rw [stream_cons] at sized enough ⊢
      have reach : before.length + 10 + buffer.length < 2 ^ 64 := by
        simp only [List.length_append, ten] at sized
        omega
      have regrouped : before ++ (header buffer ++ (buffer ++ stream header rest)) =
          (before ++ frame header buffer) ++ stream header rest := by
        simp [frame]
      have advanced : (before ++ frame header buffer).length =
          before.length + 10 + buffer.length := by
        simp only [frame, List.length_append, ten]
        omega
      obtain ⟨parts, split, reads⟩ := induction (before ++ frame header buffer) fuel
        (fun other member => small other (List.mem_cons_of_mem _ member))
        (fun raised other member => readable raised other (List.mem_cons_of_mem _ member))
        (by rw [← regrouped]; exact sized)
        (by simp only [List.length_append, ten] at enough; omega)
      rw [← regrouped, advanced] at split
      rw [← regrouped] at reads
      refine ⟨⟨before.length + 10, buffer.length⟩ :: parts, ?_, ?_⟩
      · rw [split_loop_turn fuel own reach, taken, split]
        rfl
      · rw [List.map_cons, List.map_cons, reads, read_own_bytes own]

theorem read_some {message bytes : Bytes} {part : Part} (read : part.read message = some bytes) :
    part.offset + part.size ≤ message.length ∧
      (message.drop part.offset).take part.size = bytes := by
  unfold Part.read at read
  split at read
  · next within => exact ⟨within, Option.some.inj read⟩
  · cases read

theorem wrap_all_small {buffers : List Bytes}
    (small : ∀ buffer ∈ buffers, buffer.length < 10 ^ 10) :
    buffers.mapM wrapMessage = .ok (buffers.map (frame header)) := by
  induction buffers with
  | nil => rfl
  | cons buffer rest induction =>
      have others := induction fun other member => small other (List.mem_cons_of_mem _ member)
      rw [List.mapM_cons, wrap_message_small (small buffer List.mem_cons_self), others]
      rfl

theorem stream_length {buffers : List Bytes}
    (small : ∀ buffer ∈ buffers, buffer.length < 10 ^ 10) :
    (stream header buffers).length = 10 * buffers.length + (buffers.map List.length).sum := by
  induction buffers with
  | nil => rfl
  | cons buffer rest induction =>
      have others := induction fun other member => small other (List.mem_cons_of_mem _ member)
      have ten : (header buffer).length = 10 := header_length (small buffer List.mem_cons_self)
      simp only [stream_cons, List.length_append, ten, others, List.length_cons, List.map_cons,
        List.sum_cons]
      omega

theorem split_loop_raised {message : Bytes} (fuel offset : Nat) (parts : List Part)
    (split : splitLoop message fuel true offset = .ok parts) : ∀ part ∈ parts, part.size = 0 := by
  induction fuel generalizing offset parts with
  | zero => cases split
  | succ fuel induction =>
      rw [splitLoop] at split
      split at split
      · dsimp only at split
        split at split
        · cases split
        · rw [parse_raised] at split
          obtain ⟨others, next, rfl⟩ := except_map_ok_cases split
          intro part member
          rcases List.mem_cons.mp member with same | inside
          · rw [same]
          · exact induction _ others next part inside
      · cases split
        intro part member
        cases member

/-- The wrapped buffers are split into the buffers themselves. -/
def RoundTrips (errno : Bool) (buffers : List Bytes) : Prop :=
  ∃ wrapped parts, buffers.mapM wrapMessage = .ok wrapped ∧
    splitMessage errno wrapped.flatten = .ok parts ∧
    parts.map (·.read wrapped.flatten) = buffers.map some

theorem round_trips_of_readable {buffers : List Bytes}
    (small : ∀ buffer ∈ buffers, buffer.length < 10 ^ 10)
    (sized : 10 * buffers.length + (buffers.map List.length).sum < 2 ^ 64)
    (readable : errno = true → ∀ buffer ∈ buffers, buffer = []) : RoundTrips errno buffers := by
  rw [← stream_length small] at sized
  have written : (buffers.map (frame header)).flatten = stream header buffers := rfl
  obtain ⟨parts, split, reads⟩ := split_loop_of_whole buffers []
    ((stream header buffers).length + 1) small readable sized (Nat.lt_succ_self _)
  refine ⟨buffers.map (frame header), parts, wrap_all_small small, ?_, ?_⟩
  · rw [written]
    exact split
  · rw [written]
    exact reads

theorem empty_of_round_trips {buffers : List Bytes} (trips : RoundTrips true buffers) :
    ∀ buffer ∈ buffers, buffer = [] := by
  obtain ⟨wrapped, parts, _, split, reads⟩ := trips
  have zero := split_loop_raised _ _ parts split
  intro buffer member
  have read : some buffer ∈ parts.map (·.read wrapped.flatten) := by
    rw [reads]
    exact List.mem_map_of_mem member
  obtain ⟨part, inside, bytes⟩ := List.mem_map.mp read
  have taken := (read_some bytes).2
  rw [zero part inside, List.take_zero] at taken
  exact taken.symm

/-- Splitting the wrapped buffers gives the buffers again exactly when `errno` was not left
at `ERANGE`, or there is nothing in them. -/
theorem round_trips_iff (errno : Bool) (buffers : List Bytes)
    (small : ∀ buffer ∈ buffers, buffer.length < 10 ^ 10)
    (sized : 10 * buffers.length + (buffers.map List.length).sum < 2 ^ 64) :
    RoundTrips errno buffers ↔ (errno = true → ∀ buffer ∈ buffers, buffer = []) := by
  constructor
  · intro trips raised
    rw [raised] at trips
    exact empty_of_round_trips trips
  · exact round_trips_of_readable small sized

theorem letters_round_trip : RoundTrips false [[97, 98], [], [48]] :=
  (round_trips_iff false [[97, 98], [], [48]] (by decide) (by decide)).mpr (by decide)

/-- An `errno` that an earlier call left makes every size zero. -/
theorem stale_errno_breaks_the_round_trip :
    ¬∀ (errno : Bool) (buffers : List Bytes), (∀ buffer ∈ buffers, buffer.length < 10 ^ 10) →
      10 * buffers.length + (buffers.map List.length).sum < 2 ^ 64 →
      RoundTrips errno buffers := by
  intro trips
  have empty := empty_of_round_trips (trips true [[97]] (by decide) (by decide))
  have letter := empty [97] List.mem_cons_self
  cases letter

end Whole

/-- Ten bytes that read as a size, that many bytes, and so on to the end. -/
inductive Framed (errno : Bool) : Bytes → Prop where
  | empty : Framed errno []
  | part {sizeString body rest : Bytes} (ten : sizeString.length = messageSizeStringLength)
      (size : (parseMessageSize errno sizeString).1 = body.length) (later : Framed errno rest) :
      Framed errno (sizeString ++ (body ++ rest))

def Part.Inside (message : Bytes) (part : Part) : Prop :=
  part.offset + part.size ≤ message.length

/-- The loop ends, reads no byte outside and gives no part that leaves the message. -/
def SplitsInside (errno : Bool) (message : Bytes) : Prop :=
  ∃ parts, splitMessage errno message = .ok parts ∧ ∀ part ∈ parts, Part.Inside message part

section Safety

variable {errno : Bool}

theorem split_loop_of_framed {tail : Bytes} (framed : Framed errno tail) (before : Bytes)
    (fuel : Nat) (sized : (before ++ tail).length < 2 ^ 64) (enough : tail.length < fuel) :
    ∃ parts, splitLoop (before ++ tail) fuel errno before.length = .ok parts ∧
      ∀ part ∈ parts, Part.Inside (before ++ tail) part := by
  induction framed generalizing before fuel with
  | empty =>
      obtain ⟨fuel, rfl⟩ := Nat.exists_eq_succ_of_ne_zero (by omega : fuel ≠ 0)
      rw [List.append_nil]
      exact ⟨[], split_loop_end fuel before, by simp⟩
  | @part sizeString body rest ten size _ induction =>
      obtain ⟨fuel, rfl⟩ := Nat.exists_eq_succ_of_ne_zero (by omega : fuel ≠ 0)
      have regrouped : before ++ (sizeString ++ (body ++ rest)) =
          (before ++ (sizeString ++ body)) ++ rest := by
        simp
      have advanced : toSize (before.length + 10 + (parseMessageSize errno sizeString).1 : Nat) =
          (before ++ (sizeString ++ body)).length := by
        simp only [List.length_append, ten, messageSizeStringLength] at sized ⊢
        unfold toSize
        omega
      obtain ⟨parts, split, inside⟩ := induction (before ++ (sizeString ++ body)) fuel
        (by rw [← regrouped]; exact sized)
        (by simp only [List.length_append, ten, messageSizeStringLength] at enough; omega)
      rw [← regrouped] at split inside
      refine ⟨⟨before.length + 10, body.length⟩ :: parts, ?_, ?_⟩
      · rw [split_loop_next fuel ten, advanced, split, size]
        rfl
      · intro part member
        rcases List.mem_cons.mp member with same | later
        · rw [same]
          simp only [Part.Inside, List.length_append, ten, messageSizeStringLength]
          omega
        · exact inside part later

theorem framed_of_split_loop {parts : List Part} (fuel : Nat) (before tail : Bytes)
    (sized : (before ++ tail).length < 2 ^ 64)
    (split : splitLoop (before ++ tail) fuel errno before.length = .ok parts)
    (inside : ∀ part ∈ parts, Part.Inside (before ++ tail) part) : Framed errno tail := by
  induction fuel generalizing before tail parts with
  | zero => cases split
  | succ fuel induction =>
      by_cases empty : tail = []
      · rw [empty]
        exact .empty
      · have started := List.length_pos_of_ne_nil empty
        by_cases cut : tail.length < 10
        · rw [split_loop_cut_size fuel (by rw [List.length_append]; omega)
            (by rw [List.length_append]; omega)] at split
          cases split
        · obtain ⟨sizeString, after, rfl, ten⟩ : ∃ sizeString after,
              tail = sizeString ++ after ∧ sizeString.length = messageSizeStringLength :=
            ⟨tail.take 10, tail.drop 10, (List.take_append_drop 10 tail).symm,
              List.length_take_of_le (by omega)⟩
          rw [split_loop_next fuel ten] at split
          obtain ⟨others, next, rfl⟩ := except_map_ok_cases split
          have own := inside _ List.mem_cons_self
          simp only [Part.Inside, List.length_append, ten, messageSizeStringLength] at own
          have held : (parseMessageSize errno sizeString).1 ≤ after.length := by omega
          obtain ⟨body, rest, rfl, size⟩ : ∃ body rest, after = body ++ rest ∧
              body.length = (parseMessageSize errno sizeString).1 :=
            ⟨after.take _, after.drop _, (List.take_append_drop _ after).symm,
              List.length_take_of_le held⟩
          have regrouped : before ++ (sizeString ++ (body ++ rest)) =
              (before ++ (sizeString ++ body)) ++ rest := by
            simp
          have advanced :
              toSize (before.length + 10 + (parseMessageSize errno sizeString).1 : Nat) =
                (before ++ (sizeString ++ body)).length := by
            simp only [List.length_append, ten, messageSizeStringLength] at sized ⊢
            unfold toSize
            omega
          rw [advanced, regrouped] at next
          rw [regrouped] at sized inside
          exact .part ten size.symm (induction _ _ sized next fun part member =>
            inside part (List.mem_cons_of_mem _ member))

/-- A message is split without leaving it exactly when it is made of whole parts. -/
theorem splits_inside_iff (errno : Bool) (message : Bytes) (sized : message.length < 2 ^ 64) :
    SplitsInside errno message ↔ Framed errno message := by
  constructor
  · intro splits
    obtain ⟨parts, split, inside⟩ := splits
    exact framed_of_split_loop _ [] message sized split inside
  · intro framed
    exact split_loop_of_framed framed [] _ sized (Nat.lt_succ_self _)

/-- The size minus ten leads back to where it was read. -/
example : splitMessage false ([45] ++ List.replicate 7 48 ++ [49, 48]) = .error .diverges := by
  decide

theorem two_parts_split_inside :
    SplitsInside false (List.replicate 9 48 ++ [49, 97] ++ List.replicate 10 48) :=
  (splits_inside_iff false _ (by decide)).mpr
    (@Framed.part _ (List.replicate 9 48 ++ [49]) [97] (List.replicate 10 48) (by decide)
      (by decide) (@Framed.part _ (List.replicate 10 48) [] [] (by decide) (by decide) .empty))

/-- One byte is no size: the string of ten bytes is read past the end. -/
theorem one_byte_is_read_past_the_end :
    ¬∀ (errno : Bool) (message : Bytes), message.length < 2 ^ 64 →
      SplitsInside errno message := by
  intro splits
  obtain ⟨parts, split, _⟩ := splits false [49] (by decide)
  revert split
  exact nofun

end Safety

end StreamDataProcessor.Utils.MessageSplitting
