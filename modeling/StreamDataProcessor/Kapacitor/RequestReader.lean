import StreamDataProcessor.Foundation.Framing
import StreamDataProcessor.Utils.Uvarint

/-!
# Reading requests from a chunked byte stream

`KapacitorRequestReader` of `rw_utils.cpp`. Each call of `readRequests` gets one
chunk; what a chunk leaves unfinished is kept in the two residual fields.
`ParseFromString` is a parameter.
-/

namespace StreamDataProcessor.Kapacitor.RequestReader

open Foundation.Framing Utils.Uvarint

set_option autoImplicit false

def writeWithUvarintLength (message : Bytes) : Bytes := encode message.length ++ message

structure Reader where
  residualRequestData : Bytes := []
  residualRequestSize : Nat := 0
  deriving DecidableEq

/-- How a call ends; `exhausted` would be a loop that never ends. -/
inductive Ending where
  | returned
  | threw (what : String)
  | exhausted
  deriving DecidableEq

structure ReadResult (Request : Type) where
  reader : Reader
  handled : List Request
  ending : Ending
  deriving DecidableEq

def ReadResult.after {Request : Type} (earlier : List Request) (result : ReadResult Request) :
    ReadResult Request :=
  { result with handled := earlier ++ result.handled }

variable {Request : Type} (parse : Bytes → Request)

/-- The loop of `readRequests`; each turn takes at least one byte of a non-empty
input or returns. -/
def readLoop : Nat → Reader → Bytes → ReadResult Request
  | 0, reader, _ => ⟨reader, [], .exhausted⟩
  | fuel + 1, reader, input =>
      let request := if reader.residualRequestSize = 0 then decode input
        else .ok (reader.residualRequestSize, input)
      match request with
      | .error .eof => ⟨reader, [], .returned⟩
      | .error (.runtimeError what) => ⟨reader, [], .threw what⟩
      | .ok (requestSize, input) =>
          let gcount := min requestSize input.length
          let requestData := reader.residualRequestData ++
            (input.take requestSize ++ List.replicate (requestSize - gcount) 0)
          if gcount < requestSize then
            ⟨⟨requestData.take gcount, requestSize - gcount⟩, [], .returned⟩
          else (readLoop fuel {} (input.drop requestSize)).after [parse requestData]

def readRequests (reader : Reader) (input : Bytes) : ReadResult Request :=
  readLoop parse (input.length + 1) reader input

/-- One call a chunk, until one throws: the agent then stops. -/
def readChunks (reader : Reader) : List Bytes → ReadResult Request
  | [] => ⟨reader, [], .returned⟩
  | chunk :: rest =>
      let result := readRequests parse reader chunk
      if result.ending = .returned then
        (readChunks result.reader rest).after result.handled
      else result

@[simp] theorem after_reader (earlier : List Request) (result : ReadResult Request) :
    (result.after earlier).reader = result.reader := rfl

@[simp] theorem after_ending (earlier : List Request) (result : ReadResult Request) :
    (result.after earlier).ending = result.ending := rfl

@[simp] theorem after_handled (earlier : List Request) (result : ReadResult Request) :
    (result.after earlier).handled = earlier ++ result.handled := rfl

theorem after_after (first second : List Request) (result : ReadResult Request) :
    (result.after second).after first = result.after (first ++ second) := by
  simp [ReadResult.after]

@[simp] theorem after_nil (result : ReadResult Request) : result.after [] = result := rfl

theorem read_loop_ends (fuel : Nat) (reader : Reader) (input : Bytes)
    (enough : input.length < fuel) : (readLoop parse fuel reader input).ending ≠ .exhausted := by
  induction fuel generalizing reader input with
  | zero => omega
  | succ fuel induction =>
      rw [readLoop]
      by_cases idle : reader.residualRequestSize = 0
      · simp only [if_pos idle]
        cases decoded : decode input with
        | error error => cases error <;> simp
        | ok decodedPair =>
            obtain ⟨size, afterHeader⟩ := decodedPair
            have consumed := (decode_consumes decoded).2
            have positive := encode_length_pos size
            dsimp only
            split
            · simp
            · exact induction {} _ (by rw [List.length_drop]; omega)
      · simp only [if_neg idle]
        split
        · simp
        · exact induction {} _ (by rw [List.length_drop]; omega)

/-- Every call of `readRequests` ends, on any bytes. -/
theorem read_requests_ends (reader : Reader) (input : Bytes) :
    (readRequests parse reader input).ending ≠ .exhausted :=
  read_loop_ends parse _ reader input (Nat.lt_succ_self _)

section Frames

def header (message : Bytes) : Bytes := encode message.length

theorem stream_writes (messages : List Bytes) :
    messages.flatMap writeWithUvarintLength = stream header messages := rfl

theorem read_loop_whole {fuel : Nat} {message : Bytes} (small : message.length < 2 ^ 32)
    (tail : Bytes) :
    readLoop parse (fuel + 1) {} (header message ++ (message ++ tail)) =
      (readLoop parse fuel {} tail).after [parse message] := by
  have decoded := decode_encode small (message ++ tail)
  rw [readLoop]
  simp only [header, decoded, if_true]
  rw [if_neg (by simp)]
  simp

theorem read_loop_rest {fuel : Nat} {message part suffix : Bytes} (cut : part ++ suffix = message)
    (proper : suffix ≠ []) (tail : Bytes) :
    readLoop parse (fuel + 1) ⟨part, suffix.length⟩ (suffix ++ tail) =
      (readLoop parse fuel {} tail).after [parse message] := by
  have unread : suffix.length ≠ 0 := by simpa using proper
  rw [readLoop]
  simp only [if_neg unread]
  rw [if_neg (by simp)]
  simp [cut]

theorem read_loop_end (fuel : Nat) :
    readLoop parse (fuel + 1) {} [] = ⟨{}, [], .returned⟩ := rfl

theorem read_loop_header_part {fuel : Nat} {message part suffix : Bytes}
    (small : message.length < 2 ^ 32) (cut : part ++ suffix = header message)
    (proper : suffix ≠ []) :
    readLoop parse (fuel + 1) {} part = ⟨{}, [], .returned⟩ := by
  have decoded := decode_part_of_encode small proper cut
  rw [readLoop]
  simp only [decoded, if_true]

theorem read_loop_body_part {fuel : Nat} {message part suffix : Bytes}
    (small : message.length < 2 ^ 32) (cut : part ++ suffix = message) (proper : suffix ≠ []) :
    readLoop parse (fuel + 1) {} (header message ++ part) =
      ⟨⟨part, suffix.length⟩, [], .returned⟩ := by
  have decoded := decode_encode small part
  have unread : 0 < suffix.length := List.length_pos_of_ne_nil proper
  have size : message.length = part.length + suffix.length := by rw [← cut, List.length_append]
  rw [readLoop]
  simp only [header, decoded, if_true]
  have least : min message.length part.length = part.length := by omega
  have whole : part.take message.length = part := List.take_of_length_le (by omega)
  rw [least, if_pos (by omega), List.nil_append, whole, List.take_left, size,
    Nat.add_sub_cancel_left]

/-- A chunk that leaves a body unfinished replaces what was kept of the body by as
many of its first bytes as the chunk has. -/
theorem read_loop_body_more {fuel : Nat} {kept : Bytes} {size : Nat} {chunk : Bytes}
    (short : chunk.length < size) :
    readLoop parse (fuel + 1) ⟨kept, size⟩ chunk =
      ⟨⟨(kept ++ chunk).take chunk.length, size - chunk.length⟩, [], .returned⟩ := by
  have unread : size ≠ 0 := by omega
  rw [readLoop]
  simp only [if_neg unread]
  rw [if_pos (by omega)]
  have least : min size chunk.length = chunk.length := by omega
  rw [least, List.take_of_length_le short.le, ← List.append_assoc,
    List.take_append_of_le_length (by simp)]

end Frames

section Positions

variable (messages : List Bytes)

def InsideHeader (position : Nat) : Prop :=
  ∃ complete message rest, messages = complete ++ message :: rest ∧
    (stream header complete).length < position ∧
    position < (stream header complete).length + (header message).length

/-- Both positions, the earlier first, are strictly inside the body of one message. -/
def SameBody (earlier later : Nat) : Prop :=
  ∃ complete message rest, messages = complete ++ message :: rest ∧
    (stream header complete).length + (header message).length < earlier ∧
    later < (stream header complete).length + (header message).length + message.length

/-- No chunk ends strictly inside a length header, and no two consecutive cuts are
strictly inside the same body; `received` bytes came before these chunks. -/
def CutsHarmless : Nat → List Bytes → Prop
  | _, [] => True
  | received, chunk :: rest =>
      (¬InsideHeader messages (received + chunk.length) ∧
        ¬SameBody messages received (received + chunk.length)) ∧
      CutsHarmless (received + chunk.length) rest

/-- The reader holds exactly what a prefix of the stream leaves unfinished, and the
messages complete in that prefix are the given ones. -/
inductive Aligned (received : Nat) : Reader → List Bytes → Prop where
  | boundary {complete : List Bytes} (rest : List Bytes) (split : messages = complete ++ rest)
      (bytes : received = (stream header complete).length) : Aligned received {} complete
  | inBody {complete : List Bytes} {part suffix : Bytes} (rest : List Bytes) (message : Bytes)
      (split : messages = complete ++ message :: rest)
      (bytes : received = (stream header complete).length + (header message).length +
        part.length)
      (cut : part ++ suffix = message) (proper : suffix ≠ []) :
      Aligned received ⟨part, suffix.length⟩ complete

variable {messages}

theorem header_length_pos (message : Bytes) : 0 < (header message).length :=
  encode_length_pos message.length

theorem inside_header_frame {position : Nat} (inside : InsideHeader messages position) :
    ∃ complete message rest, messages = complete ++ message :: rest ∧
      (stream header complete).length < position ∧
      position < (stream header complete).length + (header message).length ∧
      position < (stream header complete).length + (frame header message).length := by
  obtain ⟨complete, message, rest, split, lower, upper⟩ := inside
  refine ⟨complete, message, rest, split, lower, upper, ?_⟩
  rw [frame, List.length_append]
  omega

theorem aligned_not_inside_header {received : Nat} {reader : Reader} {complete : List Bytes}
    (aligned : Aligned messages received reader complete) :
    ¬InsideHeader messages received := by
  intro inside
  obtain ⟨before, message, rest, split, lower, upper, within⟩ := inside_header_frame inside
  cases aligned with
  | boundary todo own bytes =>
      cases todo with
      | nil =>
          rw [List.append_nil] at own
          rw [← own, split] at bytes
          simp only [stream_append, stream_cons, List.length_append] at bytes
          omega
      | cons next todo =>
          have positive := header_length_pos next
          obtain ⟨rfl, rfl⟩ := frame_unique header own split bytes.ge
            (by rw [frame, List.length_append]; omega) lower.le within
          omega
  | inBody todo next own bytes cut proper =>
      have size := congrArg List.length cut
      have unread := List.length_pos_of_ne_nil proper
      rw [List.length_append] at size
      obtain ⟨rfl, rfl⟩ := frame_unique header own split (by omega)
        (by rw [frame, List.length_append]; omega) lower.le within
      omega

/-- A reader strictly inside a body, whose chunk ends inside it too, keeps bytes of it
and waits for more than the chunk has. -/
theorem aligned_same_body {received count : Nat} {reader : Reader} {complete : List Bytes}
    (aligned : Aligned messages received reader complete)
    (same : SameBody messages received (received + count)) :
    reader.residualRequestData ≠ [] ∧ count < reader.residualRequestSize := by
  obtain ⟨before, message, rest, split, lower, upper⟩ := same
  have within : received < (stream header before).length + (frame header message).length := by
    rw [frame, List.length_append]
    omega
  cases aligned with
  | boundary todo own bytes =>
      cases todo with
      | nil =>
          rw [List.append_nil] at own
          rw [← own, split] at bytes
          simp only [stream_append, stream_cons, List.length_append] at bytes
          omega
      | cons next todo =>
          have positive := header_length_pos next
          obtain ⟨rfl, rfl⟩ := frame_unique header own split bytes.ge
            (by rw [frame, List.length_append]; omega) (by omega) within
          omega
  | @inBody complete part suffix todo next own bytes cut proper =>
      have size := congrArg List.length cut
      have unread := List.length_pos_of_ne_nil proper
      rw [List.length_append] at size
      obtain ⟨rfl, rfl⟩ := frame_unique header own split (by omega)
        (by rw [frame, List.length_append]; omega) (by omega) within
      refine ⟨List.ne_nil_of_length_pos ?_, ?_⟩
      all_goals
        dsimp only
        omega

/-- The answer to one chunk, from a reader aligned at `received`: aligned again when
the chunk's end is harmless, and otherwise with bytes lost. -/
inductive CallEnd (messages : List Bytes) (received : Nat) (complete : List Bytes)
    (chunk : Bytes) : ReadResult Request → Prop where
  | aligned {reader : Reader} {next : List Bytes}
      (position : Aligned messages (received + chunk.length) reader (complete ++ next))
      (notSame : ¬SameBody messages received (received + chunk.length)) :
      CallEnd messages received complete chunk ⟨reader, next.map parse, .returned⟩
  | headerLost {next : List Bytes}
      (inside : InsideHeader messages (received + chunk.length))
      (short : (stream header (complete ++ next)).length < received + chunk.length) :
      CallEnd messages received complete chunk ⟨{}, next.map parse, .returned⟩
  | bodyLost {kept : Bytes} {size : Nat}
      (same : SameBody messages received (received + chunk.length))
      (retained : kept.length = chunk.length) (unread : 0 < size)
      (small : kept.length + size < 2 ^ 32)
      (short : (stream header complete).length + kept.length +
        (encode (kept.length + size)).length < received + chunk.length) :
      CallEnd messages received complete chunk ⟨⟨kept, size⟩, [], .returned⟩

theorem read_loop_complete (extra : Nat) (complete : List Bytes) (tail : Bytes)
    (small : ∀ message ∈ complete, message.length < 2 ^ 32) :
    readLoop parse (complete.length + extra) {} (stream header complete ++ tail) =
      (readLoop parse extra {} tail).after (complete.map parse) := by
  induction complete with
  | nil => simp
  | cons message others induction =>
      have rest := induction fun other member => small other (List.mem_cons_of_mem _ member)
      rw [List.length_cons, Nat.add_right_comm, stream_cons, List.append_assoc,
        List.append_assoc, read_loop_whole parse (small message (by simp)), rest, after_after]
      rfl

theorem complete_length_le (complete : List Bytes) :
    complete.length ≤ (stream header complete).length := by
  induction complete with
  | nil => rfl
  | cons message others induction =>
      have positive := header_length_pos message
      simp only [stream_cons, List.length_cons, List.length_append]
      omega

/-- From a message boundary, with enough turns for the bytes of the chunk. -/
theorem read_loop_boundary {complete todo : List Bytes} {fuel : Nat} {chunk later : Bytes}
    (small : ∀ message ∈ todo, message.length < 2 ^ 32)
    (split : chunk ++ later = stream header todo) (enough : chunk.length < fuel) :
    ∃ next reader, readLoop parse fuel {} chunk = ⟨reader, next.map parse, .returned⟩ ∧
      (Aligned (complete ++ todo) ((stream header complete).length + chunk.length) reader
          (complete ++ next) ∨
        reader = {} ∧
        InsideHeader (complete ++ todo) ((stream header complete).length + chunk.length) ∧
        (stream header (complete ++ next)).length <
          (stream header complete).length + chunk.length) := by
  cases prefix_end header todo chunk later split with
  | boundary next rest own bytes =>
      obtain ⟨extra, rfl⟩ : ∃ extra, fuel = next.length + (extra + 1) := by
        have bound := complete_length_le next
        rw [bytes] at enough
        exact ⟨fuel - next.length - 1, by omega⟩
      refine ⟨next, {}, ?_, .inl (.boundary rest (by rw [own, List.append_assoc]) ?_)⟩
      · have run := read_loop_complete parse (extra + 1) next []
          fun message member => small message (by simp [own, member])
        rw [List.append_nil, ← bytes, read_loop_end] at run
        simpa [ReadResult.after] using run
      · rw [bytes, stream_append, List.length_append]
  | inHeader next rest message part suffix own bytes cut started proper =>
      have partLength := List.length_pos_of_ne_nil started
      have headerLength := congrArg List.length cut
      have suffixLength := List.length_pos_of_ne_nil proper
      rw [List.length_append] at headerLength
      obtain ⟨extra, rfl⟩ : ∃ extra, fuel = next.length + (extra + 1) := by
        have bound := complete_length_le next
        rw [bytes, List.length_append] at enough
        exact ⟨fuel - next.length - 1, by omega⟩
      refine ⟨next, {}, ?_, .inr ⟨rfl, ⟨complete ++ next, message, rest, ?_, ?_, ?_⟩, ?_⟩⟩
      · have run := read_loop_complete parse (extra + 1) next part
          fun message member => small message (by simp [own, member])
        rw [← bytes, read_loop_header_part parse (small message (by simp [own])) cut proper]
          at run
        simpa [ReadResult.after] using run
      · rw [own, List.append_assoc]
      all_goals
        rw [bytes, stream_append]
        simp only [List.length_append]
        omega
  | inBody next rest message part suffix own bytes cut proper =>
      obtain ⟨extra, rfl⟩ : ∃ extra, fuel = next.length + (extra + 1) := by
        have bound := complete_length_le next
        rw [bytes, List.length_append] at enough
        exact ⟨fuel - next.length - 1, by omega⟩
      refine ⟨next, ⟨part, suffix.length⟩, ?_,
        .inl (.inBody rest message (by rw [own, List.append_assoc]) ?_ cut proper)⟩
      · have run := read_loop_complete parse (extra + 1) next (header message ++ part)
          fun message member => small message (by simp [own, member])
        rw [← bytes, read_loop_body_part parse (small message (by simp [own])) cut proper]
          at run
        simpa [ReadResult.after] using run
      · rw [bytes, stream_append]
        simp only [List.length_append]
        omega

theorem call_end_body_part {received : Nat} {complete : List Bytes} {chunk part suffix : Bytes}
    (rest : List Bytes) {message : Bytes} (small : message.length < 2 ^ 32)
    (own : messages = complete ++ message :: rest)
    (bytes : received = (stream header complete).length + (header message).length + part.length)
    (cut : part ++ suffix = message) (short : chunk.length < suffix.length)
    (aligned : Aligned messages received ⟨part, suffix.length⟩ complete)
    (split : suffix.take chunk.length = chunk) :
    CallEnd parse messages received complete chunk
      (readRequests parse ⟨part, suffix.length⟩ chunk) := by
  have size := congrArg List.length cut
  rw [List.length_append] at size
  rw [readRequests, read_loop_body_more parse short]
  by_cases fresh : part = []
  · subst fresh
    have unread : suffix.drop chunk.length ≠ [] := by
      intro whole
      have length := congrArg List.length whole
      simp only [List.length_drop, List.length_nil] at length
      omega
    have position : Aligned messages (received + chunk.length)
        ⟨chunk, (suffix.drop chunk.length).length⟩ (complete ++ []) := by
      rw [List.append_nil]
      refine .inBody rest message own (by simp only [List.length_nil] at bytes; omega) ?_ unread
      rw [← cut, List.nil_append]
      conv_lhs => rw [← split, List.length_take, Nat.min_eq_left short.le]
      exact List.take_append_drop _ _
    rw [List.length_drop] at position
    rw [List.nil_append, List.take_length]
    exact .aligned position fun same => (aligned_same_body aligned same).1 rfl
  · have kept := List.length_pos_of_ne_nil fresh
    have retained : ((part ++ chunk).take chunk.length).length = chunk.length := by
      rw [List.length_take, List.length_append]
      omega
    have headers := @encode_length_mono suffix.length message.length
      (by omega) small
    have remaining : chunk.length + (suffix.length - chunk.length) = suffix.length := by omega
    refine .bodyLost ⟨complete, message, rest, own, by omega, by omega⟩ retained (by omega)
      (by omega) ?_
    rw [retained, remaining, bytes, header]
    omega

theorem read_requests_call_end {received : Nat} {reader : Reader} {complete : List Bytes}
    {chunk later : Bytes} (small : ∀ message ∈ messages, message.length < 2 ^ 32)
    (aligned : Aligned messages received reader complete)
    (split : chunk ++ later = (stream header messages).drop received) :
    CallEnd parse messages received complete chunk (readRequests parse reader chunk) := by
  have sameBody := fun same => (@aligned_same_body _ _ chunk.length) aligned same
  cases aligned with
  | boundary todo own bytes =>
      have pending : chunk ++ later = stream header todo := by
        rw [split, own, stream_append, bytes, List.drop_left]
      obtain ⟨next, reader, run, ends⟩ := (@read_loop_boundary _ parse complete)
        (fun message member => small message (by simp [own, member])) pending
        (Nat.lt_succ_self chunk.length)
      rw [readRequests, run]
      rw [← own, ← bytes] at ends
      rcases ends with position | ⟨rfl, inside, short⟩
      · exact .aligned position fun same => (sameBody same).1 rfl
      · exact .headerLost inside short
  | @inBody _ part suffix todo message own bytes cut proper =>
      have pending : chunk ++ later = suffix ++ stream header todo := by
        have whole : stream header messages =
            (stream header complete ++ header message ++ part) ++
              (suffix ++ stream header todo) := by
          rw [own, stream_append, stream_cons, ← cut]
          simp only [List.append_assoc]
        rw [split, whole, bytes, ← List.length_append, ← List.length_append, List.drop_left]
      by_cases short : chunk.length < suffix.length
      · refine call_end_body_part parse todo (small message (by simp [own])) own bytes cut short
          (.inBody todo message own bytes cut proper) ?_
        have prefixes := congrArg (List.take chunk.length) pending
        rw [List.take_left, List.take_append_of_le_length short.le] at prefixes
        exact prefixes.symm
      · have unread := List.length_pos_of_ne_nil proper
        obtain ⟨tail, rfl⟩ : ∃ tail, chunk = suffix ++ tail := by
          have prefixes := congrArg (List.take suffix.length) pending
          rw [List.take_left, List.take_append_of_le_length (not_lt.mp short)] at prefixes
          exact ⟨chunk.drop suffix.length, by
            conv_lhs => rw [← List.take_append_drop suffix.length chunk, prefixes]⟩
        rw [List.append_assoc, List.append_cancel_left_eq] at pending
        have owned : messages = (complete ++ [message]) ++ todo := by simp [own]
        have reached : (stream header (complete ++ [message])).length + tail.length =
            received + (suffix ++ tail).length := by
          rw [stream_append, bytes, ← cut]
          simp only [stream_cons, stream_nil, List.append_nil, List.length_append]
          omega
        obtain ⟨next, reader, run, ends⟩ := (@read_loop_boundary _ parse (complete ++ [message])
            _ ((suffix ++ tail).length))
          (fun other member => small other (by simp [own, member])) pending
          (by rw [List.length_append]; omega)
        rw [readRequests, read_loop_rest parse cut proper, run]
        rw [← owned, reached] at ends
        simp only [List.append_assoc, List.singleton_append] at ends
        rcases ends with position | ⟨rfl, inside, lost⟩
        · exact @CallEnd.aligned _ _ _ _ _ _ _ (message :: next) position
            fun same => short (sameBody same).2
        · exact @CallEnd.headerLost _ _ _ _ _ _ (message :: next) inside lost

end Positions

end StreamDataProcessor.Kapacitor.RequestReader
