import StreamDataProcessor.Kapacitor.RequestReader

/-!
# Which chunkings deliver every request

Bytes are accounted for as frames of handled messages or as an unfinished frame
the reader keeps. No call accounts for more bytes than it is given, and a harmful
cut loses some for good, so the harmless chunkings are the only ones that deliver
every message.
-/

namespace StreamDataProcessor.Kapacitor.RequestReader

open Foundation.Framing Utils.Uvarint

set_option autoImplicit false

/-- The bytes of the frame whose body the reader is in the middle of. -/
def Reader.heldBytes (reader : Reader) : Nat :=
  if reader.residualRequestSize = 0 then 0
  else reader.residualRequestData.length +
    (encode (reader.residualRequestData.length + reader.residualRequestSize)).length

structure Reader.WellFormed (reader : Reader) : Prop where
  emptied : reader.residualRequestSize = 0 → reader.residualRequestData = []
  small : reader.residualRequestData.length + reader.residualRequestSize < 2 ^ 32

/-- What a call on `available` bytes may do, its messages taken unparsed. -/
structure Accounted (reader : Reader) (available : Nat) (result : ReadResult Bytes) : Prop where
  wellFormed : result.reader.WellFormed
  bytes : (stream header result.handled).length + result.reader.heldBytes ≤
    reader.heldBytes + available

theorem fresh_well_formed : Reader.WellFormed {} := ⟨fun _ => rfl, by decide⟩

@[simp] theorem fresh_held_bytes : Reader.heldBytes {} = 0 := rfl

theorem held_bytes_unfinished {kept : Bytes} {size : Nat} (unread : 0 < size) :
    Reader.heldBytes ⟨kept, size⟩ = kept.length + (encode (kept.length + size)).length := by
  rw [Reader.heldBytes, if_neg (by simpa using unread.ne')]

theorem accounted_idle {reader : Reader} (available : Nat) (wellFormed : reader.WellFormed)
    (ending : Ending) : Accounted reader available ⟨reader, [], ending⟩ :=
  ⟨wellFormed, by simp⟩

/-- The turn of the loop that finds `size` more bytes wanted after `kept`. -/
theorem accounted_turn {reader : Reader} {kept input : Bytes} {size available fuel : Nat}
    (small : kept.length + size < 2 ^ 32)
    (held : kept.length + (encode (kept.length + size)).length + input.length ≤
      reader.heldBytes + available)
    (rest : Accounted {} (input.drop size).length (readLoop id fuel {} (input.drop size))) :
    Accounted reader available
      (let gcount := min size input.length
       let requestData := kept ++ (input.take size ++ List.replicate (size - gcount) 0)
       if gcount < size then
         ⟨⟨requestData.take gcount, size - gcount⟩, [], .returned⟩
       else (readLoop id fuel {} (input.drop size)).after [id requestData]) := by
  dsimp only
  split
  · next short =>
    have least : min size input.length = input.length := by omega
    rw [least] at short ⊢
    have retained : ((kept ++ (input.take size ++
        List.replicate (size - input.length) (0 : UInt8))).take input.length).length =
          input.length := by
      simp only [List.length_take, List.length_append, List.length_replicate]
      omega
    have remaining : input.length + (size - input.length) = size := by omega
    have headers := @encode_length_mono size (kept.length + size)
      (by omega) small
    refine ⟨⟨fun emptied => absurd emptied (by simp only; omega), ?_⟩, ?_⟩
    · simp only [retained]
      omega
    · rw [held_bytes_unfinished (by omega), retained, remaining]
      simp only [stream_nil, List.length_nil]
      omega
  · next whole =>
    have least : min size input.length = size := by omega
    have bytes := rest.bytes
    refine ⟨rest.wellFormed, ?_⟩
    rw [fresh_held_bytes, List.length_drop] at bytes
    simp only [after_handled, after_reader, least, Nat.sub_self, List.replicate_zero,
      List.append_nil, id, List.singleton_append, stream_cons, List.length_append, header,
      List.length_take]
    omega

theorem read_loop_accounted (fuel : Nat) (reader : Reader) (input : Bytes)
    (wellFormed : reader.WellFormed) :
    Accounted reader input.length (readLoop id fuel reader input) := by
  induction fuel generalizing reader input with
  | zero => exact accounted_idle _ wellFormed _
  | succ fuel induction =>
      rw [readLoop]
      by_cases idle : reader.residualRequestSize = 0
      · simp only [if_pos idle]
        cases decoded : decode input with
        | error error =>
            cases error with
            | eof => exact accounted_idle _ wellFormed _
            | runtimeError what => exact accounted_idle _ wellFormed _
        | ok decodedPair =>
            obtain ⟨size, afterHeader⟩ := decodedPair
            obtain ⟨small, consumed⟩ := decode_consumes decoded
            have fresh : reader = {} := by
              cases reader
              simp only [Reader.mk.injEq]
              exact ⟨wellFormed.emptied idle, idle⟩
            subst fresh
            exact accounted_turn (by simpa using small) (by simpa using consumed)
              (induction {} _ fresh_well_formed)
      · simp only [if_neg idle]
        exact accounted_turn wellFormed.small
          (by rw [Reader.heldBytes, if_neg idle]) (induction {} _ fresh_well_formed)

theorem accounted_after {reader middle : Reader} {first second : Nat} {handled : List Bytes}
    {result : ReadResult Bytes}
    (earlier : (stream header handled).length + middle.heldBytes ≤ reader.heldBytes + first)
    (later : Accounted middle second result) :
    Accounted reader (first + second) (result.after handled) := by
  have bytes := later.bytes
  refine ⟨later.wellFormed, ?_⟩
  simp only [after_handled, after_reader, stream_append, List.length_append]
  omega

theorem read_chunks_accounted (reader : Reader) (chunks : List Bytes)
    (wellFormed : reader.WellFormed) :
    Accounted reader chunks.flatten.length (readChunks id reader chunks) := by
  induction chunks generalizing reader with
  | nil => exact accounted_idle _ wellFormed _
  | cons chunk rest induction =>
      have call := read_loop_accounted (chunk.length + 1) reader chunk wellFormed
      rw [readChunks, List.flatten_cons, List.length_append]
      split
      · exact accounted_after call.bytes (induction _ call.wellFormed)
      · have bytes := call.bytes
        exact ⟨call.wellFormed, by rw [readRequests]; omega⟩

variable {messages : List Bytes}

/-- A reader aligned at the end of the stream has nothing left to wait for. -/
theorem aligned_at_end {reader : Reader} {complete : List Bytes}
    (aligned : Aligned messages (stream header messages).length reader complete) :
    reader = {} ∧ complete = messages := by
  cases aligned with
  | boundary rest split bytes =>
      cases rest with
      | nil => exact ⟨rfl, by rw [split, List.append_nil]⟩
      | cons message others =>
          have positive := header_length_pos message
          rw [split, stream_append, stream_cons] at bytes
          simp only [List.length_append] at bytes
          omega
  | inBody rest message split bytes cut proper =>
      have unread := List.length_pos_of_ne_nil proper
      rw [split, stream_append, stream_cons, ← cut] at bytes
      simp only [List.length_append] at bytes
      omega

theorem read_chunks_of_harmless {Request : Type} (parse : Bytes → Request) {received : Nat}
    {reader : Reader} {complete : List Bytes} {chunks : List Bytes}
    (small : ∀ message ∈ messages, message.length < 2 ^ 32)
    (aligned : Aligned messages received reader complete)
    (bound : received ≤ (stream header messages).length)
    (split : chunks.flatten = (stream header messages).drop received)
    (harmless : CutsHarmless messages received chunks) :
    ∃ next, messages = complete ++ next ∧
      readChunks parse reader chunks = ⟨{}, next.map parse, .returned⟩ := by
  induction chunks generalizing received reader complete with
  | nil =>
      have reached : received = (stream header messages).length := by
        have length := congrArg List.length split
        simp only [List.flatten_nil, List.length_nil, List.length_drop] at length
        omega
      rw [reached] at aligned
      obtain ⟨rfl, rfl⟩ := aligned_at_end aligned
      exact ⟨[], by simp, rfl⟩
  | cons chunk rest induction =>
      rw [List.flatten_cons] at split
      obtain ⟨⟨notInside, notSame⟩, others⟩ := harmless
      have call := read_requests_call_end parse small aligned split
      have advanced : rest.flatten =
          (stream header messages).drop (received + chunk.length) := by
        rw [← List.drop_drop, ← split, List.drop_left]
      have within : received + chunk.length ≤ (stream header messages).length := by
        have length := congrArg List.length split
        simp only [List.length_append, List.length_drop] at length
        omega
      rw [readChunks]
      generalize readRequests parse reader chunk = result at call
      cases call with
      | @aligned _ first position _ =>
          obtain ⟨next, own, run⟩ := induction position within advanced others
          refine ⟨first ++ next, by rw [own, List.append_assoc], ?_⟩
          rw [if_pos rfl, run, ReadResult.after, List.map_append]
      | headerLost inside short => exact absurd inside notInside
      | bodyLost same retained unread fits short => exact absurd same notSame

theorem read_chunks_loses_bytes {received : Nat} {reader : Reader} {complete : List Bytes}
    {chunks : List Bytes} (small : ∀ message ∈ messages, message.length < 2 ^ 32)
    (aligned : Aligned messages received reader complete)
    (split : chunks.flatten = (stream header messages).drop received)
    (harmful : ¬CutsHarmless messages received chunks) :
    (stream header (complete ++ (readChunks id reader chunks).handled)).length <
      received + chunks.flatten.length := by
  induction chunks generalizing received reader complete with
  | nil => exact absurd trivial harmful
  | cons chunk rest induction =>
      rw [List.flatten_cons] at split
      have call := read_requests_call_end id small aligned split
      have advanced : rest.flatten =
          (stream header messages).drop (received + chunk.length) := by
        rw [← List.drop_drop, ← split, List.drop_left]
      rw [readChunks, List.flatten_cons, List.length_append]
      generalize readRequests id reader chunk = result at call
      cases call with
      | @aligned _ next position notSame =>
          have harmfulLater : ¬CutsHarmless messages (received + chunk.length) rest :=
            fun harmless => harmful ⟨⟨aligned_not_inside_header position, notSame⟩, harmless⟩
          have lost := induction position advanced harmfulLater
          rw [if_pos rfl, after_handled, List.map_id, ← List.append_assoc, ← Nat.add_assoc]
          exact lost
      | @headerLost next inside short =>
          have later := (read_chunks_accounted {} rest fresh_well_formed).bytes
          rw [fresh_held_bytes] at later
          rw [if_pos rfl, after_handled, List.map_id, ← List.append_assoc, stream_append,
            List.length_append]
          dsimp only
          omega
      | @bodyLost kept size same retained unread fits short =>
          have wellFormed : Reader.WellFormed ⟨kept, size⟩ :=
            ⟨fun emptied => absurd emptied unread.ne', fits⟩
          have later := (read_chunks_accounted ⟨kept, size⟩ rest wellFormed).bytes
          rw [held_bytes_unfinished unread] at later
          rw [if_pos rfl, after_nil, stream_append, List.length_append]
          dsimp only
          omega

/-- For every parser, the calls handle the messages in order and keep nothing. -/
def DeliversAll (messages chunks : List Bytes) : Prop :=
  ∀ (Request : Type) (parse : Bytes → Request),
    readChunks parse {} chunks = ⟨{}, messages.map parse, .returned⟩

/-- A chunked stream delivers all its messages exactly when no chunk ends strictly
inside a length header and no body is cut twice strictly inside. -/
theorem delivers_all_iff_cuts_harmless (messages chunks : List Bytes)
    (small : ∀ message ∈ messages, message.length < 2 ^ 32)
    (written : chunks.flatten = messages.flatMap writeWithUvarintLength) :
    DeliversAll messages chunks ↔ CutsHarmless messages 0 chunks := by
  rw [stream_writes] at written
  have aligned : Aligned messages 0 {} [] := .boundary messages rfl rfl
  constructor
  · intro delivers
    by_contra harmful
    have lost := read_chunks_loses_bytes small aligned written harmful
    rw [delivers Bytes id, written, List.map_id, List.nil_append, Nat.zero_add] at lost
    exact lt_irrefl _ lost
  · intro harmless Request parse
    obtain ⟨next, own, run⟩ :=
      read_chunks_of_harmless parse small aligned (Nat.zero_le _) written harmless
    rw [run, own, List.nil_append]

/-- One message cut before its last byte. -/
theorem delivers_all_iff_one_cut :
    DeliversAll [[97, 98, 99]] [[3, 97, 98], [99]] ↔
      CutsHarmless [[97, 98, 99]] 0 [[3, 97, 98], [99]] :=
  delivers_all_iff_cuts_harmless [[97, 98, 99]] [[3, 97, 98], [99]] (by decide) (by decide)

/-- The three letters of one message in three chunks: the second is lost. -/
theorem body_cut_twice_is_not_delivered :
    ¬∀ messages chunks : List Bytes, (∀ message ∈ messages, message.length < 2 ^ 32) →
      chunks.flatten = messages.flatMap writeWithUvarintLength →
      DeliversAll messages chunks := by
  intro framing
  have delivered := framing [[97, 98, 99]] [[3, 97], [98], [99]] (by decide) (by decide) Bytes id
  have lost : readChunks id {} [[3, 97], [98], [99]] = ⟨{}, [[97, 99]], .returned⟩ := by decide
  rw [lost] at delivered
  revert delivered
  decide

end StreamDataProcessor.Kapacitor.RequestReader
