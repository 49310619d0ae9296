import StreamDataProcessor.Foundation.Effect
import StreamDataProcessor.Utils.MessageSplitting

/-!
# Buffers over TCP

`TCPConsumer::sendData` writes to every connected target; `TCPProducer::handleData`
gets the bytes again, cut into events. Every event is split on its own.
-/

namespace StreamDataProcessor.Transport.Tcp

open Arrow Foundation.Effect Foundation.Framing Utils.Uvarint Utils.TransportUtils
open Utils.MessageSplitting

set_option autoImplicit false

def sendData (isExternal : Bool) (data : Bytes) : Outcome Bytes :=
  if isExternal then .ok data
  else match wrapMessage data with
    | .error (.status status) => .error (.exception status.message)
    | wrapped => wrapped

/-- An event, with `errno` as the process left it before the event. -/
structure DataEvent where
  data : Bytes
  errno : Bool := false
  sized : data.length < 2 ^ 63

def handleData (isExternal : Bool) (event : DataEvent) : Outcome (List (Option Bytes)) :=
  if isExternal then .ok [some event.data]
  else do
    let parts ← splitMessage event.errno event.data
    .ok (parts.map (·.read event.data))

def handleEvents (isExternal : Bool) (events : List DataEvent) : Outcome (List (Option Bytes)) := do
  let calls ← events.mapM (handleData isExternal)
  .ok calls.flatten

/-- The event is the wrapped buffers of a group, which `errno` lets be read. -/
structure HoldsWhole (event : DataEvent) (group : List Bytes) : Prop where
  bytes : event.data = stream header group
  readable : event.errno = true → ∀ buffer ∈ group, buffer = []

/-- Every event holds whole wrapped buffers. -/
def CutAtBorders (buffers : List Bytes) (events : List DataEvent) : Prop :=
  ∃ groups : List (List Bytes), groups.flatten = buffers ∧ List.Forall₂ HoldsWhole events groups

theorem send_data_small {data : Bytes} (small : data.length < 10 ^ 10) :
    sendData false data = .ok (frame header data) := by
  rw [sendData, if_neg Bool.false_ne_true, wrap_message_small small]
  rfl

theorem send_all_small {buffers : List Bytes}
    (small : ∀ buffer ∈ buffers, buffer.length < 10 ^ 10) :
    buffers.mapM (sendData false) = .ok (buffers.map (frame header)) := by
  induction buffers with
  | nil => rfl
  | cons buffer rest induction =>
      have others := induction fun other member => small other (List.mem_cons_of_mem _ member)
      rw [List.mapM_cons, send_data_small (small buffer List.mem_cons_self), others]
      rfl

section Event

variable {errno : Bool}

theorem split_at_prefix {first tail suffix others : Bytes} (long : first.length ≤ tail.length)
    (continues : tail ++ suffix = first ++ others) :
    ∃ body, tail = first ++ body ∧ others = body ++ suffix := by
  obtain ⟨missing, rfl, same⟩ | ⟨body, rfl, same⟩ := List.append_eq_append_iff.mp continues
  · have nothing : missing = [] := by
      rw [List.length_append] at long
      exact List.eq_nil_of_length_eq_zero (by omega)
    subst nothing
    exact ⟨[], by simp, by simpa using same.symm⟩
  · exact ⟨body, rfl, same⟩

/-- What a turn of the loop reads is the buffer only if the event goes on to its end. -/
theorem whole_of_read {before buffer body suffix others : Bytes}
    (small : buffer.length < 10 ^ 10) (continues : body ++ suffix = buffer ++ others)
    (read : Part.read (before ++ (header buffer ++ body))
      ⟨before.length + 10, if errno then 0 else buffer.length⟩ = some buffer) :
    ∃ after, body = buffer ++ after ∧ after ++ suffix = others ∧ (errno = true → buffer = []) := by
  have ten : (header buffer).length = 10 := header_length small
  obtain ⟨within, bytes⟩ := read_some read
  cases errno with
  | true =>
      rw [if_pos rfl, List.take_zero] at bytes
      subst bytes
      exact ⟨body, rfl, continues, fun _ => rfl⟩
  | false =>
      simp only [Bool.false_eq_true, if_false, List.length_append, ten] at within
      have enough : buffer.length ≤ body.length := by omega
      obtain ⟨after, shape, remains⟩ := split_at_prefix enough continues
      exact ⟨after, shape, remains.symm, by simp⟩

theorem whole_of_split_loop (buffers : List Bytes) (before tail suffix : Bytes) (fuel : Nat)
    (parts : List Part) (later : List (Option Bytes))
    (small : ∀ buffer ∈ buffers, buffer.length < 10 ^ 10)
    (continues : tail ++ suffix = stream header buffers)
    (sized : (before ++ tail).length < 2 ^ 63)
    (split : splitLoop (before ++ tail) fuel errno before.length = .ok parts)
    (reads : parts.map (·.read (before ++ tail)) ++ later = buffers.map some) :
    ∃ group others, buffers = group ++ others ∧ tail = stream header group ∧
      (errno = true → ∀ buffer ∈ group, buffer = []) ∧ suffix = stream header others ∧
      later = others.map some := by
  induction buffers generalizing before tail fuel parts with
  | nil =>
      rw [stream_nil, List.append_eq_nil_iff] at continues
      rw [List.map_nil, List.append_eq_nil_iff] at reads
      exact ⟨[], [], rfl, continues.1, by simp, continues.2, reads.2⟩
  | cons buffer rest induction =>
      have own := small buffer List.mem_cons_self
      have ten : (header buffer).length = 10 := header_length own
      cases fuel with
      | zero => cases split
      | succ fuel =>
          by_cases empty : tail = []
          · subst empty
            rw [List.append_nil, split_loop_end] at split
            cases split
            exact ⟨[], buffer :: rest, rfl, rfl, by simp, continues, reads⟩
          · have started := List.length_pos_of_ne_nil empty
            rw [stream_cons] at continues
            by_cases cut : tail.length < 10
            · rw [split_loop_cut_size fuel (by rw [List.length_append]; omega)
                (by rw [List.length_append]; omega)] at split
              cases split
            · obtain ⟨body, rfl, remains⟩ := split_at_prefix (by omega) continues
              rw [split_loop_turn fuel own (by
                simp only [List.length_append, ten] at sized
                omega)] at split
              obtain ⟨others, next, rfl⟩ := except_map_ok_cases split
              rw [List.map_cons, List.map_cons, List.cons_append, List.cons.injEq] at reads
              obtain ⟨after, rfl, stays, readable⟩ := whole_of_read own remains.symm reads.1
              have regrouped : before ++ (header buffer ++ (buffer ++ after)) =
                  (before ++ frame header buffer) ++ after := by
                simp [frame]
              have advanced : before.length + 10 + (if errno then 0 else buffer.length) =
                  (before ++ frame header buffer).length := by
                simp only [frame, List.length_append, ten]
                split
                · next raised => rw [readable raised]; rfl
                · omega
              rw [regrouped, advanced] at next
              rw [regrouped] at reads sized
              obtain ⟨group, left, rfl, rfl, quiet, suffix, calls⟩ :=
                induction (before ++ frame header buffer) after fuel others
                  (fun other member => small other (List.mem_cons_of_mem _ member))
                  stays sized next reads.2
              refine ⟨buffer :: group, left, rfl, by rw [stream_cons], ?_, suffix, calls⟩
              intro raised other member
              rcases List.mem_cons.mp member with same | inside
              · rw [same, readable raised]
              · exact quiet raised other inside

end Event

theorem handle_data_eq (event : DataEvent) :
    handleData false event =
      (splitLoop event.data (event.data.length + 1) event.errno 0).map
        (·.map (·.read event.data)) := by
  rw [handleData, if_neg Bool.false_ne_true]
  unfold splitMessage
  cases splitLoop event.data (event.data.length + 1) event.errno 0 <;> rfl

theorem handle_data_of_whole {event : DataEvent} {group : List Bytes}
    (small : ∀ buffer ∈ group, buffer.length < 10 ^ 10) (whole : HoldsWhole event group) :
    handleData false event = .ok (group.map some) := by
  have sized := event.sized
  obtain ⟨parts, split, reads⟩ := split_loop_of_whole group [] (event.data.length + 1)
    small whole.readable (by rw [List.nil_append, ← whole.bytes]; omega)
    (by rw [← whole.bytes]; omega)
  rw [List.nil_append, ← whole.bytes, List.length_nil] at split
  rw [List.nil_append, ← whole.bytes] at reads
  rw [handle_data_eq, split, ← reads]
  rfl

theorem handle_events_cons (isExternal : Bool) (event : DataEvent) (rest : List DataEvent) :
    handleEvents isExternal (event :: rest) =
      (do
        let first ← handleData isExternal event
        let others ← handleEvents isExternal rest
        .ok (first ++ others)) := by
  unfold handleEvents
  rw [List.mapM_cons]
  cases handleData isExternal event with
  | error fault => rfl
  | ok first => cases rest.mapM (handleData isExternal) <;> rfl

theorem handle_events_of_whole {events : List DataEvent} {groups : List (List Bytes)}
    (small : ∀ buffer ∈ groups.flatten, buffer.length < 10 ^ 10)
    (whole : List.Forall₂ HoldsWhole events groups) :
    handleEvents false events = .ok (groups.flatten.map some) := by
  induction whole with
  | nil => rfl
  | @cons event group events groups own others induction =>
      rw [List.flatten_cons] at small ⊢
      rw [handle_events_cons, induction fun buffer member =>
          small buffer (List.mem_append_right _ member),
        handle_data_of_whole (fun buffer member => small buffer (List.mem_append_left _ member)) own,
        List.map_append]
      rfl

theorem whole_of_handle_events (events : List DataEvent) (buffers : List Bytes)
    (small : ∀ buffer ∈ buffers, buffer.length < 10 ^ 10)
    (written : (events.map DataEvent.data).flatten = stream header buffers)
    (handled : handleEvents false events = .ok (buffers.map some)) :
    CutAtBorders buffers events := by
  induction events generalizing buffers with
  | nil =>
      have none : buffers.map some = [] := (Except.ok.inj handled).symm
      exact ⟨[], (List.map_eq_nil_iff.mp none).symm, .nil⟩
  | cons event rest induction =>
      rw [handle_events_cons] at handled
      obtain ⟨first, own, handled⟩ := except_bind_ok_cases handled
      obtain ⟨others, next, handled⟩ := except_bind_ok_cases handled
      rw [handle_data_eq] at own
      obtain ⟨parts, split, rfl⟩ := except_map_ok_cases own
      rw [List.map_cons, List.flatten_cons] at written
      obtain ⟨group, left, rfl, bytes, readable, suffix, rfl⟩ :=
        whole_of_split_loop buffers [] event.data _ _ parts others small written event.sized split
          (Except.ok.inj handled)
      obtain ⟨groups, same, whole⟩ := induction left
        (fun buffer member => small buffer (List.mem_append_right _ member)) suffix next
      exact ⟨group :: groups, by rw [List.flatten_cons, same], .cons ⟨bytes, readable⟩ whole⟩

/-- The node gets exactly the buffers sent, once each and in order, exactly when every event
holds whole wrapped buffers and is not split with `errno` left at `ERANGE`. -/
theorem delivers_iff_cut_at_borders (buffers : List Bytes) (events : List DataEvent)
    (small : ∀ buffer ∈ buffers, buffer.length < 10 ^ 10)
    (preserved : (buffers.mapM (sendData false)).map List.flatten =
      .ok (events.map DataEvent.data).flatten) :
    handleEvents false events = .ok (buffers.map some) ↔ CutAtBorders buffers events := by
  have written : (events.map DataEvent.data).flatten = stream header buffers := by
    rw [send_all_small small] at preserved
    exact (Except.ok.inj preserved).symm
  constructor
  · exact whole_of_handle_events events buffers small written
  · intro borders
    obtain ⟨groups, rfl, whole⟩ := borders
    exact handle_events_of_whole small whole


def lettersCut : List DataEvent :=
  [{ data := [48, 48, 48, 48, 48, 48, 48, 48, 48, 50, 97], sized := by decide },
    { data := [98], sized := by decide }]

def lettersWhole : List DataEvent :=
  [{ data := [48, 48, 48, 48, 48, 48, 48, 48, 48, 50, 97, 98,
      48, 48, 48, 48, 48, 48, 48, 48, 48, 49, 99], sized := by decide },
    { data := [48, 48, 48, 48, 48, 48, 48, 48, 48, 49, 100], sized := by decide }]

theorem whole_letters_delivered :
    handleEvents false lettersWhole = .ok ([[97, 98], [99], [100]].map some) :=
  (delivers_iff_cut_at_borders [[97, 98], [99], [100]] lettersWhole (by decide)
    (by decide)).mpr ⟨[[[97, 98], [99]], [[100]]], rfl,
      .cons ⟨by decide, by decide⟩ (.cons ⟨by decide, by decide⟩ .nil)⟩

theorem cut_message_is_not_delivered :
    ¬∀ (buffers : List Bytes) (events : List DataEvent),
      (∀ buffer ∈ buffers, buffer.length < 10 ^ 10) →
      (buffers.mapM (sendData false)).map List.flatten =
        .ok (events.map DataEvent.data).flatten →
      handleEvents false events = .ok (buffers.map some) := by
  intro delivers
  have delivered := delivers [[97, 98]] lettersCut (by decide) (by decide)
  revert delivered
  decide

end StreamDataProcessor.Transport.Tcp
