import Mathlib.Data.List.Basic

/-!
# Streams of headed messages

Every message is written after a header that depends on it. A prefix of such a
stream ends between two messages, inside a header or inside a message.
-/

namespace Foundation.Framing

set_option autoImplicit false

variable {Byte : Type*} (header : List Byte → List Byte)

def frame (message : List Byte) : List Byte := header message ++ message

def stream (messages : List (List Byte)) : List Byte := messages.flatMap (frame header)

@[simp] theorem stream_nil : stream header [] = [] := rfl

@[simp] theorem stream_cons (message : List Byte) (messages : List (List Byte)) :
    stream header (message :: messages) =
      header message ++ (message ++ stream header messages) := by
  simp [stream, frame]

theorem stream_append (earlier later : List (List Byte)) :
    stream header (earlier ++ later) = stream header earlier ++ stream header later := by
  simp [stream]

inductive PrefixEnd (messages : List (List Byte)) (received : List Byte) : Prop where
  | boundary (complete rest : List (List Byte)) (split : messages = complete ++ rest)
      (bytes : received = stream header complete)
  | inHeader (complete rest : List (List Byte)) (message part suffix : List Byte)
      (split : messages = complete ++ message :: rest)
      (bytes : received = stream header complete ++ part)
      (cut : part ++ suffix = header message) (started : part ≠ []) (proper : suffix ≠ [])
  | inBody (complete rest : List (List Byte)) (message part suffix : List Byte)
      (split : messages = complete ++ message :: rest)
      (bytes : received = stream header complete ++ (header message ++ part))
      (cut : part ++ suffix = message) (proper : suffix ≠ [])

theorem prefix_end_first {message received suffix : List Byte} (rest : List (List Byte))
    (proper : suffix ≠ []) (split : received ++ suffix = header message ++ message) :
    PrefixEnd header (message :: rest) received := by
  rcases List.append_eq_append_iff.mp split with ⟨inside, cut, _⟩ | ⟨body, rfl, cut⟩
  · by_cases whole : inside = []
    · subst whole
      by_cases empty : message = []
      · subst empty
        exact .boundary [[]] rest rfl (by simpa using cut.symm)
      · exact .inBody [] rest message [] message rfl (by simpa using cut.symm) rfl empty
    · by_cases started : received = []
      · exact .boundary [] (message :: rest) rfl started
      · exact .inHeader [] rest message received inside rfl rfl cut.symm started whole
  · exact .inBody [] rest message body suffix rfl rfl cut.symm proper

theorem prefix_end_cons {message received : List Byte} {messages : List (List Byte)}
    (later : PrefixEnd header messages received) :
    PrefixEnd header (message :: messages) (header message ++ (message ++ received)) := by
  cases later with
  | boundary complete rest split bytes =>
      exact .boundary (message :: complete) rest (by rw [split]; rfl) (by simp [bytes])
  | inHeader complete rest next part suffix split bytes cut started proper =>
      exact .inHeader (message :: complete) rest next part suffix (by rw [split]; rfl)
        (by simp [bytes]) cut started proper
  | inBody complete rest next part suffix split bytes cut proper =>
      exact .inBody (message :: complete) rest next part suffix (by rw [split]; rfl)
        (by simp [bytes]) cut proper

theorem prefix_end (messages : List (List Byte)) (received rest : List Byte)
    (split : received ++ rest = stream header messages) :
    PrefixEnd header messages received := by
  induction messages generalizing received with
  | nil =>
      rw [stream_nil, List.append_eq_nil_iff] at split
      exact .boundary [] [] rfl split.1
  | cons message messages induction =>
      rw [stream_cons, ← List.append_assoc] at split
      rcases List.append_eq_append_iff.mp split with ⟨suffix, first, _⟩ | ⟨after, rfl, others⟩
      · by_cases whole : suffix = []
        · subst whole
          exact .boundary [message] messages rfl (by simpa using first.symm)
        · exact prefix_end_first header messages whole first.symm
      · rw [List.append_assoc]
        exact prefix_end_cons header (induction after others.symm)

/-- A byte position belongs to at most one frame of a stream. -/
theorem frame_unique {messages before before' rest rest' : List (List Byte)}
    {message message' : List Byte} {position : Nat}
    (split : messages = before ++ message :: rest)
    (split' : messages = before' ++ message' :: rest')
    (lower : (stream header before).length ≤ position)
    (upper : position < (stream header before).length + (frame header message).length)
    (lower' : (stream header before').length ≤ position)
    (upper' : position < (stream header before').length + (frame header message').length) :
    before = before' ∧ message = message' := by
  rw [split] at split'
  rcases List.append_eq_append_iff.mp split' with ⟨between, same, tail⟩ | ⟨between, same, tail⟩
  · cases between with
    | nil =>
        simp only [List.nil_append, List.cons.injEq] at tail
        exact ⟨by simpa using same.symm, tail.1⟩
    | cons first others =>
        rw [List.cons_append, List.cons.injEq] at tail
        obtain ⟨rfl, _⟩ := tail
        rw [same] at lower'
        simp only [frame, stream_append, stream_cons, List.length_append] at lower' upper
        omega
  · cases between with
    | nil =>
        simp only [List.nil_append, List.cons.injEq] at tail
        exact ⟨by simpa using same, tail.1.symm⟩
    | cons first others =>
        rw [List.cons_append, List.cons.injEq] at tail
        obtain ⟨rfl, _⟩ := tail
        rw [same] at lower
        simp only [frame, stream_append, stream_cons, List.length_append] at lower upper'
        omega

end Foundation.Framing
