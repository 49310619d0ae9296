import StreamDataProcessor.Utils.Uvarint
import Mathlib.Logic.Function.Basic

/-!
# A node that evaluates its data

`EvalNode::handleData` gives the data to its handler and passes the buffers that come
back to every consumer, in the order in which the consumers were added.
-/

namespace StreamDataProcessor.Nodes.EvalNode

open Utils.Uvarint

set_option autoImplicit false

variable {Memory Consumer Part : Type*}

/-- `DataHandler::handle`; a handler that fails keeps what it has remembered till then. -/
abbrev DataHandler (Memory : Type*) := Memory → Bytes → Memory × Except String (List Bytes)

/-- What `EvalNode::handleData` passes on, and what it logs as an error. -/
def evaluate (handle : DataHandler Memory) (memory : Memory) (data : Bytes) :
    Memory × List Bytes × List String :=
  match handle memory data with
  | (after, .ok processedData) => (after, processedData, [])
  | (after, .error message) => (after, [], [message])

/-- The memory and the passed buffers only. -/
def process (handle : DataHandler Memory) (memory : Memory) (data : Bytes) :
    Memory × List Bytes :=
  ((evaluate handle memory data).1, (evaluate handle memory data).2.1)

section PassData

variable [DecidableEq Consumer]

variable (consume : Bytes → Part → Part × Option String)

/-- One consumer of the inner loop of `passData`; what it throws is logged. -/
def passTo (buffer : Bytes) (state : (Consumer → Part) × List String) (consumer : Consumer) :
    (Consumer → Part) × List String :=
  let (after, thrown) := consume buffer (state.1 consumer)
  (Function.update state.1 consumer after, state.2 ++ thrown.toList)

def passData (consumers : List Consumer) (data : List Bytes) (parts : Consumer → Part) :
    (Consumer → Part) × List String :=
  data.foldl (fun state buffer => consumers.foldl (passTo consume buffer) state) (parts, [])

def consumeAll (data : List Bytes) (part : Part) : Part :=
  data.foldl (fun part buffer => (consume buffer part).1) part

def changeEach (change : Consumer → Part → Part) (consumers : List Consumer)
    (parts : Consumer → Part) : Consumer → Part :=
  consumers.foldl
    (fun parts consumer => Function.update parts consumer (change consumer (parts consumer))) parts

theorem change_each_apart (change : Consumer → Part → Part) {consumers : List Consumer}
    (distinct : consumers.Nodup) (parts : Consumer → Part) (consumer : Consumer) :
    changeEach change consumers parts consumer =
      if consumer ∈ consumers then change consumer (parts consumer) else parts consumer := by
  unfold changeEach
  induction consumers generalizing parts with
  | nil => simp
  | cons first rest induction =>
      obtain ⟨foreign, distinct⟩ := List.nodup_cons.mp distinct
      rw [List.foldl_cons, induction distinct]
      by_cases own : consumer = first
      · subst own
        simp [foreign]
      · simp [own]

theorem pass_buffer_parts (buffer : Bytes) (consumers : List Consumer)
    (state : (Consumer → Part) × List String) :
    (consumers.foldl (passTo consume buffer) state).1 =
      changeEach (fun _ part => (consume buffer part).1) consumers state.1 :=
  (List.foldl_hom Prod.fst fun _ _ => rfl).symm

/-- A consumer gets every buffer in order, whatever the others throw. -/
theorem pass_data_each {consumers : List Consumer} (distinct : consumers.Nodup)
    (data : List Bytes) (parts : Consumer → Part) (consumer : Consumer) :
    (passData consume consumers data parts).1 consumer =
      if consumer ∈ consumers then consumeAll consume data (parts consumer)
      else parts consumer := by
  unfold passData
  generalize ([] : List String) = logged
  induction data generalizing parts logged with
  | nil => simp [consumeAll]
  | cons buffer rest induction =>
      rw [List.foldl_cons]
      have passed := change_each_apart (fun _ part => (consume buffer part).1) distinct parts consumer
      rw [← pass_buffer_parts consume buffer consumers (parts, logged)] at passed
      rw [induction, passed]
      by_cases member : consumer ∈ consumers
      · simp only [if_pos member]
        rfl
      · simp only [if_neg member]

end PassData

end StreamDataProcessor.Nodes.EvalNode
