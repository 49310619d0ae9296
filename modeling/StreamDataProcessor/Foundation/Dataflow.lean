import StreamDataProcessor.Foundation.Machine
import Mathlib.Data.List.Forall2

/-!
# Processes joined by first-in first-out links

Every process answers an item with the items it puts on its outgoing links. A process
has at most one incoming link. Whatever the order in which the processes take their
turns, what each has taken is the beginning of one and the same sequence: the
composition of the processes on the way from its source.
-/

namespace Foundation.Dataflow

open Foundation.Machine

set_option autoImplicit false

variable {Node Memory Item : Type*}

section Outputs

variable {Put : Type*} (process : Memory → Item → Memory × List Put) (memory : Memory)

def outputs (items : List Item) : List Put := (run process memory items).2.flatten

@[simp] theorem outputs_nil : outputs process memory [] = [] := rfl

theorem outputs_append (earlier later : List Item) :
    outputs process memory (earlier ++ later) =
      outputs process memory earlier ++
        outputs process (run process memory earlier).1 later := by
  unfold outputs
  rw [run_append, List.flatten_append]

theorem outputs_concat (items : List Item) (item : Item) :
    outputs process memory (items ++ [item]) =
      outputs process memory items ++ (process (run process memory items).1 item).2 := by
  rw [outputs_append]
  congr 1
  exact List.append_nil _

theorem outputs_mono {earlier later : List Item} (begins : earlier <+: later) :
    outputs process memory earlier <+: outputs process memory later := by
  obtain ⟨missing, rfl⟩ := begins
  rw [outputs_append]
  exact List.prefix_append _ _

/-- Processes that answer related items with related ones put related sequences on their
links. -/
theorem outputs_related {View Shown : Type*} {process : Memory → Item → Memory × List Put}
    {abstract : Memory → View → Memory × List Shown} {seen : Item → View → Prop}
    {passed : Put → Shown → Prop}
    (answers : ∀ memory item view, seen item view →
      (process memory item).1 = (abstract memory view).1 ∧
        List.Forall₂ passed (process memory item).2 (abstract memory view).2)
    {items : List Item} {views : List View} (each : List.Forall₂ seen items views)
    (memory : Memory) :
    List.Forall₂ passed (outputs process memory items) (outputs abstract memory views) := by
  induction each generalizing memory with
  | nil => exact .nil
  | @cons item view _ _ head _ induction =>
      obtain ⟨same, first⟩ := answers memory item view head
      have later := induction (abstract memory view).1
      rw [← same] at later
      rw [outputs, outputs, run_cons, run_cons, List.flatten_cons, List.flatten_cons]
      rw [← same]
      exact List.rel_append first later

end Outputs

structure Graph (Node Memory Item : Type*) where
  upstream : Node → Option Node
  process : Node → Memory → Item → Memory × List Item
  initial : Node → Memory

namespace Graph

variable (graph : Graph Node Memory Item)

def outputs (node : Node) (items : List Item) : List Item :=
  Dataflow.outputs (graph.process node) (graph.initial node) items

/-- The sequence that comes to a node when every source is given its items. -/
inductive Carries (given : Node → List Item) : Node → List Item → Prop where
  | source {node : Node} (root : graph.upstream node = none) :
      Carries given node (given node)
  | link {node above : Node} {items : List Item} (joined : graph.upstream node = some above)
      (carried : Carries given above items) : Carries given node (graph.outputs above items)

variable {graph} {given : Node → List Item}

/-- Only what the sources are given decides what comes to a node. -/
theorem Carries.of_sources {others : Node → List Item}
    (same : ∀ node, graph.upstream node = none → given node = others node)
    {node : Node} {items : List Item} (carried : graph.Carries given node items) :
    graph.Carries others node items := by
  induction carried with
  | source root =>
      rw [same _ root]
      exact .source root
  | link joined _ induction => exact .link joined induction

/-- Where the links go down, something comes to every node. -/
theorem carries_exists (height : Node → Nat)
    (descends : ∀ node above, graph.upstream node = some above → height above < height node)
    (given : Node → List Item) (node : Node) : ∃ items, graph.Carries given node items := by
  induction level : height node using Nat.strongRecOn generalizing node with
  | ind level induction =>
      cases source : graph.upstream node with
      | none => exact ⟨_, .source source⟩
      | some above =>
          have lower := descends node above source
          obtain ⟨items, carried⟩ := induction (height above) (level ▸ lower) above rfl
          exact ⟨_, .link source carried⟩

/-- Links that keep the order and repeat nothing carry a beginning of the sequence. -/
theorem taken_begins {taken : Node → List Item}
    (links : ∀ node above, graph.upstream node = some above →
      taken node <+: graph.outputs above (taken above))
    {node : Node} {items : List Item} (carried : graph.Carries taken node items) :
    taken node <+: items := by
  induction carried with
  | source => exact List.prefix_rfl
  | link joined _ induction =>
      exact (links _ _ joined).trans (outputs_mono _ _ induction)

/-- Links that have settled up to a source carry the whole sequence. -/
theorem taken_whole {taken : Node → List Item} {settled : Node → Prop}
    (links : ∀ node above, graph.upstream node = some above → settled node →
      settled above ∧ taken node = graph.outputs above (taken above))
    {node : Node} {items : List Item} (carried : graph.Carries taken node items)
    (settles : settled node) : taken node = items := by
  induction carried with
  | source => rfl
  | link joined _ induction =>
      obtain ⟨higher, whole⟩ := links _ _ joined settles
      rw [whole, induction higher]

end Graph

end Foundation.Dataflow
