import Mathlib.Data.List.SplitBy

/-!
# Blocks that a head opens

A list cut before every item that opens a block; the other items continue the block
they stand in. A fold that closes the open block when it meets a head is a fold over
the blocks.
-/

namespace Foundation.Blocks

set_option autoImplicit false

universe u

variable {Item State Error : Type u} (continues : Item → Bool)

def blocks (items : List Item) : List (List Item) := items.splitBy fun _ next => continues next

theorem flatten_blocks (items : List Item) : (blocks continues items).flatten = items :=
  List.flatten_splitBy _ items

theorem block_shape {items block : List Item} (member : block ∈ blocks continues items) :
    ∃ head rest, block = head :: rest ∧ ∀ item ∈ rest, continues item = true := by
  have chain := List.isChain_of_mem_splitBy member
  have nonempty := List.ne_nil_of_mem_splitBy member
  obtain ⟨head, rest, rfl⟩ := List.exists_cons_of_ne_nil nonempty
  refine ⟨head, rest, rfl, ?_⟩
  clear member nonempty
  induction rest generalizing head with
  | nil => exact fun item member => (List.not_mem_nil member).elim
  | cons next rest induction =>
      rw [List.isChain_cons_cons] at chain
      exact List.forall_mem_cons.mpr ⟨chain.1, induction next chain.2⟩

theorem later_opens {items first : List Item} {later : List (List Item)}
    (cut : blocks continues items = first :: later) :
    ∀ block ∈ later, ∃ head rest, block = head :: rest ∧ continues head = false := by
  have chain := List.isChain_getLast_head_splitBy (fun _ next => continues next) items
  change (blocks continues items).IsChain _ at chain
  rw [cut] at chain
  clear cut
  induction later generalizing first with
  | nil => exact fun block member => (List.not_mem_nil member).elim
  | cons next later induction =>
      rw [List.isChain_cons_cons] at chain
      obtain ⟨⟨_, nonempty, opens⟩, others⟩ := chain
      refine List.forall_mem_cons.mpr ⟨?_, induction others⟩
      exact ⟨next.head nonempty, next.tail, (List.cons_head_tail nonempty).symm, opens⟩

section Closing

variable (step : State → Item → Except Error State) (close : State → Except Error State)

/-- A fold that closes the block it ends in. -/
def finish (state : State) (items : List Item) : Except Error State :=
  items.foldlM step state >>= close

variable {continues step close}

theorem finish_append (state : State) (block items : List Item) (final : State) :
    finish step close state (block ++ items) = .ok final ↔
      ∃ next, block.foldlM step state = .ok next ∧ finish step close next items = .ok final := by
  unfold finish
  rw [List.foldlM_append]
  cases block.foldlM step state with
  | error error =>
      constructor
      · intro failed
        cases failed
      · intro both
        obtain ⟨next, failed, _⟩ := both
        cases failed
  | ok next =>
      constructor
      · intro finished
        exact ⟨next, rfl, finished⟩
      · intro both
        obtain ⟨other, same, finished⟩ := both
        cases same
        exact finished

theorem finish_cons (state : State) (item : Item) (rest : List Item) (final : State) :
    finish step close state (item :: rest) = .ok final ↔
      ∃ next, step state item = .ok next ∧ finish step close next rest = .ok final := by
  have one : ∀ next, [item].foldlM step state = .ok next ↔ step state item = .ok next := by
    intro next
    rw [List.foldlM_cons]
    cases step state item <;> exact Iff.rfl
  rw [← List.singleton_append, finish_append]
  simp only [one]

/-- Closing first makes no difference to a fold that begins with a head. -/
theorem finish_closed
    {later : List (List Item)}
    (closesFirst : ∀ item ∈ later.flatten, continues item = false → ∀ state next,
      (step state item = .ok next ↔
        ∃ closed, close state = .ok closed ∧ step closed item = .ok next))
    (closedStays : ∀ state closed, close state = .ok closed → close closed = .ok closed)
    (opens : ∀ block ∈ later, ∃ head rest, block = head :: rest ∧ continues head = false)
    (state final : State) :
    finish step close state later.flatten = .ok final ↔
      ∃ closed, close state = .ok closed ∧ finish step close closed later.flatten = .ok final := by
  cases later with
  | nil =>
      constructor
      · intro finished
        exact ⟨final, finished, closedStays state final finished⟩
      · intro both
        obtain ⟨closed, closes, finished⟩ := both
        have same : close closed = .ok final := finished
        rw [closedStays state closed closes] at same
        rw [← Except.ok.inj same]
        exact closes
  | cons block later =>
      obtain ⟨head, rest, rfl, opening⟩ := opens block List.mem_cons_self
      rw [List.flatten_cons, List.cons_append]
      simp only [finish_cons, closesFirst head List.mem_cons_self opening state]
      constructor
      · intro finished
        obtain ⟨next, ⟨closed, closes, steps⟩, finished⟩ := finished
        exact ⟨closed, closes, next, steps, finished⟩
      · intro finished
        obtain ⟨closed, closes, next, steps, finished⟩ := finished
        exact ⟨next, ⟨closed, closes, steps⟩, finished⟩

/-- From a closed state, a fold that closes at every head runs block by block. -/
theorem finish_iff_blocks
    (items : List Item)
    (closesFirst : ∀ item ∈ items, continues item = false → ∀ state next,
      (step state item = .ok next ↔
        ∃ closed, close state = .ok closed ∧ step closed item = .ok next))
    (closedStays : ∀ state closed, close state = .ok closed → close closed = .ok closed)
    {state : State} (closed : close state = .ok state) (final : State) :
    finish step close state items = .ok final ↔
      (blocks continues items).foldlM (finish step close) state = .ok final := by
  have opening : ∀ first later, blocks continues items = first :: later →
      ∀ block ∈ later, ∃ head rest, block = head :: rest ∧ continues head = false :=
    fun _ _ cut => later_opens continues cut
  rw [← flatten_blocks continues items] at closesFirst
  conv_lhs => rw [← flatten_blocks continues items]
  generalize blocks continues items = cut at opening closesFirst
  induction cut generalizing state with
  | nil =>
      rw [List.flatten_nil]
      change close state = .ok final ↔ _
      rw [closed]
      exact Iff.rfl
  | cons first later induction =>
      have opens := opening first later rfl
      have laterOpening : ∀ second rest, later = second :: rest →
          ∀ block ∈ rest, ∃ head rest, block = head :: rest ∧ continues head = false := by
        intro second rest same block member
        exact opens block (same ▸ List.mem_cons_of_mem _ member)
      have laterCloses := fun item member =>
        closesFirst item (List.flatten_cons ▸ List.mem_append_right first member)
      rw [List.flatten_cons, finish_append, List.foldlM_cons]
      constructor
      · intro finished
        obtain ⟨next, run, finished⟩ := finished
        obtain ⟨closed, closes, finished⟩ :=
          (finish_closed laterCloses closedStays opens next final).mp finished
        have whole : finish step close state first = .ok closed := by
          rw [finish, run]
          exact closes
        rw [whole]
        exact (induction (closedStays next closed closes) laterOpening laterCloses).mp finished
      · intro finished
        cases run : first.foldlM step state with
        | error error =>
            rw [finish, run] at finished
            cases finished
        | ok next =>
            rw [finish, run] at finished
            cases closes : close next with
            | error error =>
                change (close next >>= _) = _ at finished
                rw [closes] at finished
                cases finished
            | ok closed =>
                change (close next >>= _) = _ at finished
                rw [closes] at finished
                refine ⟨next, rfl, (finish_closed laterCloses closedStays opens next final).mpr
                  ⟨closed, closes, ?_⟩⟩
                exact (induction (closedStays next closed closes) laterOpening laterCloses).mpr
                  finished

end Closing

end Foundation.Blocks
