import Mathlib.Data.List.Nodup

/-!
# Folds that may stop

A fold whose step checks the item against the state and then changes the state.
It gets to the end when every item is admitted where it is met; a step that refuses
the keys it has seen admits the items whose keys all differ.
-/

namespace Foundation.CheckedFold

set_option autoImplicit false

variable {State Item Error Key : Type*}

/-- Every item is admitted in the state in which the fold meets it. -/
def Admitted (admits : State → Item → Prop) (apply : State → Item → State) :
    State → List Item → Prop
  | _, [] => True
  | state, item :: rest => admits state item ∧ Admitted admits apply (apply state item) rest

/-- The invariant `holds` may be used by the steps, which keep it. -/
theorem fold_ok_iff {step : State → Item → Except Error State} {admits : State → Item → Prop}
    {apply : State → Item → State} {holds : State → Prop} (items : List Item)
    (stepOk : ∀ item ∈ items, ∀ state, holds state → ∀ next, step state item = .ok next ↔
      admits state item ∧ next = apply state item)
    (keeps : ∀ item ∈ items, ∀ state, holds state → admits state item →
      holds (apply state item))
    {state : State} (start : holds state) (final : State) :
    items.foldlM step state = .ok final ↔
      Admitted admits apply state items ∧ final = items.foldl apply state := by
  induction items generalizing state with
  | nil =>
      constructor
      · intro same
        exact ⟨trivial, (Except.ok.inj same).symm⟩
      · intro same
        rw [same.2]
        rfl
  | cons item rest induction =>
      rw [List.forall_mem_cons] at stepOk keeps
      have own := stepOk.1 state start
      have others := fun admitted =>
        induction stepOk.2 keeps.2 (keeps.1 state start admitted)
      rw [List.foldlM_cons, List.foldl_cons, Admitted, and_assoc]
      cases result : step state item with
      | error error =>
          constructor
          · intro same
            cases same
          · intro admitted
            rw [(own _).mpr ⟨admitted.1, rfl⟩] at result
            cases result
      | ok next =>
          obtain ⟨admitted, rfl⟩ := (own next).mp result
          constructor
          · intro same
            exact ⟨admitted, (others admitted).mp same⟩
          · intro both
            exact (others admitted).mpr both.2

theorem admitted_iff_forall (valid : Item → Prop) (apply : State → Item → State) (state : State)
    (items : List Item) :
    Admitted (fun _ => valid) apply state items ↔ ∀ item ∈ items, valid item := by
  induction items generalizing state with
  | nil => simp [Admitted]
  | cons item rest induction => rw [Admitted, induction, List.forall_mem_cons]

theorem checks_ok_iff {Error Item : Type} {check : Item → Except Error Unit}
    (items : List Item) : items.forM check = .ok () ↔ ∀ item ∈ items, check item = .ok () := by
  induction items with
  | nil => exact ⟨fun _ item member => (List.not_mem_nil member).elim, fun _ => rfl⟩
  | cons item rest induction =>
      rw [List.forall_mem_cons, ← induction]
      change (check item >>= fun _ => rest.forM check) = .ok () ↔ _
      cases result : check item with
      | error error =>
          constructor
          · intro failed
            cases failed
          · intro passed
            cases passed.1
      | ok value =>
          constructor
          · intro passed
            exact ⟨rfl, passed⟩
          · intro passed
            exact passed.2

theorem admitted_iff_distinct {admits : State → Item → Prop} {apply : State → Item → State}
    {valid : Item → Prop} {keys : Item → List Key} {seen : State → Key → Prop}
    {holds : State → Prop} (items : List Item)
    (admitsNew : ∀ item ∈ items, ∀ state, admits state item ↔
      valid item ∧ ∀ key ∈ keys item, ¬seen state key)
    (keysDiffer : ∀ item ∈ items, valid item → (keys item).Nodup)
    (records : ∀ item ∈ items, ∀ state, holds state → valid item → ∀ key,
      seen (apply state item) key ↔ key ∈ keys item ∨ seen state key)
    (keeps : ∀ item ∈ items, ∀ state, holds state → valid item → holds (apply state item))
    {state : State} (start : holds state) :
    Admitted admits apply state items ↔
      (∀ item ∈ items, valid item) ∧ (items.flatMap keys).Nodup ∧
        ∀ key ∈ items.flatMap keys, ¬seen state key := by
  induction items generalizing state with
  | nil => simp [Admitted]
  | cons item rest induction =>
      rw [List.forall_mem_cons] at admitsNew keysDiffer records keeps
      have others := fun own =>
        induction admitsNew.2 keysDiffer.2 records.2 keeps.2 (keeps.1 state start own)
      have recorded := records.1 state start
      rw [Admitted, admitsNew.1, List.flatMap_cons, List.nodup_append, List.forall_mem_cons]
      constructor
      · intro admitted
        obtain ⟨⟨own, new⟩, later⟩ := admitted
        obtain ⟨valid, distinct, unseen⟩ := (others own).mp later
        have apart : ∀ key ∈ rest.flatMap keys, key ∉ keys item ∧ ¬seen state key := by
          intro key member
          have fresh := unseen key member
          rw [recorded own, not_or] at fresh
          exact fresh
        refine ⟨⟨own, valid⟩, ⟨keysDiffer.1 own, distinct, ?_⟩, ?_⟩
        · intro key first other second same
          rw [same] at first
          exact (apart other second).1 first
        · intro key member
          rcases List.mem_append.mp member with first | second
          · exact new key first
          · exact (apart key second).2
      · intro distinct
        obtain ⟨⟨own, valid⟩, ⟨_, differ, apart⟩, unseen⟩ := distinct
        refine ⟨⟨own, fun key member => unseen key (List.mem_append_left _ member)⟩,
          (others own).mpr ⟨valid, differ, ?_⟩⟩
        intro key member
        rw [recorded own, not_or]
        exact ⟨fun first => apart key first key member rfl,
          unseen key (List.mem_append_right _ member)⟩

/-- What some items bring about and the others keep holds at the end. -/
theorem fold_reaches {step : State → Item → State} {writes : Item → Prop} {goal : State → Prop}
    {items : List Item} (state : State)
    (sets : ∀ item ∈ items, writes item → ∀ state, goal (step state item))
    (keeps : ∀ item ∈ items, ¬writes item → ∀ state, goal state → goal (step state item))
    (given : (∃ item ∈ items, writes item) ∨ goal state) : goal (items.foldl step state) := by
  induction items generalizing state with
  | nil =>
      refine given.resolve_left fun written => ?_
      obtain ⟨item, member, _⟩ := written
      cases member
  | cons item rest induction =>
      rw [List.forall_mem_cons] at sets keeps
      apply induction (step state item) sets.2 keeps.2
      by_cases own : writes item
      · exact .inr (sets.1 own state)
      · rcases given with written | held
        · obtain ⟨other, member, written⟩ := written
          rcases List.mem_cons.mp member with rfl | later
          · exact absurd written own
          · exact .inl ⟨other, later, written⟩
        · exact .inr (keeps.1 own state held)

theorem nodup_sum_iff {First Second : Type*} (keys : List (First ⊕ Second)) :
    keys.Nodup ↔ (keys.filterMap Sum.getLeft?).Nodup ∧ (keys.filterMap Sum.getRight?).Nodup := by
  induction keys with
  | nil => simp
  | cons key rest induction =>
      rw [List.nodup_cons, induction]
      cases key with
      | inl first =>
          have member : .inl first ∈ rest ↔ first ∈ rest.filterMap Sum.getLeft? := by
            simp [List.mem_filterMap, Sum.getLeft?_eq_some_iff]
          change _ ↔ (first :: rest.filterMap Sum.getLeft?).Nodup ∧
            (rest.filterMap Sum.getRight?).Nodup
          rw [List.nodup_cons, member, and_assoc]
      | inr second =>
          have member : .inr second ∈ rest ↔ second ∈ rest.filterMap Sum.getRight? := by
            simp [List.mem_filterMap, Sum.getRight?_eq_some_iff]
          change _ ↔ (rest.filterMap Sum.getLeft?).Nodup ∧
            (second :: rest.filterMap Sum.getRight?).Nodup
          rw [List.nodup_cons, member, and_left_comm]

end Foundation.CheckedFold
