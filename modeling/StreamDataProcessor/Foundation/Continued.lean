import Mathlib.Data.List.Basic

/-!
# Sequences that go on while a mark is set

Every item but the last says that another one follows. Read from the front of a stream, such a
sequence ends at the first item without the mark.
-/

namespace Foundation.Continued

set_option autoImplicit false

variable {Item : Type*} {continues : Item → Bool}

/-- Every item but the last continues. -/
def Ended (continues : Item → Bool) (items : List Item) : Prop :=
  ∃ front last, items = front ++ [last] ∧ (∀ item ∈ front, continues item = true) ∧
    continues last = false

theorem not_ended_nil : ¬Ended continues [] := by
  intro ended
  obtain ⟨front, last, nothing, _⟩ := ended
  exact List.cons_ne_nil _ _ (List.append_eq_nil_iff.mp nothing.symm).2

theorem ended_cons (item : Item) (rest : List Item) :
    Ended continues (item :: rest) ↔
      (continues item = false ∧ rest = []) ∨ (continues item = true ∧ Ended continues rest) := by
  constructor
  · intro ended
    obtain ⟨front, last, split, marked, stops⟩ := ended
    cases front with
    | nil =>
        rw [List.nil_append, List.cons.injEq] at split
        exact .inl ⟨split.1 ▸ stops, split.2⟩
    | cons first front =>
        rw [List.cons_append, List.cons.injEq] at split
        have here : continues item = true := split.1 ▸ marked first List.mem_cons_self
        refine .inr ⟨here, front, last, split.2, ?_, stops⟩
        intro other member
        exact marked other (List.mem_cons_of_mem _ member)
  · intro cases
    rcases cases with ⟨stops, nothing⟩ | ⟨here, front, last, split, marked, stops⟩
    · exact ⟨[], item, by rw [nothing]; rfl, by simp, stops⟩
    · refine ⟨item :: front, last, by rw [split]; rfl, ?_, stops⟩
      intro other member
      rcases List.mem_cons.mp member with same | later
      · rw [same]
        exact here
      · exact marked other later

theorem ended_length {items : List Item} (ended : Ended continues items) : 0 < items.length := by
  apply List.length_pos_of_ne_nil
  intro nothing
  exact not_ended_nil (nothing ▸ ended)

/-- A sequence in front of a stream, by the first item of the stream. -/
theorem ended_front_cons {item : Item} {stream rest : List Item} (Holds : List Item → Prop) :
    (∃ used, item :: stream = used ++ rest ∧ Ended continues used ∧ Holds used) ↔
      (continues item = false ∧ stream = rest ∧ Holds [item]) ∨
        (continues item = true ∧
          ∃ used, stream = used ++ rest ∧ Ended continues used ∧ Holds (item :: used)) := by
  constructor
  · intro found
    obtain ⟨used, split, ended, holds⟩ := found
    cases used with
    | nil => exact absurd ended not_ended_nil
    | cons first used =>
        rw [List.cons_append, List.cons.injEq] at split
        obtain ⟨rfl, split⟩ := split
        rcases (ended_cons item used).mp ended with ⟨stops, rfl⟩ | ⟨here, ended⟩
        · exact .inl ⟨stops, split, holds⟩
        · exact .inr ⟨here, used, split, ended, holds⟩
  · intro cases
    rcases cases with ⟨stops, same, holds⟩ | ⟨here, used, split, ended, holds⟩
    · exact ⟨[item], by rw [same]; rfl, (ended_cons _ _).mpr (.inl ⟨stops, rfl⟩), holds⟩
    · exact ⟨item :: used, by rw [split]; rfl, (ended_cons _ _).mpr (.inr ⟨here, ended⟩), holds⟩

theorem ended_unique {Content : Type*} {content : Item → Content}
    (determined : ∀ left right, continues left = continues right → content left = content right →
      left = right) {left right : List Item} (leftEnded : Ended continues left)
    (rightEnded : Ended continues right) (same : left.map content = right.map content) :
    left = right := by
  induction left generalizing right with
  | nil => exact absurd leftEnded not_ended_nil
  | cons first left induction =>
      cases right with
      | nil => exact absurd rightEnded not_ended_nil
      | cons second right =>
          rw [List.map_cons, List.map_cons, List.cons.injEq] at same
          have length : left.length = right.length := by
            simpa using congrArg List.length same.2
          rcases (ended_cons first left).mp leftEnded with ⟨stops, rfl⟩ | ⟨here, leftEnded⟩
          · rcases (ended_cons second right).mp rightEnded with ⟨also, rfl⟩ | ⟨_, rightEnded⟩
            · rw [determined first second (stops.trans also.symm) same.1]
            · have positive := ended_length rightEnded
              rw [List.length_nil] at length
              omega
          · rcases (ended_cons second right).mp rightEnded with ⟨_, rfl⟩ | ⟨also, rightEnded⟩
            · have positive := ended_length leftEnded
              rw [List.length_nil] at length
              omega
            · rw [determined first second (here.trans also.symm) same.1,
                induction leftEnded rightEnded same.2]

end Foundation.Continued
