import Mathlib.Data.List.Nodup

/-!
# Lists of entries

Lists of keys with their values, in which no key stands twice.
-/

namespace Foundation.Entries

set_option autoImplicit false

variable {Key Value : Type} [BEq Key] [LawfulBEq Key]

theorem mem_of_lookup {entries : List (Key × Value)} {key : Key} {value : Value}
    (found : entries.lookup key = some value) : (key, value) ∈ entries := by
  obtain ⟨before, after, same, _⟩ := List.lookup_eq_some_iff.mp found
  rw [same]
  exact List.mem_append_right _ List.mem_cons_self

theorem lookup_iff_mem {entries : List (Key × Value)} (distinct : (entries.map Prod.fst).Nodup)
    {key : Key} {value : Value} :
    entries.lookup key = some value ↔ (key, value) ∈ entries := by
  refine ⟨mem_of_lookup, fun listed => ?_⟩
  obtain ⟨before, after, same⟩ := List.append_of_mem listed
  rw [same, List.map_append, List.nodup_append] at distinct
  refine List.lookup_eq_some_iff.mpr ⟨before, after, same, ?_⟩
  intro entry inBefore
  have apart := distinct.2.2 entry.1 (List.mem_map_of_mem inBefore) key
    (List.mem_map_of_mem List.mem_cons_self)
  exact bne_iff_ne.mpr apart.symm

theorem lookup_of_absent {entries : List (Key × Value)} {key : Key}
    (absent : key ∉ entries.map Prod.fst) : entries.lookup key = none := by
  rw [List.lookup_eq_none_iff]
  intro entry listed
  rw [bne_iff_ne]
  rintro rfl
  exact absent (List.mem_map_of_mem listed)

theorem lookup_perm {first second : List (Key × Value)}
    (distinct : (first.map Prod.fst).Nodup) (reordered : first.Perm second) (key : Key) :
    first.lookup key = second.lookup key := by
  ext value
  rw [lookup_iff_mem distinct, reordered.mem_iff,
    lookup_iff_mem ((reordered.map Prod.fst).nodup_iff.mp distinct)]

/-- A fold of assignments, in which one key writes a member and the others leave it. -/
theorem fold_member {State Member : Type} {assign : State → Key × Value → State} (key : Key)
    (member : State → Member) (read : Value → Member)
    (assigned : ∀ state entry, member (assign state entry) =
      if entry.1 == key then read entry.2 else member state)
    {entries : List (Key × Value)} (distinct : (entries.map Prod.fst).Nodup) (state : State) :
    member (entries.foldl assign state) =
      ((entries.lookup key).map read).getD (member state) := by
  induction entries generalizing state with
  | nil => rfl
  | cons entry rest induction =>
      rw [List.map_cons, List.nodup_cons] at distinct
      rw [List.foldl_cons, induction distinct.2, assigned]
      by_cases own : entry.1 = key
      · subst own
        rw [lookup_of_absent distinct.1, List.lookup_cons, if_pos (beq_self_eq_true _),
          beq_self_eq_true]
        rfl
      · rw [List.lookup_cons, beq_false_of_ne own, beq_false_of_ne (Ne.symm own)]
        rfl

end Foundation.Entries
