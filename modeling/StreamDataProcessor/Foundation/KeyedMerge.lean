import Mathlib.Data.List.Sort
import Mathlib.Data.List.Induction
import Mathlib.Data.List.Dedup
import Mathlib.Data.List.Nodup

/-!
# Sets in which items of one key are merged

A sorted list with one item for each key. An item whose key is there already is merged into the
one that has it; whatever the order of the insertions, an item of the list is what the inserted
ones of its key come to, merged in the order of their insertion.
-/

namespace Foundation.KeyedMerge

set_option autoImplicit false

variable {Item Key : Type} [LinearOrder Key] (key : Item → Key) (merge : Item → Item → Item)

def insert (item : Item) : List Item → List Item
  | [] => [item]
  | held :: rest =>
      if key held < key item then held :: insert item rest
      else if key item < key held then item :: held :: rest
      else merge held item :: rest

def mergedAt (items : List Item) (own : Key) : Option Item :=
  match items.filter fun item => key item = own with
  | [] => none
  | first :: rest => some (rest.foldl merge first)

structure Holds (items held : List Item) : Prop where
  sorted : held.Pairwise fun earlier later => key earlier < key later
  merged : ∀ own, held.find? (fun item => key item = own) = mergedAt key merge items own

variable {key merge}

theorem keys_of_insert (keeps : ∀ held item, key held = key item → key (merge held item) = key held)
    (item : Item) (held : List Item) :
    ∀ own, own ∈ (insert key merge item held).map key ↔ own = key item ∨ own ∈ held.map key := by
  intro own
  induction held with
  | nil => rw [insert, List.map_singleton, List.mem_singleton, List.map_nil, List.mem_nil_iff,
      or_false]
  | cons first rest induction =>
      rw [insert]
      split
      · rw [List.map_cons, List.mem_cons, induction, List.map_cons, List.mem_cons]
        tauto
      · next notBefore =>
        split
        · rw [List.map_cons, List.mem_cons]
        · next notAfter =>
          have same : key first = key item :=
            le_antisymm (not_lt.mp notAfter) (not_lt.mp notBefore)
          rw [List.map_cons, List.mem_cons, keeps first item same, List.map_cons, List.mem_cons,
            same]
          tauto

theorem sorted_insert (keeps : ∀ held item, key held = key item → key (merge held item) = key held)
    (item : Item) {held : List Item}
    (sorted : held.Pairwise fun earlier later => key earlier < key later) :
    (insert key merge item held).Pairwise fun earlier later => key earlier < key later := by
  induction held with
  | nil => exact List.pairwise_singleton _ _
  | cons first rest induction =>
      rw [List.pairwise_cons] at sorted
      rw [insert]
      split
      · next before =>
        refine List.pairwise_cons.mpr ⟨?_, induction sorted.2⟩
        intro later listed
        have own := (keys_of_insert keeps item rest (key later)).mp (List.mem_map_of_mem listed)
        rcases own with same | inRest
        · rwa [same]
        · obtain ⟨other, member, same⟩ := List.mem_map.mp inRest
          rw [← same]
          exact sorted.1 other member
      · next notBefore =>
        split
        · next after =>
          refine List.pairwise_cons.mpr ⟨?_, List.pairwise_cons.mpr sorted⟩
          intro later listed
          rcases List.mem_cons.mp listed with rfl | inRest
          · exact after
          · exact after.trans (sorted.1 later inRest)
        · next notAfter =>
          have same : key first = key item :=
            le_antisymm (not_lt.mp notAfter) (not_lt.mp notBefore)
          refine List.pairwise_cons.mpr ⟨?_, sorted.2⟩
          rw [keeps first item same]
          exact sorted.1

theorem find_of_greater {held : List Item} {own : Key} (greater : ∀ item ∈ held, own < key item) :
    held.find? (fun item => key item = own) = none := by
  rw [List.find?_eq_none]
  intro item listed same
  exact absurd (of_decide_eq_true same) (greater item listed).ne'

theorem find_insert (keeps : ∀ held item, key held = key item → key (merge held item) = key held)
    (item : Item) {held : List Item}
    (sorted : held.Pairwise fun earlier later => key earlier < key later) (own : Key) :
    (insert key merge item held).find? (fun item => key item = own) =
      if key item = own then
        some (match held.find? fun item => key item = own with
          | none => item
          | some found => merge found item)
      else held.find? fun item => key item = own := by
  induction held with
  | nil =>
      rw [insert, List.find?_singleton, List.find?_nil]
      by_cases same : key item = own
      · simp [same]
      · simp [same]
  | cons first rest induction =>
      rw [List.pairwise_cons] at sorted
      rw [insert]
      split
      · next before =>
        by_cases same : key first = own
        · have other : key item ≠ own := by
            rw [← same]
            exact before.ne'
          rw [List.find?_cons_of_pos (by simpa using same),
            List.find?_cons_of_pos (by simpa using same), if_neg other]
        · rw [List.find?_cons_of_neg (by simpa using same),
            List.find?_cons_of_neg (by simpa using same)]
          exact induction sorted.2
      · next notBefore =>
        split
        · next after =>
          by_cases same : key item = own
          · have none : (first :: rest).find? (fun item => key item = own) = none := by
              apply find_of_greater
              rw [← same, List.forall_mem_cons]
              exact ⟨after, fun later listed => after.trans (sorted.1 later listed)⟩
            rw [List.find?_cons_of_pos (by simpa using same), if_pos same, none]
          · rw [List.find?_cons_of_neg (by simpa using same), if_neg same]
        · next notAfter =>
          have sameKey : key first = key item :=
            le_antisymm (not_lt.mp notAfter) (not_lt.mp notBefore)
          have kept := keeps first item sameKey
          by_cases same : key item = own
          · rw [List.find?_cons_of_pos (by rw [kept, sameKey]; simpa using same), if_pos same,
              List.find?_cons_of_pos (by rw [sameKey]; simpa using same)]
          · rw [List.find?_cons_of_neg (by rw [kept, sameKey]; simpa using same), if_neg same,
              List.find?_cons_of_neg (by rw [sameKey]; simpa using same)]

theorem merged_at_append (items : List Item) (item : Item) (own : Key) :
    mergedAt key merge (items ++ [item]) own =
      if key item = own then
        some (match mergedAt key merge items own with
          | none => item
          | some found => merge found item)
      else mergedAt key merge items own := by
  unfold mergedAt
  rw [List.filter_append]
  by_cases same : key item = own
  · rw [List.filter_cons_of_pos (by simpa using same), List.filter_nil, if_pos same]
    cases items.filter fun item => key item = own with
    | nil => rfl
    | cons first rest => simp
  · rw [List.filter_cons_of_neg (by simpa using same), List.filter_nil, List.append_nil,
      if_neg same]

theorem holds_insertions
    (keeps : ∀ held item, key held = key item → key (merge held item) = key held)
    (items : List Item) :
    Holds key merge items (items.foldl (fun held item => insert key merge item held) []) := by
  induction items using List.reverseRecOn with
  | nil => exact ⟨.nil, fun _ => rfl⟩
  | append_singleton earlier item induction =>
      rw [List.foldl_append]
      refine ⟨sorted_insert keeps item induction.sorted, ?_⟩
      intro own
      rw [merged_at_append, ← induction.merged]
      exact find_insert keeps item induction.sorted own

theorem key_of_merged
    (keeps : ∀ held item, key held = key item → key (merge held item) = key held)
    {items : List Item} {own : Key} {item : Item}
    (merged : mergedAt key merge items own = some item) : key item = own := by
  have each : ∀ rest : List Item, (∀ other ∈ rest, key other = own) → ∀ first, key first = own →
      key (rest.foldl merge first) = own := by
    intro rest
    induction rest with
    | nil => exact fun _ _ same => same
    | cons other rest induction =>
        intro all first same
        rw [List.forall_mem_cons] at all
        apply induction all.2
        rw [keeps first other (same.trans all.1.symm), same]
  unfold mergedAt at merged
  split at merged
  · cases merged
  · next first rest found =>
    have all : ∀ other ∈ first :: rest, key other = own := by
      intro other listed
      rw [← found] at listed
      exact of_decide_eq_true (List.mem_filter.mp listed).2
    rw [List.forall_mem_cons] at all
    rw [← Option.some.inj merged]
    exact each rest all.2 first all.1

theorem merged_at_none_iff {items : List Item} {own : Key} :
    mergedAt key merge items own = none ↔ own ∉ items.map key := by
  unfold mergedAt
  split
  · next none =>
    rw [List.filter_eq_nil_iff] at none
    simpa using none
  · next first rest found =>
    have listed : first ∈ items.filter fun item => key item = own := by
      rw [found]
      exact List.mem_cons_self
    obtain ⟨member, same⟩ := List.mem_filter.mp listed
    simp only [reduceCtorEq, false_iff, not_not]
    rw [← of_decide_eq_true same]
    exact List.mem_map_of_mem member

variable {items held : List Item}

theorem mem_iff_merged (holds : Holds key merge items held) (item : Item) :
    item ∈ held ↔ mergedAt key merge items (key item) = some item := by
  rw [← holds.merged]
  constructor
  · intro listed
    cases found : held.find? fun other => key other = key item with
    | none =>
        rw [List.find?_eq_none] at found
        exact absurd (decide_eq_true rfl) (found item listed)
    | some other =>
        have same : key other = key item := by simpa using List.find?_some found
        have distinct : (held.map key).Nodup :=
          List.pairwise_map.mpr (holds.sorted.imp fun less => less.ne)
        rw [List.inj_on_of_nodup_map distinct (List.mem_of_find?_eq_some found) listed same]
  · exact List.mem_of_find?_eq_some

theorem holds_perm
    (keeps : ∀ held item, key held = key item → key (merge held item) = key held)
    (holds : Holds key merge items held) :
    held.Perm ((items.map key).dedup.filterMap (mergedAt key merge items)) := by
  have distinctHeld : held.Nodup := holds.sorted.imp fun less same => less.ne (congrArg key same)
  have distinct : ((items.map key).dedup.filterMap (mergedAt key merge items)).Nodup := by
    apply List.Nodup.filterMap _ (List.nodup_dedup _)
    intro first second item own other
    rw [← key_of_merged keeps own, key_of_merged keeps other]
  apply (List.perm_ext_iff_of_nodup distinctHeld distinct).mpr
  intro item
  rw [mem_iff_merged holds, List.mem_filterMap]
  constructor
  · intro merged
    refine ⟨key item, ?_, merged⟩
    rw [List.mem_dedup]
    by_contra absent
    rw [merged_at_none_iff.mpr absent] at merged
    cases merged
  · rintro ⟨own, _, merged⟩
    rwa [key_of_merged keeps merged]

theorem holds_length
    (keeps : ∀ held item, key held = key item → key (merge held item) = key held)
    (holds : Holds key merge items held) : held.length = (items.map key).dedup.length := by
  rw [(holds_perm keeps holds).length_eq, List.length_filterMap_eq_countP, List.countP_eq_length]
  intro own listed
  rw [List.mem_dedup] at listed
  rw [Option.isSome_iff_ne_none, ne_eq, merged_at_none_iff, not_not]
  exact listed

end Foundation.KeyedMerge
