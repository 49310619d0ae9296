import Mathlib.Data.List.Perm.Basic

/-!
# Groups of agreeing items

A list is cut up into groups when they hold its items, no group is empty, items of one group
agree and items of different ones do not. Groups of the items with a property and groups of the
others are groups of all, where no item with the property agrees with one without it.
-/

namespace Foundation.Grouping

set_option autoImplicit false

variable {Item : Type} {agree : Item → Item → Prop}

structure Groups (agree : Item → Item → Prop) (items : List Item) (groups : List (List Item)) :
    Prop where
  nonempty : ∀ group ∈ groups, group ≠ []
  whole : groups.flatten.Perm items
  within : ∀ group ∈ groups, ∀ first ∈ group, ∀ second ∈ group, agree first second
  apart : groups.Pairwise fun earlier later =>
    ∀ first ∈ earlier, ∀ second ∈ later, ¬agree first second

theorem groups_one {items : List Item} (nonempty : items ≠ [])
    (all : ∀ first ∈ items, ∀ second ∈ items, agree first second) :
    Groups agree items [items] where
  nonempty := List.forall_mem_singleton.mpr nonempty
  whole := .of_eq List.flatten_singleton
  within := List.forall_mem_singleton.mpr all
  apart := List.pairwise_singleton _ _

theorem mem_of_mem_group {items group : List Item} {groups : List (List Item)}
    (cut : Groups agree items groups) (listed : group ∈ groups) {item : Item}
    (member : item ∈ group) : item ∈ items :=
  cut.whole.subset (List.mem_flatten.mpr ⟨group, listed, member⟩)

theorem groups_perm {items others : List Item} {groups : List (List Item)}
    (cut : Groups agree items groups) (same : items.Perm others) : Groups agree others groups :=
  { cut with whole := cut.whole.trans same }

theorem groups_congr {other : Item → Item → Prop} {items : List Item}
    {groups : List (List Item)} (cut : Groups agree items groups)
    (same : ∀ first ∈ items, ∀ second ∈ items, agree first second ↔ other first second) :
    Groups other items groups where
  nonempty := cut.nonempty
  whole := cut.whole
  within := by
    intro group listed first inFirst second inSecond
    have agreed := cut.within group listed first inFirst second inSecond
    exact (same first (mem_of_mem_group cut listed inFirst) second
      (mem_of_mem_group cut listed inSecond)).mp agreed
  apart := by
    apply List.Pairwise.imp_of_mem _ cut.apart
    intro earlier later inEarlier inLater apart first inFirst second inSecond agreed
    exact apart first inFirst second inSecond ((same first (mem_of_mem_group cut inEarlier inFirst)
      second (mem_of_mem_group cut inLater inSecond)).mpr agreed)

theorem groups_append {items : List Item} {keep : Item → Bool} {kept others : List (List Item)}
    (first : Groups agree (items.filter keep) kept)
    (second : Groups agree (items.filter fun item => !keep item) others)
    (apart : ∀ item ∈ items, keep item = true → ∀ other ∈ items, keep other = false →
      ¬agree item other) :
    Groups agree items (kept ++ others) where
  nonempty := List.forall_mem_append.mpr ⟨first.nonempty, second.nonempty⟩
  whole := by
    rw [List.flatten_append]
    exact (first.whole.append second.whole).trans (List.filter_append_perm keep items)
  within := List.forall_mem_append.mpr ⟨first.within, second.within⟩
  apart := by
    rw [List.pairwise_append]
    refine ⟨first.apart, second.apart, ?_⟩
    intro group inKept other inOthers item inGroup otherItem inOther
    have own := List.mem_filter.mp (mem_of_mem_group first inKept inGroup)
    have foreign := List.mem_filter.mp (mem_of_mem_group second inOthers inOther)
    exact apart item own.1 own.2 otherItem foreign.1 (by simpa using foreign.2)

section Values

variable {Value : Type} [DecidableEq Value] {value : Item → Value}

/-- Where items agree that have one value, the items with a value are one group or none. -/
theorem groups_of_value {items : List Item} {groups : List (List Item)}
    (cut : Groups (fun first second => value first = value second) items groups) (own : Value) :
    (groups.filter fun group => group.head?.map value = some own).flatten.Perm
        (items.filter fun item => value item = own) ∧
      (groups.filter fun group => group.head?.map value = some own).length ≤ 1 := by
  have ofGroup : ∀ group ∈ groups, group.filter (fun item => value item = own) =
      if group.head?.map value = some own then group else [] := by
    intro group listed
    obtain ⟨first, others, rfl⟩ := List.exists_cons_of_ne_nil (cut.nonempty group listed)
    have same : ∀ item ∈ first :: others, value item = value first := fun item member =>
      cut.within _ listed item member first List.mem_cons_self
    rw [List.head?_cons, Option.map_some]
    split
    · next isOwn =>
      rw [List.filter_eq_self]
      intro item member
      rw [same item member, Option.some.inj isOwn, decide_eq_true rfl]
    · next isOther =>
      rw [List.filter_eq_nil_iff]
      intro item member
      rw [same item member, decide_eq_true_eq]
      exact fun isOwn => isOther (congrArg some isOwn)
  constructor
  · have kept := cut.whole.filter fun item => decide (value item = own)
    refine List.Perm.trans (.of_eq ?_) kept
    clear kept cut
    induction groups with
    | nil => rfl
    | cons group rest induction =>
        rw [List.forall_mem_cons] at ofGroup
        rw [List.flatten_cons, List.filter_append, ofGroup.1, ← induction ofGroup.2,
          List.filter_cons]
        by_cases isOwn : group.head?.map value = some own
        · rw [if_pos (decide_eq_true isOwn), if_pos isOwn, List.flatten_cons]
        · rw [if_neg (by simpa using isOwn), if_neg isOwn, List.nil_append]
  · have apart := cut.apart.sublist (List.filter_sublist
      (p := fun group => decide (group.head?.map value = some own)))
    have headed : ∀ group ∈ groups.filter fun group => group.head?.map value = some own,
        ∃ first ∈ group, value first = own := by
      intro group listed
      obtain ⟨first, isFirst, ofFirst⟩ := Option.map_eq_some_iff.mp
        (of_decide_eq_true (List.mem_filter.mp listed).2)
      exact ⟨first, List.mem_of_head? isFirst, ofFirst⟩
    revert apart headed
    generalize groups.filter (fun group => group.head?.map value = some own) = kept
    intro apart headed
    rcases kept with _ | ⟨first, _ | ⟨second, others⟩⟩
    · exact Nat.zero_le 1
    · exact Nat.le_refl 1
    · rw [List.pairwise_cons] at apart
      obtain ⟨earlier, inFirst, ofEarlier⟩ := headed first List.mem_cons_self
      obtain ⟨later, inSecond, ofLater⟩ := headed second
        (List.mem_cons_of_mem _ List.mem_cons_self)
      exact absurd (ofEarlier.trans ofLater.symm)
        (apart.1 second List.mem_cons_self earlier inFirst later inSecond)

end Values

end Foundation.Grouping
