import Mathlib.Data.List.Basic
import Mathlib.Data.Nat.Find
import Mathlib.Tactic.Common

/-!
# One scan for two items

A scan that keeps, for each of two tests, the index of the last item that passed it, and stops
once it has both. It ends behind the later of the two first items, so that the other test keeps
its first item only when no item in between passes it again.
-/

namespace Foundation.TwinSearch

set_option autoImplicit false

variable {Item : Type*} {left right test : Item → Bool} {items : List Item}

def search (left right : Item → Bool) :
    Nat → Option Nat → Option Nat → List Item → Option Nat × Option Nat
  | _, found, other, [] => (found, other)
  | index, found, other, item :: rest =>
      if found = none ∨ other = none then
        search left right (index + 1) (if left item then some index else found)
          (if right item then some index else other) rest
      else (found, other)

def Passes (test : Item → Bool) (items : List Item) (index : Nat) : Prop :=
  (items[index]?).any test = true

instance (test : Item → Bool) (items : List Item) (index : Nat) :
    Decidable (Passes test items index) :=
  inferInstanceAs (Decidable (_ = true))

structure Earliest (test : Item → Bool) (items : List Item) (index : Nat) : Prop where
  passes : Passes test items index
  first : ∀ earlier, earlier < index → ¬Passes test items earlier

/-- The last index of an item that passes, among those before a bound. -/
structure Latest (test : Item → Bool) (items : List Item) (bound index : Nat) : Prop where
  within : index < bound
  passes : Passes test items index
  last : ∀ later, index < later → later < bound → ¬Passes test items later

/-- What the scan has for a test at a bound. -/
def Seen (test : Item → Bool) (items : List Item) (bound : Nat) : Option Nat → Prop
  | none => ∀ index, index < bound → ¬Passes test items index
  | some index => Latest test items bound index

theorem earliest_unique {index other : Nat} (earliest : Earliest test items index)
    (also : Earliest test items other) : index = other := by
  rcases Nat.lt_trichotomy index other with before | same | after
  · exact absurd earliest.passes (also.first index before)
  · exact same
  · exact absurd also.passes (earliest.first other after)

theorem exists_earliest {index : Nat} (passes : Passes test items index) :
    ∃ first, Earliest test items first := by
  have found : ∃ index, Passes test items index := ⟨index, passes⟩
  exact ⟨Nat.find found, Nat.find_spec found, fun earlier before => Nat.find_min found before⟩

theorem passes_at {index : Nat} {item : Item} {rest : List Item}
    (split : items.drop index = item :: rest) : Passes test items index ↔ test item = true := by
  have here : items[index]? = some item := by
    rw [← List.head?_drop, split]
    rfl
  rw [Passes, here, Option.any_some]

theorem seen_next {index : Nat} {found : Option Nat} {item : Item} {rest : List Item}
    (split : items.drop index = item :: rest) (seen : Seen test items index found) :
    Seen test items (index + 1) (if test item then some index else found) := by
  have here := @passes_at _ test _ _ _ _ split
  split
  · next passed =>
    exact ⟨Nat.lt_succ_self index, here.mpr passed, fun later after before => by omega⟩
  · next failed =>
    have fails : ¬Passes test items index := fun passed => failed (here.mp passed)
    cases found with
    | none =>
        intro earlier before
        rcases Nat.lt_succ_iff_lt_or_eq.mp before with before | same
        · exact seen earlier before
        · rw [same]
          exact fails
    | some own =>
        refine ⟨Nat.lt_succ_of_lt seen.within, seen.passes, ?_⟩
        intro later after before
        rcases Nat.lt_succ_iff_lt_or_eq.mp before with before | same
        · exact seen.last later after before
        · rw [same]
          exact fails

theorem seen_of_earliest_before {bound first : Nat} {found : Option Nat}
    (seen : Seen test items bound found) (earliest : Earliest test items first)
    (before : first < bound) : ∃ index, found = some index := by
  cases found with
  | none => exact absurd earliest.passes (seen first before)
  | some index => exact ⟨index, rfl⟩

theorem earliest_before_of_seen {bound first index : Nat}
    (seen : Latest test items bound index) (earliest : Earliest test items first) :
    first < bound := by
  by_contra late
  exact earliest.first index (lt_of_lt_of_le seen.within (Nat.not_lt.mp late)) seen.passes

theorem search_latest {first second : Nat} (ofLeft : Earliest left items first)
    (ofRight : Earliest right items second) {index : Nat} {found other : Option Nat}
    {rest : List Item} (split : items.drop index = rest) (within : index ≤ max first second + 1)
    (seenLeft : Seen left items index found) (seenRight : Seen right items index other) :
    ∃ leftIndex rightIndex,
      search left right index found other rest = (some leftIndex, some rightIndex) ∧
      Latest left items (max first second + 1) leftIndex ∧
      Latest right items (max first second + 1) rightIndex := by
  have finished : index = max first second + 1 → ∃ leftIndex rightIndex,
      found = some leftIndex ∧ other = some rightIndex ∧
      Latest left items (max first second + 1) leftIndex ∧
      Latest right items (max first second + 1) rightIndex := by
    intro stop
    obtain ⟨leftIndex, rfl⟩ := seen_of_earliest_before seenLeft ofLeft (by omega)
    obtain ⟨rightIndex, rfl⟩ := seen_of_earliest_before seenRight ofRight (by omega)
    exact ⟨leftIndex, rightIndex, rfl, rfl, stop ▸ seenLeft, stop ▸ seenRight⟩
  induction rest generalizing index found other with
  | nil =>
      have past : ∀ position, Passes left items position ∨ Passes right items position →
          position < index := by
        intro position passes
        by_contra late
        have missing : items[position]? = none :=
          List.getElem?_eq_none (le_trans (List.drop_eq_nil_iff.mp split) (Nat.not_lt.mp late))
        rw [Passes, Passes, missing] at passes
        rcases passes with none | none <;> cases none
      have firstPast := past first (.inl ofLeft.passes)
      have secondPast := past second (.inr ofRight.passes)
      obtain ⟨leftIndex, rightIndex, rfl, rfl, latest⟩ := finished (by omega)
      exact ⟨leftIndex, rightIndex, rfl, latest⟩
  | cons item rest induction =>
      have next : items.drop (index + 1) = rest := by
        rw [← List.drop_drop, split]
        rfl
      rw [search]
      split
      · next missing =>
        have early : index ≠ max first second + 1 := by
          intro stop
          obtain ⟨leftIndex, rightIndex, rfl, rfl, _⟩ := finished stop
          rcases missing with none | none <;> cases none
        have nextLeft := seen_next split seenLeft
        have nextRight := seen_next split seenRight
        apply induction next (by omega) nextLeft nextRight
        intro stop
        obtain ⟨leftIndex, ownLeft⟩ := seen_of_earliest_before nextLeft ofLeft (by omega)
        obtain ⟨rightIndex, ownRight⟩ := seen_of_earliest_before nextRight ofRight (by omega)
        rw [ownLeft] at nextLeft
        rw [ownRight] at nextRight
        exact ⟨leftIndex, rightIndex, ownLeft, ownRight, stop ▸ nextLeft, stop ▸ nextRight⟩
      · next both =>
        rw [not_or] at both
        obtain ⟨leftIndex, rfl⟩ := Option.ne_none_iff_exists'.mp both.1
        obtain ⟨rightIndex, rfl⟩ := Option.ne_none_iff_exists'.mp both.2
        have firstPast := earliest_before_of_seen seenLeft ofLeft
        have secondPast := earliest_before_of_seen seenRight ofRight
        obtain ⟨_, _, sameLeft, sameRight, latest⟩ := finished (by omega)
        cases sameLeft
        cases sameRight
        exact ⟨leftIndex, rightIndex, rfl, latest⟩

theorem search_all {first second : Nat} (ofLeft : Earliest left items first)
    (ofRight : Earliest right items second) :
    ∃ leftIndex rightIndex,
      search left right 0 none none items = (some leftIndex, some rightIndex) ∧
      Latest left items (max first second + 1) leftIndex ∧
      Latest right items (max first second + 1) rightIndex :=
  search_latest ofLeft ofRight rfl (Nat.zero_le _) (fun _ before => absurd before (Nat.not_lt_zero _))
    (fun _ before => absurd before (Nat.not_lt_zero _))

theorem latest_eq_iff {first index bound : Nat} (latest : Latest test items bound index)
    (earliest : Earliest test items first) :
    index = first ↔ ∀ later, first < later → later < bound → ¬Passes test items later := by
  constructor
  · intro same
    rw [← same]
    exact latest.last
  · intro alone
    rcases Nat.lt_trichotomy index first with before | same | after
    · exact absurd latest.passes (earliest.first index before)
    · exact same
    · exact absurd latest.passes (alone index after latest.within)

/-- Both first items are found when no item up to the later one passes the test of the earlier
one again. -/
theorem search_earliest_iff {first second : Nat} (ofLeft : Earliest left items first)
    (ofRight : Earliest right items second) :
    search left right 0 none none items = (some first, some second) ↔
      (∀ later, first < later → later ≤ second → ¬Passes left items later) ∧
        ∀ later, second < later → later ≤ first → ¬Passes right items later := by
  obtain ⟨leftIndex, rightIndex, scanned, latestLeft, latestRight⟩ := search_all ofLeft ofRight
  rw [scanned, Prod.mk.injEq, Option.some.injEq, Option.some.injEq,
    latest_eq_iff latestLeft ofLeft, latest_eq_iff latestRight ofRight]
  constructor
  · intro alone
    constructor
    · intro later after before
      exact alone.1 later after (by omega)
    · intro later after before
      exact alone.2 later after (by omega)
  · intro alone
    constructor
    · intro later after before
      exact alone.1 later after (by omega)
    · intro later after before
      exact alone.2 later after (by omega)

/-- Where an item passes both tests only if their first items are the same, it is enough to look
strictly between these. -/
theorem unrepeated_iff {first second : Nat} (ofLeft : Earliest left items first)
    (ofRight : Earliest right items second)
    (apart : ∀ index, Passes left items index → Passes right items index → first = second) :
    ((∀ later, first < later → later ≤ second → ¬Passes left items later) ∧
      ∀ later, second < later → later ≤ first → ¬Passes right items later) ↔
    ∀ index, min first second < index → index < max first second →
      ¬Passes left items index ∧ ¬Passes right items index := by
  constructor
  · intro alone index after before
    constructor
    · intro passes
      rcases Nat.lt_or_ge index first with early | late
      · exact ofLeft.first index early passes
      · exact alone.1 index (by omega) (by omega) passes
    · intro passes
      rcases Nat.lt_or_ge index second with early | late
      · exact ofRight.first index early passes
      · exact alone.2 index (by omega) (by omega) passes
  · intro alone
    constructor
    · intro later after before passes
      rcases Nat.lt_or_eq_of_le before with inside | rfl
      · exact (alone later (by omega) (by omega)).1 passes
      · have same := apart later passes ofRight.passes
        omega
    · intro later after before passes
      rcases Nat.lt_or_eq_of_le before with inside | rfl
      · exact (alone later (by omega) (by omega)).2 passes
      · have same := apart later ofLeft.passes passes
        omega

end Foundation.TwinSearch
