import Mathlib.Data.List.Basic
import Mathlib.Tactic.Ring
import Mathlib.Algebra.Order.Ring.Int
import Mathlib.Algebra.Order.Ring.Abs
import Mathlib.Data.List.TakeWhile

/-!
# A sliding window between two pointers

Over items in the order of their times, one pointer passes what is too far behind
a centre and the other takes in what is not too far ahead of it. When the centre
only moves forward, what lies between the pointers is all that is near it.
-/

namespace Foundation.SlidingWindow

set_option autoImplicit false

variable {Item : Type*} (time : Item → Int) (unit reach : Int)

def Behind (center : Int) (item : Item) : Prop := reach < (center - time item) * unit

def Ahead (center : Int) (item : Item) : Prop := reach < (time item - center) * unit

def Near (center : Int) (item : Item) : Prop := |time item - center| * unit ≤ reach

instance (center : Int) : DecidablePred (Behind time unit reach center) :=
  fun _ => inferInstanceAs (Decidable (_ < _))

instance (center : Int) : DecidablePred (Ahead time unit reach center) :=
  fun _ => inferInstanceAs (Decidable (_ < _))

instance (center : Int) : DecidablePred (Near time unit reach center) :=
  fun _ => inferInstanceAs (Decidable (_ ≤ _))

structure Pointers (Item : Type*) where
  passed : List Item
  window : List Item
  coming : List Item

def Pointers.stream (pointers : Pointers Item) : List Item :=
  pointers.passed ++ pointers.window ++ pointers.coming

def Pointers.slide (center : Int) (pointers : Pointers Item) : Pointers Item where
  passed := pointers.passed ++ pointers.window.takeWhile (Behind time unit reach center ·)
  window := pointers.window.dropWhile (Behind time unit reach center ·) ++
    pointers.coming.takeWhile (¬Ahead time unit reach center ·)
  coming := pointers.coming.dropWhile (¬Ahead time unit reach center ·)

def Sorted (items : List Item) : Prop :=
  items.Pairwise fun earlier later => time earlier ≤ time later

/-- Pointers that can be moved on to a centre. -/
structure Ready (center : Int) (pointers : Pointers Item) : Prop where
  passed : ∀ item ∈ pointers.passed, Behind time unit reach center item
  window : ∀ item ∈ pointers.window, ¬Ahead time unit reach center item
  coming : ∀ item ∈ pointers.coming, center ≤ time item

/-- Any centre at or after the items seen finds the pointers where it can move them on. -/
def ReadyFrom (seen : List Item) (pointers : Pointers Item) : Prop :=
  ∀ center, (∀ item ∈ seen, time item ≤ center) →
    (∀ item ∈ pointers.passed, Behind time unit reach center item) ∧
      ∀ item ∈ pointers.window, ¬Ahead time unit reach center item

section Filters

theorem take_while_eq_filter {items : List Item} {keep : Item → Bool}
    (downward : items.Pairwise fun earlier later => keep later = true → keep earlier = true) :
    items.takeWhile keep = items.filter keep := by
  induction downward with
  | nil => rfl
  | @cons item rest first others induction =>
      by_cases kept : keep item = true
      · rw [List.takeWhile_cons_of_pos kept, List.filter_cons_of_pos kept, induction]
      · rw [List.takeWhile_cons_of_neg kept, List.filter_cons_of_neg kept, eq_comm,
          List.filter_eq_nil_iff]
        exact fun later member keepLater => kept (first later member keepLater)

theorem drop_while_eq_filter {items : List Item} {keep : Item → Bool}
    (downward : items.Pairwise fun earlier later => keep later = true → keep earlier = true) :
    items.dropWhile keep = items.filter fun item => !keep item := by
  induction downward with
  | nil => rfl
  | @cons item rest first others induction =>
      by_cases kept : keep item = true
      · rw [List.dropWhile_cons_of_pos kept, induction,
          List.filter_cons_of_neg (by simp [kept])]
      · rw [List.dropWhile_cons_of_neg kept, eq_comm, List.filter_eq_self]
        intro later member
        rcases List.mem_cons.mp member with rfl | inRest
        · simpa using kept
        · simpa using fun keepLater => kept (first later inRest keepLater)

end Filters

section Times

variable {time unit reach}

theorem near_iff {center : Int} {item : Item} (positive : 0 < unit) :
    Near time unit reach center item ↔
      ¬Behind time unit reach center item ∧ ¬Ahead time unit reach center item := by
  have swapped : (center - time item) * unit = -((time item - center) * unit) := by ring
  have scaled : |time item - center| * unit = |(time item - center) * unit| := by
    rw [abs_mul, abs_of_pos positive]
  unfold Near Behind Ahead
  rw [scaled, abs_le, swapped]
  omega

theorem behind_mono {first second : Int} {earlier later : Item} (nonneg : 0 ≤ unit)
    (centers : first ≤ second) (times : time earlier ≤ time later)
    (behind : Behind time unit reach first later) : Behind time unit reach second earlier :=
  Int.lt_of_lt_of_le behind (Int.mul_le_mul_of_nonneg_right (by omega) nonneg)

theorem ahead_anti {first second : Int} {earlier later : Item} (nonneg : 0 ≤ unit)
    (centers : first ≤ second) (times : time earlier ≤ time later)
    (ahead : Ahead time unit reach second earlier) : Ahead time unit reach first later :=
  Int.lt_of_lt_of_le ahead (Int.mul_le_mul_of_nonneg_right (by omega) nonneg)

theorem not_behind_of_le {center : Int} {item : Item} (nonneg : 0 ≤ unit) (reaches : 0 ≤ reach)
    (le : center ≤ time item) : ¬Behind time unit reach center item := by
  unfold Behind
  have scaled := Int.mul_nonneg (show 0 ≤ time item - center by omega) nonneg
  have swapped : (center - time item) * unit = -((time item - center) * unit) := by ring
  omega

theorem not_ahead_of_le {center : Int} {item : Item} (nonneg : 0 ≤ unit) (reaches : 0 ≤ reach)
    (le : time item ≤ center) : ¬Ahead time unit reach center item := by
  unfold Ahead
  have scaled := Int.mul_nonneg (show 0 ≤ center - time item by omega) nonneg
  have swapped : (time item - center) * unit = -((center - time item) * unit) := by ring
  omega

theorem drop_while_behind {items : List Item} (center : Int) (nonneg : 0 ≤ unit)
    (sorted : Sorted time items) :
    items.dropWhile (Behind time unit reach center ·) =
      items.filter (¬Behind time unit reach center ·) := by
  rw [drop_while_eq_filter]
  · simp
  · refine sorted.imp ?_
    intro earlier later le
    simpa using behind_mono nonneg le_rfl le

end Times

section Slides

variable {time unit reach} {center : Int} {pointers : Pointers Item}

@[simp] theorem slide_stream (center : Int) (pointers : Pointers Item) :
    (pointers.slide time unit reach center).stream = pointers.stream := by
  unfold Pointers.stream Pointers.slide
  dsimp only
  rw [List.append_assoc, List.append_assoc, List.append_assoc, List.takeWhile_append_dropWhile,
    ← List.append_assoc (pointers.window.takeWhile _), List.takeWhile_append_dropWhile,
    List.append_assoc]

theorem sorted_parts (sorted : Sorted time pointers.stream) :
    Sorted time pointers.passed ∧ Sorted time pointers.window ∧ Sorted time pointers.coming := by
  obtain ⟨front, coming, _⟩ := List.pairwise_append.mp sorted
  obtain ⟨passed, window, _⟩ := List.pairwise_append.mp front
  exact ⟨passed, window, coming⟩

theorem take_while_not_ahead {items : List Item} (center : Int) (nonneg : 0 ≤ unit)
    (sorted : Sorted time items) :
    items.takeWhile (¬Ahead time unit reach center ·) =
        items.filter (¬Ahead time unit reach center ·) ∧
      items.dropWhile (¬Ahead time unit reach center ·) =
        items.filter (Ahead time unit reach center ·) := by
  have downward : items.Pairwise fun earlier later =>
      decide (¬Ahead time unit reach center later) = true →
        decide (¬Ahead time unit reach center earlier) = true := by
    refine sorted.imp ?_
    intro earlier later le
    simpa using fun near ahead => near (ahead_anti nonneg le_rfl le ahead)
  rw [take_while_eq_filter downward, drop_while_eq_filter downward]
  simp

theorem slide_passed (ready : Ready time unit reach center pointers) :
    ∀ item ∈ (pointers.slide time unit reach center).passed,
      Behind time unit reach center item := by
  intro item member
  rcases List.mem_append.mp member with before | taken
  · exact ready.passed item before
  · simpa using List.mem_takeWhile_imp taken

variable (positive : 0 < unit) (reaches : 0 ≤ reach)
include positive reaches

/-- The window is what is near, and what is ahead is still to come. -/
theorem slide_window (ready : Ready time unit reach center pointers)
    (sorted : Sorted time pointers.stream) :
    (pointers.slide time unit reach center).window =
        pointers.stream.filter (Near time unit reach center ·) ∧
      (pointers.slide time unit reach center).coming =
        pointers.stream.filter (Ahead time unit reach center ·) := by
  obtain ⟨_, sortedWindow, sortedComing⟩ := sorted_parts sorted
  obtain ⟨taken, dropped⟩ := (@take_while_not_ahead _ _ _ reach) center positive.le sortedComing
  unfold Pointers.slide Pointers.stream
  dsimp only
  rw [drop_while_behind center positive.le sortedWindow, taken, dropped]
  simp only [List.filter_append]
  have passedNear : pointers.passed.filter (Near time unit reach center ·) = [] := by
    rw [List.filter_eq_nil_iff]
    intro item member
    simpa [near_iff positive] using fun near => absurd (ready.passed item member) near
  have windowNear : pointers.window.filter (Near time unit reach center ·) =
      pointers.window.filter (¬Behind time unit reach center ·) := by
    apply List.filter_congr
    intro item member
    simpa [near_iff positive] using fun _ => ready.window item member
  have comingNear : pointers.coming.filter (Near time unit reach center ·) =
      pointers.coming.filter (¬Ahead time unit reach center ·) := by
    apply List.filter_congr
    intro item member
    simpa [near_iff positive] using
      fun _ => not_behind_of_le positive.le reaches (ready.coming item member)
  have passedAhead : pointers.passed.filter (Ahead time unit reach center ·) = [] := by
    rw [List.filter_eq_nil_iff]
    intro item member
    have behind := ready.passed item member
    have early : time item ≤ center := by
      by_contra late
      exact not_behind_of_le positive.le reaches (by omega) behind
    simpa using not_ahead_of_le positive.le reaches early
  have windowAhead : pointers.window.filter (Ahead time unit reach center ·) = [] := by
    rw [List.filter_eq_nil_iff]
    intro item member
    simpa using ready.window item member
  rw [passedNear, windowNear, comingNear, passedAhead, windowAhead]
  exact ⟨by simp, by simp⟩

/-- What is still to come after a slide is in the part of the stream after the centre. -/
theorem slide_coming (ready : Ready time unit reach center pointers)
    (sorted : Sorted time pointers.stream) {earlier later : List Item}
    (split : pointers.stream = earlier ++ later)
    (before : ∀ item ∈ earlier, time item ≤ center) :
    ∀ item ∈ (pointers.slide time unit reach center).coming, item ∈ later := by
  intro item member
  rw [(slide_window positive reaches ready sorted).2, List.mem_filter, split, List.mem_append]
    at member
  obtain ⟨inEarlier | inLater, ahead⟩ := member
  · have near := not_ahead_of_le positive.le reaches (before item inEarlier)
    exact absurd (by simpa using ahead) near
  · exact inLater

/-- Pointers left by a slide can be moved on to any centre at or after the last one. -/
theorem slide_ready_from (ready : Ready time unit reach center pointers)
    (sorted : Sorted time pointers.stream) {seen : List Item}
    (centered : ∃ item ∈ seen, time item = center) :
    ReadyFrom time unit reach seen (pointers.slide time unit reach center) := by
  intro next later
  obtain ⟨item, inSeen, rfl⟩ := centered
  have centers := later item inSeen
  constructor
  · intro other member
    exact behind_mono positive.le centers le_rfl (slide_passed ready other member)
  · intro other member ahead
    rw [(slide_window positive reaches ready sorted).1, List.mem_filter] at member
    have near := (near_iff positive).mp (of_decide_eq_true member.2)
    exact near.2 (ahead_anti positive.le centers le_rfl ahead)

end Slides

end Foundation.SlidingWindow
