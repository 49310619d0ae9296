import Mathlib.Data.List.Basic
import Mathlib.Data.List.Range
import Mathlib.Data.List.TakeWhile
import Mathlib.Tactic.Ring
import Mathlib.Algebra.Order.Ring.Int

/-!
# Hopping windows over a stream in the order of its times

Boundaries follow each other at a fixed distance. The window of a boundary holds
the items of the period before it. A reader of the stream may forget what is older
than the period of its next boundary.
-/

namespace Foundation.HoppingWindow

set_option autoImplicit false

variable {Item : Type*} (time : Item → Int)

def boundary (first every : Int) (index : Nat) : Int := first + index * every

/-- The items of the period that ends before `upper`. -/
def windowAt (period upper : Int) (items : List Item) : List Item :=
  items.filter fun item => upper - period ≤ time item ∧ time item < upper

/-- How many boundaries a clock at `now` has reached. -/
def dueCount (first every now : Int) : Nat := ((now - first) / every + 1).toNat

/-- The non-empty windows of the boundaries reached, in order. -/
def windows (period first every now : Int) (items : List Item) : List (List Item) :=
  ((List.range (dueCount first every now)).map fun index =>
    windowAt time period (boundary first every index) items).filter (· ≠ [])

theorem lt_due_count_iff {first every now : Int} (positive : 0 < every) (index : Nat) :
    index < dueCount first every now ↔ boundary first every index ≤ now := by
  unfold dueCount boundary
  rw [Int.lt_toNat, Int.lt_add_one_iff, Int.le_ediv_iff_mul_le positive]
  omega

theorem due_count_eq_zero {first every now : Int} (positive : 0 < every) (early : now < first) :
    dueCount first every now = 0 := by
  by_contra due
  have reached := (lt_due_count_iff positive 0).mp (Nat.pos_of_ne_zero due)
  simp only [boundary, Nat.cast_zero, Int.zero_mul, Int.add_zero] at reached
  omega

/-- The clock is before the first boundary it has not reached. -/
theorem lt_boundary_due_count {first every now : Int} (positive : 0 < every) :
    now < boundary first every (dueCount first every now) := by
  by_contra reached
  exact lt_irrefl _ ((lt_due_count_iff positive _).mpr (Int.not_lt.mp reached))

theorem due_count_succ {first every now : Int} (positive : 0 < every) (due : first ≤ now) :
    dueCount first every now = dueCount (first + every) every now + 1 := by
  have shift : (now - (first + every)) / every + 1 = (now - first) / every := by
    rw [show now - (first + every) = now - first + -1 * every by ring,
      Int.add_mul_ediv_right _ _ positive.ne']
    ring
  have nonneg : 0 ≤ (now - first) / every := Int.ediv_nonneg (by omega) positive.le
  unfold dueCount
  rw [shift]
  omega

theorem boundary_succ (first every : Int) (index : Nat) :
    boundary first every (index + 1) = boundary (first + every) every index := by
  unfold boundary
  push_cast
  ring

theorem boundary_add (first every : Int) (earlier later : Nat) :
    boundary first every (earlier + later) =
      boundary (boundary first every earlier) every later := by
  unfold boundary
  push_cast
  ring

theorem boundary_mono {first every : Int} (positive : 0 < every) {earlier later : Nat}
    (le : earlier ≤ later) : boundary first every earlier ≤ boundary first every later := by
  unfold boundary
  have scaled := Int.mul_le_mul_of_nonneg_right (Int.ofNat_le.mpr le) positive.le
  omega

theorem first_le_boundary (first : Int) {every : Int} (positive : 0 < every) (index : Nat) :
    first ≤ boundary first every index := by
  have above := @boundary_mono first every positive 0 index (Nat.zero_le index)
  simpa [boundary] using above

section Windows

variable {time}

theorem window_at_append (period upper : Int) (earlier later : List Item) :
    windowAt time period upper (earlier ++ later) =
      windowAt time period upper earlier ++ windowAt time period upper later := by
  simp [windowAt]

theorem window_at_of_late {period upper : Int} {items : List Item}
    (late : ∀ item ∈ items, upper ≤ time item) : windowAt time period upper items = [] := by
  unfold windowAt
  rw [List.filter_eq_nil_iff]
  intro item member
  have := late item member
  simp only [decide_eq_true_eq]
  omega

theorem window_at_of_old {period upper : Int} {items : List Item}
    (old : ∀ item ∈ items, time item < upper - period) :
    windowAt time period upper items = [] := by
  unfold windowAt
  rw [List.filter_eq_nil_iff]
  intro item member
  have := old item member
  simp only [decide_eq_true_eq]
  omega

/-- What a reader keeps of a stream, when all it forgot is older than `oldest`. -/
def Retains (time : Item → Int) (oldest : Int) (stream kept : List Item) : Prop :=
  ∃ forgotten, stream = forgotten ++ kept ∧ ∀ item ∈ forgotten, time item < oldest

theorem retains_refl (oldest : Int) (stream : List Item) :
    Retains time oldest stream stream := ⟨[], rfl, by simp⟩

theorem retains_trans {first second : Int} {stream middle kept : List Item}
    (le : first ≤ second) (earlier : Retains time first stream middle)
    (later : Retains time second middle kept) : Retains time second stream kept := by
  obtain ⟨old, rfl, early⟩ := earlier
  obtain ⟨next, rfl, late⟩ := later
  refine ⟨old ++ next, by rw [List.append_assoc], ?_⟩
  intro item member
  rcases List.mem_append.mp member with inOld | inNext
  · exact lt_of_lt_of_le (early item inOld) le
  · exact late item inNext

theorem retains_append {oldest : Int} {stream kept : List Item}
    (retains : Retains time oldest stream kept) (later : List Item) :
    Retains time oldest (stream ++ later) (kept ++ later) := by
  obtain ⟨old, rfl, early⟩ := retains
  exact ⟨old, by rw [List.append_assoc], early⟩

theorem retains_filter {oldest : Int} {stream : List Item}
    (sorted : stream.Pairwise fun earlier later => time earlier ≤ time later) :
    Retains time oldest stream (stream.filter fun item => oldest ≤ time item) := by
  induction stream with
  | nil => exact retains_refl _ _
  | cons item rest induction =>
      rw [List.pairwise_cons] at sorted
      by_cases recent : oldest ≤ time item
      · have all : ∀ other ∈ item :: rest, oldest ≤ time other := by
          intro other member
          rcases List.mem_cons.mp member with rfl | inRest
          · exact recent
          · exact Int.le_trans recent (sorted.1 other inRest)
        rw [List.filter_eq_self.mpr (by simpa using all)]
        exact retains_refl _ _
      · obtain ⟨old, split, early⟩ := induction sorted.2
        rw [List.filter_cons_of_neg (by simpa using recent)]
        refine ⟨item :: old, ?_, ?_⟩
        · conv_lhs => rw [split]
          rfl
        · intro other member
          rcases List.mem_cons.mp member with rfl | inOld
          · omega
          · exact early other inOld

theorem window_at_of_retains {period oldest upper : Int} {stream kept : List Item}
    (retains : Retains time oldest stream kept) (recent : oldest ≤ upper - period) :
    windowAt time period upper stream = windowAt time period upper kept := by
  obtain ⟨old, rfl, early⟩ := retains
  rw [window_at_append, window_at_of_old, List.nil_append]
  intro item member
  exact lt_of_lt_of_le (early item member) recent

theorem windows_due_succ {period first every now : Int} (positive : 0 < every)
    (due : first ≤ now) (items : List Item) :
    windows time period first every now items =
      [windowAt time period first items].filter (· ≠ []) ++
        windows time period (first + every) every now items := by
  unfold windows
  rw [due_count_succ positive due, List.range_succ_eq_map, List.map_cons, List.map_map,
    ← List.singleton_append, List.filter_append]
  have start : boundary first every 0 = first := by simp [boundary]
  simp only [Function.comp_def, Nat.succ_eq_add_one, boundary_succ, start]

theorem windows_not_due {period first every now : Int} (positive : 0 < every)
    (early : now < first) (items : List Item) :
    windows time period first every now items = [] := by
  unfold windows
  rw [due_count_eq_zero positive early]
  rfl

theorem windows_congr {period first every now : Int} {items others : List Item}
    (same : ∀ index, index < dueCount first every now →
      windowAt time period (boundary first every index) items =
        windowAt time period (boundary first every index) others) :
    windows time period first every now items = windows time period first every now others := by
  unfold windows
  congr 1
  apply List.map_congr_left
  intro index member
  exact same index (List.mem_range.mp member)

/-- The windows up to a later clock are those up to an earlier one, over what had
come by then, followed by those from the next boundary on. -/
theorem windows_append {period first every earlier later : Int} (positive : 0 < every)
    (le : earlier ≤ later) {stream rest : List Item}
    (late : ∀ item ∈ rest, earlier ≤ time item) :
    windows time period first every later (stream ++ rest) =
      windows time period first every earlier stream ++
        windows time period (boundary first every (dueCount first every earlier)) every later
          (stream ++ rest) := by
  have counts : dueCount first every earlier +
      dueCount (boundary first every (dueCount first every earlier)) every later =
        dueCount first every later := by
    apply Nat.le_antisymm
    · by_contra more
      rw [Nat.not_le] at more
      by_cases none : dueCount (boundary first every (dueCount first every earlier)) every later = 0
      · rw [none, Nat.add_zero, lt_due_count_iff positive] at more
        have beyond := @lt_boundary_due_count first every later
          positive
        omega
      · obtain ⟨index, last⟩ := Nat.exists_eq_succ_of_ne_zero none
        have reached := ((@lt_due_count_iff
            (boundary first every (dueCount first every earlier)) _ later)
          positive index).mp (by omega)
        rw [← boundary_add, ← lt_due_count_iff positive] at reached
        omega
    · by_contra more
      rw [Nat.not_le, lt_due_count_iff positive, boundary_add] at more
      have beyond := (@lt_boundary_due_count
          (boundary first every (dueCount first every earlier)) every later) positive
      omega
  unfold windows
  rw [← counts, List.range_add, List.map_append, List.filter_append, List.map_map]
  congr 2
  · apply List.map_congr_left
    intro index member
    have reached := (lt_due_count_iff positive index).mp (List.mem_range.mp member)
    rw [window_at_append, (@window_at_of_late _ _ _ _ rest) fun item inRest =>
      Int.le_trans reached (late item inRest), List.append_nil]
  · simp only [Function.comp_def, boundary_add]

theorem range_count_between (low high count : Nat) :
    (List.range count).countP (fun index => low ≤ index ∧ index < high) = min count high - low := by
  induction count with
  | zero => simp
  | succ count induction =>
      rw [List.range_succ, List.countP_append, induction, List.countP_singleton]
      split
      · next between =>
        simp only [decide_eq_true_eq] at between
        omega
      · next outside =>
        simp only [decide_eq_true_eq] at outside
        omega

section Overlap

variable {first every now : Int} {overlap : Nat} {items : List Item} {item : Item}

/-- The boundaries whose windows hold an item, when windows overlap evenly. -/
theorem window_holds_iff (positive : 0 < every) (index : Nat)
    (after : first - every ≤ time item) :
    (boundary first every index - overlap * every ≤ time item ∧
        time item < boundary first every index) ↔
      ((time item - first) / every + 1).toNat ≤ index ∧
        index < ((time item - first) / every + 1).toNat + overlap := by
  have nonneg : 0 ≤ (time item - first) / every + 1 := by
    have scaled : -1 ≤ (time item - first) / every := by
      rw [Int.le_ediv_iff_mul_le positive]
      omega
    omega
  have upper : time item < boundary first every index ↔ (time item - first) / every < index := by
    rw [Int.ediv_lt_iff_lt_mul positive, boundary]
    omega
  have lower : boundary first every index - overlap * every ≤ time item ↔
      (index : Int) - overlap ≤ (time item - first) / every := by
    rw [Int.le_ediv_iff_mul_le positive, Int.sub_mul, boundary]
    omega
  rw [upper, lower]
  omega

variable [BEq Item] [LawfulBEq Item]

theorem windows_count_eq (positive : 0 < every) (member : item ∈ items)
    (after : first - every ≤ time item) :
    (windows time (overlap * every) first every now items).countP (item ∈ ·) =
      min (dueCount first every now) (((time item - first) / every + 1).toNat + overlap) -
        ((time item - first) / every + 1).toNat := by
  have holds : ∀ index, item ∈ windowAt time (overlap * every) (boundary first every index) items ↔
      ((time item - first) / every + 1).toNat ≤ index ∧
        index < ((time item - first) / every + 1).toNat + overlap := by
    intro index
    rw [windowAt, List.mem_filter, decide_eq_true_eq, window_holds_iff positive index after]
    exact and_iff_right member
  rw [windows, List.countP_filter, List.countP_map, ← range_count_between]
  apply List.countP_congr
  intro index _
  simp only [Function.comp_apply, Bool.and_eq_true, decide_eq_true_eq, holds]
  apply and_iff_left_of_imp
  intro within
  exact List.ne_nil_of_mem ((holds index).mpr within)

/-- An item is in at most as many windows as overlap, -/
theorem windows_count_le (positive : 0 < every) (member : item ∈ items)
    (after : first - every ≤ time item) :
    (windows time (overlap * every) first every now items).countP (item ∈ ·) ≤ overlap := by
  rw [windows_count_eq positive member after]
  omega

/-- and in all of them once the clock is a period past it. -/
theorem windows_count_of_past (positive : 0 < every) (member : item ∈ items)
    (after : first - every ≤ time item) (past : time item + overlap * every ≤ now) :
    (windows time (overlap * every) first every now items).countP (item ∈ ·) = overlap := by
  rw [windows_count_eq positive member after]
  cases overlap with
  | zero => omega
  | succ overlap =>
      have last := (@window_holds_iff _ time first every (overlap + 1) item positive
        (((time item - first) / every + 1).toNat + overlap) after).mpr (by omega)
      have reached := (lt_due_count_iff positive _).mpr (show
        boundary first every (((time item - first) / every + 1).toNat + overlap) ≤ now by omega)
      omega

end Overlap

end Windows

/-- What is left of the items before a boundary once those in front that are older than
the period are gone. -/
def lateWindowAt (period upper : Int) (items : List Item) : List Item :=
  (items.filter fun item => time item < upper).dropWhile fun item => time item < upper - period

/-- No item older than a bound comes after one that is not. -/
def NoneStray (oldest : Int) (items : List Item) : Prop :=
  items.Pairwise fun earlier later => oldest ≤ time earlier → oldest ≤ time later

instance (oldest : Int) (items : List Item) : Decidable (NoneStray time oldest items) :=
  inferInstanceAs (Decidable (List.Pairwise _ _))

section Late

variable {time}

theorem drop_old_recent_iff {oldest : Int} {items : List Item} :
    (∀ item ∈ items.dropWhile (fun item => decide (time item < oldest)), oldest ≤ time item) ↔
      NoneStray time oldest items := by
  induction items with
  | nil => simp [NoneStray]
  | cons item rest induction =>
      rw [NoneStray, List.pairwise_cons]
      by_cases old : time item < oldest
      · rw [List.dropWhile_cons_of_pos (by simpa using old), induction]
        constructor
        · intro others
          exact ⟨fun _ _ recent => absurd recent (by omega), others⟩
        · exact And.right
      · rw [List.dropWhile_cons_of_neg (by simpa using old)]
        constructor
        · intro all
          have others : ∀ other ∈ rest, oldest ≤ time other := fun other member =>
            all other (List.mem_cons_of_mem _ member)
          refine ⟨fun other member _ => others other member, ?_⟩
          exact List.pairwise_of_forall_mem_list fun _ _ later member _ => others later member
        · rintro ⟨first, _⟩ other member
          rcases List.mem_cons.mp member with rfl | inRest
          · omega
          · exact first other inRest (by omega)

/-- The late window of a boundary holds only items of its period just when none strays. -/
theorem late_window_sound_iff {period upper : Int} {items : List Item} :
    (∀ item ∈ lateWindowAt time period upper items,
        upper - period ≤ time item ∧ time item < upper) ↔
      NoneStray time (upper - period) (items.filter fun item => time item < upper) := by
  rw [← drop_old_recent_iff]
  apply forall_congr'
  intro item
  apply imp_congr_right
  intro member
  have before := (List.mem_filter.mp ((List.dropWhile_sublist _).subset member)).2
  rw [decide_eq_true_eq] at before
  exact and_iff_left before

theorem drop_old_append {oldest : Int} {forgotten kept : List Item}
    (early : ∀ item ∈ forgotten, time item < oldest) :
    (forgotten ++ kept).dropWhile (fun item => decide (time item < oldest)) =
      kept.dropWhile fun item => decide (time item < oldest) := by
  induction forgotten with
  | nil => rfl
  | cons item rest induction =>
      rw [List.cons_append, List.dropWhile_cons_of_pos (by simpa using early item (by simp))]
      exact induction fun other member => early other (List.mem_cons_of_mem _ member)

theorem late_window_of_retains {period oldest upper : Int} {stream kept : List Item}
    (retains : Retains time oldest stream kept) (recent : oldest ≤ upper - period) :
    lateWindowAt time period upper stream = lateWindowAt time period upper kept := by
  obtain ⟨forgotten, rfl, early⟩ := retains
  unfold lateWindowAt
  rw [List.filter_append]
  apply drop_old_append
  intro item member
  exact lt_of_lt_of_le (early item (List.mem_of_mem_filter member)) recent

theorem retains_drop_old (oldest : Int) (items : List Item) :
    Retains time oldest items (items.dropWhile fun item => decide (time item < oldest)) := by
  refine ⟨items.takeWhile fun item => decide (time item < oldest),
    List.takeWhile_append_dropWhile.symm, ?_⟩
  intro item member
  simpa using List.mem_takeWhile_imp member

end Late

end Foundation.HoppingWindow
