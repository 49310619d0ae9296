import StreamDataProcessor.Handlers.Window

/-!
# Rescheduling the next emission

A setter moves the planned emission by the difference to the option in force, unless the
moved one would lie before the change; the option itself is always replaced. What the
skipped changes would have moved stays in the plan. The sums are of 64 bits and wrap around.
-/

namespace StreamDataProcessor.Handlers.Window

open Foundation.TwosComplement

set_option autoImplicit false

structure OptionChange where
  value : Int
  changeTs : Int
  deriving DecidableEq

/-- Whether a setter moves the emission planned at `next` under the option in force. -/
def Moves (next option : Int) (change : OptionChange) : Prop :=
  next ≠ 0 ∧ wrap64 (next + change.value) ≥ option ∧
    wrap64 (wrap64 (next + change.value) - option) ≥ change.changeTs

instance (next option : Int) (change : OptionChange) : Decidable (Moves next option change) :=
  inferInstanceAs (Decidable (_ ∧ _ ∧ _))

def replan (plan : Int × Int) (change : OptionChange) : Int × Int :=
  (if Moves plan.1 plan.2 change then wrap64 (wrap64 (plan.1 + change.value) - plan.2)
    else plan.1, change.value)

/-- The sum of the differences by which the skipped changes would have moved the plan. -/
def skipped : Int × Int → List OptionChange → Int
  | _, [] => 0
  | plan, change :: rest =>
      (if Moves plan.1 plan.2 change then 0 else plan.2 - change.value) +
        skipped (replan plan change) rest

theorem replan_fits {plan : Int × Int} (fits : FitsInt64 plan.1) (changes : List OptionChange) :
    FitsInt64 (changes.foldl replan plan).1 := by
  induction changes generalizing plan with
  | nil => exact fits
  | cons change rest induction =>
      apply induction
      unfold replan
      split
      · exact wrap_fits _
      · exact fits

/-- The plan drifts from the option in force by what has been skipped. -/
theorem replanned {plan : Int × Int} (fits : FitsInt64 plan.1) (changes : List OptionChange) :
    (changes.foldl replan plan).1 =
      wrap64 (plan.1 - plan.2 + skipped plan changes + (changes.foldl replan plan).2) := by
  induction changes generalizing plan with
  | nil =>
      rw [List.foldl_nil, skipped, show plan.1 - plan.2 + 0 + plan.2 = plan.1 by omega]
      exact (wrap_of_fits fits).symm
  | cons change rest induction =>
      have next : FitsInt64 (replan plan change).1 := replan_fits fits [change]
      have drift : ∃ turns, (replan plan change).1 - (replan plan change).2 =
          plan.1 - plan.2 + (if Moves plan.1 plan.2 change then 0 else plan.2 - change.value) +
            turns * 2 ^ 64 := by
        unfold replan
        split
        · obtain ⟨turns, whole⟩ := dvd_wrap_sub (plan.1 + change.value - plan.2)
          refine ⟨turns, ?_⟩
          dsimp only
          rw [wrap_wrap_sub]
          omega
        · exact ⟨0, by dsimp only; omega⟩
      obtain ⟨turns, drift⟩ := drift
      rw [List.foldl_cons, induction next, skipped, wrap_eq_wrap_iff]
      refine ⟨turns, ?_⟩
      rw [← List.foldl_cons]
      omega

theorem last_option (plan : Int × Int) (earlier : List OptionChange) (last : OptionChange) :
    ((earlier ++ [last]).foldl replan plan).2 = last.value := by
  rw [List.foldl_append]
  rfl

/-- Where every change plans an emission that is not before it, and no sum of the plan and of
two options leaves 64 bits, none is skipped. -/
theorem nothing_skipped {start option limit : Int} {changes : List OptionChange}
    (began : 0 ≤ start) (room : start + 2 * limit < 2 ^ 63) (positive : 0 < option)
    (limited : option ≤ limit)
    (valid : ∀ change ∈ changes, 0 < change.value ∧ change.value ≤ limit)
    (timely : ∀ change ∈ changes, start + change.value ≥ change.changeTs) :
    skipped (start + option, option) changes = 0 := by
  induction changes generalizing option with
  | nil => rfl
  | cons change rest induction =>
      obtain ⟨own, small⟩ := valid change (by simp)
      have due := timely change (by simp)
      have sum : wrap64 (start + option + change.value) = start + option + change.value :=
        wrap_of_fits (by unfold FitsInt64; omega)
      have moved : wrap64 (wrap64 (start + option + change.value) - option) =
          start + change.value := by
        rw [sum, show start + option + change.value - option = start + change.value by omega]
        exact wrap_of_fits (by unfold FitsInt64; omega)
      have moves : Moves (start + option) option change :=
        ⟨by omega, by rw [sum]; omega, by rw [moved]; exact due⟩
      have next : replan (start + option, option) change =
          (start + change.value, change.value) := by
        rw [replan, if_pos moves]
        dsimp only
        rw [moved]
      rw [skipped, if_pos moves, next, zero_add]
      exact induction own small (fun other member => valid other (by simp [member]))
        fun other member => timely other (by simp [member])

section Setters

variable (handler : WindowHandler)

def setEveryOptions (changes : List OptionChange) : WindowHandler :=
  changes.foldl
    (fun handler change => setEveryOptionIn wrap64 change.value change.changeTs handler) handler

def setPeriodOptions (changes : List OptionChange) : WindowHandler :=
  changes.foldl
    (fun handler change => setPeriodOptionIn wrap64 change.value change.changeTs handler) handler

def EveryPlans : Prop := handler.emittedFirst = true ∨ handler.options.fillPeriod = false

def PeriodPlans : Prop := handler.emittedFirst = false ∧ handler.options.fillPeriod = true

variable {handler}

theorem set_every_options_replan (changes : List OptionChange) (plans : EveryPlans handler) :
    (setEveryOptions handler changes).nextEmit =
      (changes.foldl replan (handler.nextEmit, handler.options.every)).1 := by
  induction changes generalizing handler with
  | nil => rfl
  | cons change rest induction =>
      have kept : EveryPlans (setEveryOptionIn wrap64 change.value change.changeTs handler) := plans
      have phase : handler.emittedFirst = true ∨ ¬handler.options.fillPeriod = true := by
        rw [Bool.not_eq_true]
        exact plans
      have first : ((setEveryOptionIn wrap64 change.value change.changeTs handler).nextEmit,
          (setEveryOptionIn wrap64 change.value change.changeTs handler).options.every) =
            replan (handler.nextEmit, handler.options.every) change := by
        unfold setEveryOptionIn replan
        by_cases moves : Moves handler.nextEmit handler.options.every change
        · rw [if_pos moves]
          dsimp only
          rw [if_pos ⟨moves.1, phase, moves.2⟩]
        · rw [if_neg moves]
          dsimp only
          rw [if_neg fun guard => moves ⟨guard.1, guard.2.2⟩]
      rw [List.foldl_cons, ← first]
      exact induction kept

theorem set_period_options_replan (changes : List OptionChange) (plans : PeriodPlans handler) :
    (setPeriodOptions handler changes).nextEmit =
      (changes.foldl replan (handler.nextEmit, handler.options.period)).1 := by
  induction changes generalizing handler with
  | nil => rfl
  | cons change rest induction =>
      have kept : PeriodPlans (setPeriodOptionIn wrap64 change.value change.changeTs handler) := plans
      have first : ((setPeriodOptionIn wrap64 change.value change.changeTs handler).nextEmit,
          (setPeriodOptionIn wrap64 change.value change.changeTs handler).options.period) =
            replan (handler.nextEmit, handler.options.period) change := by
        have unset : ¬handler.emittedFirst = true := by simp [plans.1]
        unfold setPeriodOptionIn replan
        by_cases moves : Moves handler.nextEmit handler.options.period change
        · rw [if_pos moves]
          dsimp only
          rw [if_pos ⟨moves.1, unset, plans.2, moves.2⟩]
        · rw [if_neg moves]
          dsimp only
          rw [if_neg fun guard => moves ⟨guard.1, guard.2.2.2⟩]
      rw [List.foldl_cons, ← first]
      exact induction kept

/-- What the plan is after changes that the last of them could move: it depends on the last
one alone exactly when the skipped changes cancel out, up to whole turns of 64 bits. -/
theorem plan_is_last_iff {start : Int} {plan : Int × Int} (fits : FitsInt64 plan.1)
    (planned : plan.1 = start + plan.2) (earlier : List OptionChange) (last : OptionChange) :
    ((earlier ++ [last]).foldl replan plan).1 = start + last.value ↔
      FitsInt64 (start + last.value) ∧ 2 ^ 64 ∣ skipped plan (earlier ++ [last]) := by
  have drift := replanned fits (earlier ++ [last])
  have own := replan_fits fits (earlier ++ [last])
  rw [last_option] at drift
  constructor
  · intro isLast
    rw [isLast] at drift own
    refine ⟨own, ?_⟩
    rw [← wrap_of_fits own, wrap_eq_wrap_iff] at drift
    obtain ⟨turns, difference⟩ := drift
    exact ⟨-turns, by omega⟩
  · rintro ⟨lastFits, turns, whole⟩
    rw [drift, ← wrap_of_fits lastFits, wrap_eq_wrap_iff]
    exact ⟨turns, by omega⟩

/-- The emission planned after changes of `every` is that of the last one, where this is not
before its change, exactly when it fits 64 bits and the changes skipped cancel out; so it is for
changes of the period before the first emission. Nothing is skipped where no change plans an
emission before itself and the sums fit. -/
theorem plan_is_path_independent_iff (handler : WindowHandler) (start : Int)
    (earlier : List OptionChange) (last : OptionChange) (fits : FitsInt64 handler.nextEmit) :
    (EveryPlans handler → handler.nextEmit = start + handler.options.every →
      ((start + last.value ≥ last.changeTs →
          (setEveryOptions handler (earlier ++ [last])).nextEmit = start + last.value) ↔
        (start + last.value ≥ last.changeTs → FitsInt64 (start + last.value) ∧
          2 ^ 64 ∣ skipped (handler.nextEmit, handler.options.every) (earlier ++ [last])))) ∧
    (PeriodPlans handler → handler.nextEmit = start + handler.options.period →
      ((start + last.value ≥ last.changeTs →
          (setPeriodOptions handler (earlier ++ [last])).nextEmit = start + last.value) ↔
        (start + last.value ≥ last.changeTs → FitsInt64 (start + last.value) ∧
          2 ^ 64 ∣ skipped (handler.nextEmit, handler.options.period) (earlier ++ [last])))) ∧
    ∀ option limit, 0 ≤ start → start + 2 * limit < 2 ^ 63 → 0 < option → option ≤ limit →
      (∀ change ∈ earlier ++ [last], (0 < change.value ∧ change.value ≤ limit) ∧
        start + change.value ≥ change.changeTs) →
        skipped (start + option, option) (earlier ++ [last]) = 0 := by
  refine ⟨?_, ?_, ?_⟩
  · intro plans planned
    apply imp_congr_right
    intro _
    rw [set_every_options_replan _ plans]
    exact plan_is_last_iff fits planned earlier last
  · intro plans planned
    apply imp_congr_right
    intro _
    rw [set_period_options_replan _ plans]
    exact plan_is_last_iff fits planned earlier last
  · intro option limit began room positive limited timely
    exact nothing_skipped began room positive limited (fun change member => (timely change member).1)
      fun change member => (timely change member).2

def plannedHandler : WindowHandler :=
  { options := ⟨10, 10, false⟩, nextEmit := 110, emittedFirst := true }

theorem timely_changes_plan_the_last :
    ((100 + 8 : Int) ≥ 104 →
      (setEveryOptions plannedHandler ([⟨12, 103⟩] ++ [⟨8, 104⟩])).nextEmit = 100 + 8) ↔
    ((100 + 8 : Int) ≥ 104 → FitsInt64 (100 + 8) ∧
      2 ^ 64 ∣ skipped (110, 10) ([⟨12, 103⟩] ++ [⟨8, 104⟩])) :=
  (plan_is_path_independent_iff plannedHandler 100 [⟨12, 103⟩] ⟨8, 104⟩ (by decide)).1
    (.inl rfl) rfl

/-- Windows two seconds apart from 105 on, and ten seconds apart again from 106 on: the next
one is planned at 118 and not at 110. -/
theorem skipped_change_shifts_the_plan :
    ¬∀ (handler : WindowHandler) (start : Int) (changes : List OptionChange)
      (last : OptionChange), EveryPlans handler →
      handler.nextEmit = start + handler.options.every →
      (∀ change ∈ changes ++ [last], 1 ≤ change.value ∧ start ≤ change.changeTs ∧
        change.changeTs < handler.nextEmit) →
      (changes ++ [last]).Pairwise (fun earlier later => earlier.changeTs ≤ later.changeTs) →
      start + last.value ≥ last.changeTs →
      (setEveryOptions handler (changes ++ [last])).nextEmit = start + last.value := by
  intro claim
  have planned := claim plannedHandler 100 [⟨2, 105⟩] ⟨10, 106⟩ (.inl rfl) rfl (by decide)
    (by decide) (by decide)
  revert planned
  decide

end Setters

end StreamDataProcessor.Handlers.Window
