import Mathlib.Data.List.Basic

/-!
# Runs of a machine that answers every input

A machine is its step function: one input in, one answer out. The run over a
list of inputs keeps the state reached and the answers in order. A property of
a whole run is proved from one step: either from an invariant, or from a
condition that every step of the run meets, or by relating two machines.
-/

namespace Foundation.Machine

variable {State State' Input Answer : Type*}

def run (step : State → Input → State × Answer) :
    State → List Input → State × List Answer
  | state, [] => (state, [])
  | state, input :: rest =>
      let (after, answer) := step state input
      let (final, answers) := run step after rest
      (final, answer :: answers)

variable (step : State → Input → State × Answer)

@[simp] theorem run_nil (state : State) : run step state [] = (state, []) := rfl

theorem run_cons (state : State) (input : Input) (rest : List Input) :
    run step state (input :: rest) =
      ((run step (step state input).1 rest).1,
        (step state input).2 :: (run step (step state input).1 rest).2) := rfl

theorem run_append (state : State) (earlier later : List Input) :
    run step state (earlier ++ later) =
      ((run step (run step state earlier).1 later).1,
        (run step state earlier).2 ++ (run step (run step state earlier).1 later).2) := by
  induction earlier generalizing state with
  | nil => rfl
  | cons input rest induction =>
      simp only [List.cons_append, run_cons, induction]

/-- The state reached after the first `count` inputs. -/
def stateAt (state : State) (inputs : List Input) (count : Nat) : State :=
  (run step state (inputs.take count)).1

@[simp] theorem state_at_zero (state : State) (inputs : List Input) :
    stateAt step state inputs 0 = state := rfl

theorem state_at_succ (state : State) (inputs : List Input) (count : Nat)
    (bound : count < inputs.length) :
    stateAt step state inputs (count + 1) =
      (step (stateAt step state inputs count) inputs[count]).1 := by
  unfold stateAt
  rw [List.take_succ_eq_append_getElem bound, run_append]
  rfl

/-- Every step of the run is taken in a state, and on an input, that meet the
condition. -/
def StepsMeet (condition : State → Input → Prop) : State → List Input → Prop
  | _, [] => True
  | state, input :: rest =>
      condition state input ∧ StepsMeet condition (step state input).1 rest

instance (condition : State → Input → Prop) [∀ state input, Decidable (condition state input)]
    (state : State) (inputs : List Input) : Decidable (StepsMeet step condition state inputs) :=
  decideStepsMeet state inputs
where
  decideStepsMeet (state : State) : (inputs : List Input) →
      Decidable (StepsMeet step condition state inputs)
    | [] => .isTrue trivial
    | input :: rest =>
        let _ := decideStepsMeet (step state input).1 rest
        inferInstanceAs (Decidable (condition state input ∧ _))

theorem steps_meet_iff (condition : State → Input → Prop) (state : State)
    (inputs : List Input) :
    StepsMeet step condition state inputs ↔
      ∀ count, (bound : count < inputs.length) →
        condition (stateAt step state inputs count) inputs[count] := by
  induction inputs generalizing state with
  | nil => simp [StepsMeet]
  | cons input rest induction =>
      constructor
      · rintro ⟨first, others⟩ count bound
        cases count with
        | zero => exact first
        | succ count =>
            exact (induction _).mp others count (by simpa using bound)
      · intro every
        refine ⟨every 0 (by simp), (induction _).mpr ?_⟩
        intro count bound
        exact every (count + 1) (by simpa using bound)

/-- An invariant of the steps that meet a condition holds wherever a run of such steps gets. -/
theorem run_invariant {condition : State → Input → Prop} {invariant : State → Prop}
    (kept : ∀ state input, invariant state → condition state input →
      invariant (step state input).1)
    {state : State} {inputs : List Input} (holds : invariant state)
    (meets : StepsMeet step condition state inputs) : invariant (run step state inputs).1 := by
  induction inputs generalizing state with
  | nil => exact holds
  | cons input rest induction =>
      obtain ⟨first, others⟩ := meets
      rw [run_cons]
      exact induction (kept state input holds first) others

theorem steps_meet_take {condition : State → Input → Prop} {state : State}
    {inputs : List Input} (meets : StepsMeet step condition state inputs) (count : Nat) :
    StepsMeet step condition state (inputs.take count) := by
  induction inputs generalizing state count with
  | nil => rw [List.take_nil]; exact meets
  | cons input rest induction =>
      cases count with
      | zero => exact trivial
      | succ count => exact ⟨meets.1, induction meets.2 count⟩

theorem state_at_invariant {condition : State → Input → Prop} {invariant : State → Prop}
    (kept : ∀ state input, invariant state → condition state input →
      invariant (step state input).1)
    {state : State} {inputs : List Input} (holds : invariant state)
    (meets : StepsMeet step condition state inputs) (count : Nat) :
    invariant (stateAt step state inputs count) :=
  run_invariant step kept holds (steps_meet_take step meets count)

end Foundation.Machine
