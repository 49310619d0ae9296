import StreamDataProcessor.Foundation.Effect
import StreamDataProcessor.Foundation.Machine

/-!
# Calls that may fail, one after another

A call that fails may leave a changed state behind. Where the failures of a kind do
not, a run of calls goes on as if the failed ones had never been made.
-/

namespace Foundation.Attempts

open Effect Machine

set_option autoImplicit false

universe u

variable {Error State Value Input : Type u}

/-- A call as a step of a machine that answers with the result. -/
def attempt (call : Input → EStateM Error State Value) (state : State) (input : Input) :
    State × Except Error Value :=
  match call input state with
  | .ok value after => (after, .ok value)
  | .error error after => (after, .error error)

section Atomic

variable (kind : Error → Prop)

/-- An error of the kind leaves the state as it was. -/
def Atomic (computation : EStateM Error State Value) (state : State) : Prop :=
  ∀ error after, computation state = .error error after → kind error → after = state

variable {kind}

theorem atomic_iff_ends {computation : EStateM Error State Value} {state : State} :
    Atomic kind computation state ↔
      Ends (fun error after => kind error → after = state) (fun _ _ => True)
        (computation state) := by
  constructor
  · intro atomic
    cases outcome : computation state with
    | ok value after => trivial
    | error error after => exact atomic error after outcome
  · intro ends error after raised isKind
    rw [raised] at ends
    exact ends isKind

theorem atomic_of_ends {computation : EStateM Error State Value} {state : State}
    {post : Value → State → Prop}
    (ends : Ends (fun error _ => ¬kind error) post (computation state)) :
    Atomic kind computation state := by
  intro error after raised isKind
  rw [raised] at ends
  exact absurd isKind ends

theorem atomic_pure (value : Value) (state : State) :
    Atomic kind (pure value : EStateM Error State Value) state := by
  intro error after raised
  cases raised

/-- The first part leaves the state even where it returns. -/
theorem atomic_bind_same {Result : Type u} {first : EStateM Error State Value}
    {next : Value → EStateM Error State Result} {state : State}
    (same : Ends (fun _ after => after = state) (fun _ after => after = state) (first state))
    (rest : ∀ value, first state = .ok value state → Atomic kind (next value) state) :
    Atomic kind (first >>= next) state := by
  intro error after raised isKind
  rw [bind_apply] at raised
  cases outcome : first state with
  | ok value middle =>
      rw [outcome] at raised same
      have unchanged : middle = state := same
      subst unchanged
      exact rest value outcome error after raised isKind
  | error own middle =>
      rw [outcome] at raised same
      cases raised
      exact same

theorem atomic_of_except_bind {Result : Type u} {result : Except Error Value}
    {next : Value → EStateM Error State Result} {state : State}
    (rest : ∀ value, result = .ok value → Atomic kind (next value) state) :
    Atomic kind (ofExcept result >>= next) state := by
  apply atomic_bind_same
  · cases result <;> rfl
  · intro value returned
    cases result with
    | ok own =>
        cases returned
        exact rest value rfl
    | error error => cases returned

end Atomic

section Runs

variable (kind : Error → Prop) (call : Input → EStateM Error State Value)

/-- Every failure of the kind in a run of calls leaves the state as it was. -/
def FailuresAtomic (start : State) (inputs : List Input) : Prop :=
  ∀ count, (bound : count < inputs.length) → ∀ error, kind error →
    (attempt call (stateAt (attempt call) start inputs count) inputs[count]).2 = .error error →
    stateAt (attempt call) start inputs (count + 1) = stateAt (attempt call) start inputs count

variable {kind call}

theorem attempt_atomic {state : State} {input : Input} (atomic : Atomic kind (call input) state)
    {error : Error} (isKind : kind error)
    (failed : (attempt call state input).2 = .error error) :
    (attempt call state input).1 = state := by
  unfold attempt at failed ⊢
  cases outcome : call input state with
  | ok value after =>
      rw [outcome] at failed
      cases failed
  | error own after =>
      rw [outcome] at failed
      cases failed
      exact atomic error after outcome isKind

theorem failures_atomic_of_meets {condition : State → Input → Prop}
    (atomic : ∀ state input, condition state input → Atomic kind (call input) state)
    {start : State} {inputs : List Input}
    (meets : StepsMeet (attempt call) condition start inputs) :
    FailuresAtomic kind call start inputs := by
  intro count bound error isKind failed
  rw [state_at_succ _ _ _ _ bound]
  exact attempt_atomic (atomic _ _ ((steps_meet_iff _ _ _ _).mp meets count bound)) isKind failed

/-- The calls after a failed one go as if it had not been made. -/
theorem run_without_failed {start : State} {earlier later : List Input} {failed : Input}
    (atomic : FailuresAtomic kind call start (earlier ++ failed :: later)) {error : Error}
    (isKind : kind error)
    (fails : (attempt call (run (attempt call) start earlier).1 failed).2 = .error error) :
    run (attempt call) start (earlier ++ failed :: later) =
      ((run (attempt call) start (earlier ++ later)).1,
        (run (attempt call) start earlier).2 ++ .error error ::
          (run (attempt call) (run (attempt call) start earlier).1 later).2) := by
  have before : stateAt (attempt call) start (earlier ++ failed :: later) earlier.length =
      (run (attempt call) start earlier).1 := by
    rw [stateAt, List.take_left]
  have bound : earlier.length < (earlier ++ failed :: later).length := by simp
  have unchanged := atomic earlier.length bound error isKind
    (by rw [before, List.getElem_append_right (Nat.le_refl _)]; simpa using fails)
  rw [state_at_succ _ _ _ _ bound, before, List.getElem_append_right (Nat.le_refl _)] at unchanged
  simp only [Nat.sub_self, List.getElem_cons_zero] at unchanged
  rw [run_append, run_append, run_cons, unchanged, fails]

end Runs

end Foundation.Attempts
