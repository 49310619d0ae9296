import StreamDataProcessor.Foundation.Effect
import Mathlib.Data.List.Nodup
import Mathlib.Logic.Function.Basic

/-!
# Dispatch to a machine for each key

A dispatcher keeps a state for every key that has come, and hands each input to the machine
of its key, which starts in a fresh state. Inputs of other keys leave the state of a key, and
the answer to an input depends on the state of its own key alone.
-/

namespace Foundation.Dispatch

open Foundation.Effect

set_option autoImplicit false

universe u

variable {Key Error State View Input Output Value : Type u}

section Each

variable (handle : Input → EStateM Error State (List Output))

/-- The outputs for the inputs one after the other; the first error ends the turn. -/
def each : List Input → EStateM Error State (List Output)
  | [] => pure []
  | input :: rest => do
      let outputs ← handle input
      let later ← each rest
      pure (outputs ++ later)

theorem each_singleton (input : Input) : each handle [input] = handle input := by
  funext state
  change (handle input >>= fun outputs => pure (outputs ++ [])) state = _
  cases handled : handle input state with
  | ok outputs after => rw [bind_of_ok handled, pure_apply, List.append_nil]
  | error error after => rw [bind_of_error handled]

theorem each_append (earlier later : List Input) :
    each handle (earlier ++ later) = (do
      let outputs ← each handle earlier
      let others ← each handle later
      pure (outputs ++ others)) := by
  funext state
  induction earlier generalizing state with
  | nil =>
      change each handle later state = (each handle later >>= fun others => pure ([] ++ others)) state
      cases handled : each handle later state with
      | ok outputs after => rw [bind_of_ok handled, pure_apply, List.nil_append]
      | error error after => rw [bind_of_error handled]
  | cons input rest induction =>
      rw [List.cons_append, each, each]
      simp only [bind_apply]
      cases handle input state with
      | error error after => rfl
      | ok outputs after =>
          dsimp only
          rw [induction after]
          simp only [bind_apply]
          cases each handle rest after with
          | error error final => rfl
          | ok others final =>
              dsimp only
              simp only [pure_apply]
              cases each handle later final with
              | error error last => rfl
              | ok last state =>
                  simp only [List.append_assoc]

variable {handle}

theorem over_each {project : State → View} {plain : Input → EStateM Error View (List Output)}
    (same : ∀ input, Over project (handle input) (plain input)) (inputs : List Input) :
    Over project (each handle inputs) (each plain inputs) := by
  induction inputs with
  | nil => exact over_pure _
  | cons input rest induction =>
      apply over_bind (same input)
      intro outputs
      apply over_bind induction
      intro later
      exact over_pure _

end Each

section Keys

variable [DecidableEq Key] (key : Input → Key) (fresh : State)
variable (handle : Input → EStateM Error State Value)

def current (states : Key → Option State) (own : Key) : State := (states own).getD fresh

def dispatch (input : Input) : EStateM Error (Key → Option State) Value := fun states =>
  match handle input (current fresh states (key input)) with
  | .ok value after => .ok value (Function.update states (key input) (some after))
  | .error error after => .error error (Function.update states (key input) (some after))

def dispatchStarted (input : Input) : EStateM Error (Key → State) Value := fun states =>
  match handle input (states (key input)) with
  | .ok value after => .ok value (Function.update states (key input) after)
  | .error error after => .error error (Function.update states (key input) after)

theorem current_update (states : Key → Option State) (own : Key) (after : State) :
    current fresh (Function.update states own (some after)) =
      Function.update (current fresh states) own after := by
  funext other
  unfold current
  by_cases same : other = own
  · rw [same, Function.update_self, Function.update_self, Option.getD_some]
  · rw [Function.update_of_ne same, Function.update_of_ne same]

/-- Whether a machine in its fresh state has been started makes no difference. -/
theorem dispatch_over_started (input : Input) :
    Over (current fresh) (dispatch key fresh handle input) (dispatchStarted key handle input) := by
  intro states
  unfold dispatch dispatchStarted
  cases handle input (current fresh states (key input)) with
  | ok value after => exact congrArg (EStateM.Result.ok value) (current_update fresh states _ _)
  | error error after =>
      exact congrArg (EStateM.Result.error error) (current_update fresh states _ _)

theorem dispatch_eq (input : Input) (states : Key → Option State) :
    dispatch key fresh handle input states =
      projectResult (fun after => Function.update states (key input) (some after))
        (handle input (current fresh states (key input))) := by
  unfold dispatch
  cases handle input (current fresh states (key input)) <;> rfl

/-- What a dispatcher makes of an input is what the machine of its key makes of it. -/
theorem dispatch_own (input : Input) (states : Key → Option State) :
    projectResult (fun after => after (key input)) (dispatch key fresh handle input states) =
      projectResult some (handle input (current fresh states (key input))) := by
  unfold dispatch
  cases handle input (current fresh states (key input)) with
  | ok value after => exact congrArg (EStateM.Result.ok value) (Function.update_self _ _ _)
  | error error after => exact congrArg (EStateM.Result.error error) (Function.update_self _ _ _)

theorem dispatch_keeps (input : Input) (states : Key → Option State) {other : Key}
    (foreign : other ≠ key input) :
    Ends (fun _ after => after other = states other) (fun _ after => after other = states other)
      (dispatch key fresh handle input states) := by
  unfold dispatch
  cases handle input (current fresh states (key input)) with
  | ok value after => exact Function.update_of_ne foreign _ _
  | error error after => exact Function.update_of_ne foreign _ _

end Keys

section Apart

variable [DecidableEq Key] {key : Input → Key} {fresh : State}
variable {handle : Input → EStateM Error State (List Output)}

/-- From the states before, the machine of an input's key gives the outputs, and is left as it
is after. -/
def Answers (key : Input → Key) (fresh : State)
    (handle : Input → EStateM Error State (List Output)) (before after : Key → Option State)
    (input : Input) (outputs : List Output) : Prop :=
  ∃ own, handle input (current fresh before (key input)) = .ok outputs own ∧
    after (key input) = some own

theorem dispatch_ok {input : Input} {before after : Key → Option State} {outputs : List Output}
    (returned : dispatch key fresh handle input before = .ok outputs after) :
    Answers key fresh handle before after input outputs ∧
      ∀ other, other ≠ key input → after other = before other := by
  have started := dispatch_own key fresh handle input before
  rw [returned] at started
  constructor
  · cases handled : handle input (current fresh before (key input)) with
    | error error own => rw [handled] at started; cases started
    | ok value own =>
        rw [handled] at started
        obtain ⟨isValue, isOwn⟩ := EStateM.Result.ok.inj started
        exact ⟨own, by rw [handled, isValue], isOwn⟩
  · intro other foreign
    have kept := dispatch_keeps key fresh handle input before foreign
    rw [returned] at kept
    exact kept

/-- Inputs of different keys are answered each by the machine of its key, as if it had come
alone. -/
theorem each_dispatch_apart {inputs : List Input} {start before after : Key → Option State}
    {outputs : List Output} (apart : (inputs.map key).Nodup)
    (same : ∀ input ∈ inputs, before (key input) = start (key input))
    (returned : each (dispatch key fresh handle) inputs before = .ok outputs after) :
    (∃ parts, outputs = parts.flatten ∧
      List.Forall₂ (Answers key fresh handle start after) inputs parts) ∧
    ∀ other, other ∉ inputs.map key → after other = before other := by
  induction inputs generalizing before outputs with
  | nil =>
      cases returned
      exact ⟨⟨[], rfl, .nil⟩, fun _ _ => rfl⟩
  | cons input rest induction =>
      rw [List.map_cons, List.nodup_cons] at apart
      rw [List.forall_mem_cons] at same
      obtain ⟨value, middle, first, returned⟩ := bind_ok_cases returned
      obtain ⟨later, final, others, returned⟩ := bind_ok_cases returned
      cases returned
      obtain ⟨⟨own, handled, isOwn⟩, foreign⟩ := dispatch_ok first
      have unmoved : ∀ other ∈ rest, middle (key other) = start (key other) := by
        intro other member
        have different : key other ≠ key input := by
          intro isKey
          exact apart.1 (isKey ▸ List.mem_map_of_mem member)
        exact (foreign _ different).trans (same.2 other member)
      obtain ⟨⟨parts, isLater, answered⟩, kept⟩ := induction apart.2 unmoved others
      constructor
      · refine ⟨value :: parts, by rw [isLater, List.flatten_cons], .cons ⟨own, ?_, ?_⟩ answered⟩
        · rw [current, ← same.1]
          exact handled
        · exact (kept _ apart.1).trans isOwn
      · intro other missing
        rw [List.map_cons, List.mem_cons, not_or] at missing
        exact (kept other missing.2).trans (foreign other missing.1)

theorem each_dispatch_returns {inputs : List Input} {start before : Key → Option State}
    (apart : (inputs.map key).Nodup)
    (same : ∀ input ∈ inputs, before (key input) = start (key input))
    (answered : ∀ input ∈ inputs, ∃ outputs own,
      handle input (current fresh start (key input)) = .ok outputs own) :
    ∃ outputs after, each (dispatch key fresh handle) inputs before = .ok outputs after := by
  induction inputs generalizing before with
  | nil => exact ⟨[], before, rfl⟩
  | cons input rest induction =>
      rw [List.map_cons, List.nodup_cons] at apart
      rw [List.forall_mem_cons] at same answered
      obtain ⟨outputs, own, handled⟩ := answered.1
      have first : dispatch key fresh handle input before =
          .ok outputs (Function.update before (key input) (some own)) := by
        rw [dispatch, current, same.1, ← current, handled]
      have unmoved : ∀ other ∈ rest,
          Function.update before (key input) (some own) (key other) = start (key other) := by
        intro other member
        have different : key other ≠ key input := by
          intro isKey
          exact apart.1 (isKey ▸ List.mem_map_of_mem member)
        rw [Function.update_of_ne different]
        exact same.2 other member
      obtain ⟨later, after, others⟩ := induction apart.2 unmoved answered.2
      refine ⟨outputs ++ later, after, ?_⟩
      change (dispatch key fresh handle input >>= fun outputs =>
        each (dispatch key fresh handle) rest >>= fun later => pure (outputs ++ later)) before = _
      rw [bind_of_ok first, bind_of_ok others, pure_apply]

end Apart

section Runs

variable [DecidableEq Key] {key : Input → Key} {fresh : State}
variable {handle : Input → EStateM Error State (List Output)}

theorem each_cons_ok {input : Input} {rest : List Input} {state after : State}
    {outputs : List Output} : each handle (input :: rest) state = .ok outputs after ↔
      ∃ own later middle, handle input state = .ok own middle ∧
        each handle rest middle = .ok later after ∧ outputs = own ++ later := by
  rw [each]
  constructor
  · intro returned
    obtain ⟨own, middle, first, returned⟩ := bind_ok_cases returned
    obtain ⟨later, final, others, returned⟩ := bind_ok_cases returned
    cases returned
    exact ⟨own, later, middle, first, others, rfl⟩
  · rintro ⟨own, later, middle, first, others, rfl⟩
    change (handle input >>= fun own => each handle rest >>= fun later => pure (own ++ later))
      state = _
    rw [bind_of_ok first, bind_of_ok others, pure_apply]

theorem filter_own (input : Input) (rest : List Input) :
    (input :: rest).filter (fun other => key other = key input) =
      input :: rest.filter fun other => key other = key input :=
  List.filter_cons_of_pos (decide_eq_true rfl)

theorem filter_other {input : Input} {own : Key} (foreign : own ≠ key input) (rest : List Input) :
    (input :: rest).filter (fun other => key other = own) =
      rest.filter fun other => key other = own :=
  List.filter_cons_of_neg (by simpa using Ne.symm foreign)

/-- The machine of a key answers the inputs of its key, in order, and no other. -/
theorem each_dispatch_of_key {inputs : List Input} {before after : Key → Option State}
    {outputs : List Output}
    (returned : each (dispatch key fresh handle) inputs before = .ok outputs after) (own : Key) :
    ∃ answers, each handle (inputs.filter fun input => key input = own) (current fresh before own) =
        .ok answers (current fresh after own) ∧ answers.Sublist outputs ∧
      (after own = none ↔ before own = none ∧ inputs.filter (fun input => key input = own) = []) := by
  induction inputs generalizing before outputs with
  | nil =>
      cases returned
      exact ⟨[], rfl, List.Sublist.slnil, (and_iff_left rfl).symm⟩
  | cons input rest induction =>
      obtain ⟨value, later, middle, first, others, rfl⟩ := each_cons_ok.mp returned
      obtain ⟨answers, answered, within, started⟩ := induction others
      obtain ⟨⟨state, handled, isState⟩, foreign⟩ := dispatch_ok first
      by_cases same : own = key input
      · subst same
        rw [filter_own]
        refine ⟨value ++ answers, each_cons_ok.mpr ⟨value, answers, state, handled, ?_, rfl⟩,
          List.Sublist.append_left within value, ?_⟩
        · rw [current, isState, Option.getD_some] at answered
          exact answered
        · rw [started, isState]
          simp
      · rw [filter_other same]
        rw [foreign own same] at started
        rw [current, foreign own same] at answered
        exact ⟨answers, answered, within.trans (List.sublist_append_right _ _), started⟩

/-- A dispatcher answers inputs just when the machine of each key answers those of its own. -/
theorem each_dispatch_returns_iff {inputs : List Input} {before : Key → Option State} :
    (∃ outputs after, each (dispatch key fresh handle) inputs before = .ok outputs after) ↔
      ∀ own, ∃ answers after, each handle (inputs.filter fun input => key input = own)
        (current fresh before own) = .ok answers after := by
  constructor
  · rintro ⟨outputs, after, returned⟩ own
    obtain ⟨answers, answered, _⟩ := each_dispatch_of_key returned own
    exact ⟨answers, _, answered⟩
  · intro answered
    induction inputs generalizing before with
    | nil => exact ⟨[], before, rfl⟩
    | cons input rest induction =>
        obtain ⟨answers, after, ofKey⟩ := answered (key input)
        rw [filter_own] at ofKey
        obtain ⟨own, later, middle, handled, others, rfl⟩ := each_cons_ok.mp ofKey
        have first : dispatch key fresh handle input before =
            .ok own (Function.update before (key input) (some middle)) := by
          rw [dispatch, handled]
        obtain ⟨outputs, final, dispatched⟩ := @induction
            (Function.update before (key input) (some middle)) (by
          intro other
          by_cases same : other = key input
          · subst same
            rw [current_update, Function.update_self]
            exact ⟨later, after, others⟩
          · obtain ⟨kept, left, ofOther⟩ := answered other
            rw [filter_other same] at ofOther
            rw [current_update, Function.update_of_ne same]
            exact ⟨kept, left, ofOther⟩)
        exact ⟨own ++ outputs, final, each_cons_ok.mpr ⟨own, outputs, _, first, dispatched, rfl⟩⟩

end Runs

end Foundation.Dispatch
