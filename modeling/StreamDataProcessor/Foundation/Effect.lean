import Mathlib.Data.List.Forall2
import Mathlib.Tactic.Common

/-!
# Stateful computations that may raise

An effect threads a state and either returns or raises; the state reached is
kept in both cases, so that what a failed call leaves behind can be stated.
-/

namespace Foundation.Effect

universe u

variable {Error State Value Result : Type u}

@[simp] theorem of_except_ok (value : Value) (state : State) :
    (ofExcept (.ok value : Except Error Value) : EStateM Error State Value) state =
      .ok value state := rfl

@[simp] theorem of_except_error (error : Error) (state : State) :
    (ofExcept (.error error : Except Error Value) : EStateM Error State Value) state =
      .error error state := rfl

theorem bind_apply (first : EStateM Error State Value)
    (next : Value → EStateM Error State Result) (state : State) :
    (first >>= next) state =
      match first state with
      | .ok value after => next value after
      | .error error after => .error error after := rfl

@[simp] theorem bind_of_ok {first : EStateM Error State Value}
    {next : Value → EStateM Error State Result} {state after : State} {value : Value}
    (returned : first state = .ok value after) :
    (first >>= next) state = next value after := by
  rw [bind_apply, returned]

@[simp] theorem bind_of_error {first : EStateM Error State Value}
    {next : Value → EStateM Error State Result} {state after : State} {error : Error}
    (raised : first state = .error error after) :
    (first >>= next) state = .error error after := by
  rw [bind_apply, raised]

@[simp] theorem pure_apply (value : Value) (state : State) :
    (pure value : EStateM Error State Value) state = .ok value state := rfl

@[simp] theorem get_apply (state : State) :
    (get : EStateM Error State State) state = .ok state state := rfl

@[simp] theorem set_apply (next state : State) :
    (set next : EStateM Error State PUnit) state = .ok ⟨⟩ next := rfl

@[simp] theorem throw_apply (error : Error) (state : State) :
    (throw error : EStateM Error State Value) state = .error error state := rfl

/-- A computation that returns was bound from two that return. -/
theorem bind_ok_cases {first : EStateM Error State Value}
    {next : Value → EStateM Error State Result} {state final : State} {result : Result}
    (returned : (first >>= next) state = .ok result final) :
    ∃ value middle, first state = .ok value middle ∧ next value middle = .ok result final := by
  rw [bind_apply] at returned
  cases outcome : first state with
  | ok value middle => exact ⟨value, middle, rfl, by rw [outcome] at returned; exact returned⟩
  | error error middle => rw [outcome] at returned; cases returned

theorem bind_of_except_cases {result : Except Error Value}
    {next : Value → EStateM Error State Result} {state final : State} {returns : Result}
    (returned : (ofExcept result >>= next) state = .ok returns final) :
    ∃ value, result = .ok value ∧ next value state = .ok returns final := by
  cases result with
  | ok value => exact ⟨value, rfl, returned⟩
  | error error => cases returned

theorem of_except_bind {Final : Type u} (result : Except Error Value)
    (next : Value → Except Error Result) (later : Result → EStateM Error State Final) :
    (ofExcept (result >>= next) >>= later : EStateM Error State Final) =
      ofExcept result >>= fun value => ofExcept (next value) >>= later := by
  cases result <;> rfl

theorem of_except_bind_congr {result : Except Error Value}
    {next other : Value → EStateM Error State Result} {state : State}
    (same : ∀ value, result = .ok value → next value state = other value state) :
    (ofExcept result >>= next) state = (ofExcept result >>= other) state := by
  cases result with
  | ok value => exact same value rfl
  | error error => rfl

theorem except_bind_ok_cases {result : Except Error Value} {next : Value → Except Error Result}
    {returns : Result} (returned : (result >>= next) = .ok returns) :
    ∃ value, result = .ok value ∧ next value = .ok returns := by
  cases result with
  | ok value => exact ⟨value, rfl, returned⟩
  | error error => cases returned

theorem map_m_ok_iff {convert : Value → Except Error Result} {items : List Value}
    {results : List Result} : items.mapM convert = .ok results ↔
      List.Forall₂ (fun item result => convert item = .ok result) items results := by
  induction items generalizing results with
  | nil =>
      rw [List.forall₂_nil_left_iff]
      constructor
      · intro returned
        exact (Except.ok.inj returned).symm
      · rintro rfl
        rfl
  | cons item rest induction =>
      rw [List.mapM_cons, List.forall₂_cons_left_iff]
      constructor
      · intro returned
        obtain ⟨first, converted, returned⟩ := except_bind_ok_cases returned
        obtain ⟨others, convertedRest, returned⟩ := except_bind_ok_cases returned
        cases returned
        exact ⟨first, others, converted, induction.mp convertedRest, rfl⟩
      · rintro ⟨first, others, converted, convertedRest, rfl⟩
        rw [converted, induction.mpr convertedRest]
        rfl

theorem map_m_map_m_ok_iff {Final : Type u} {convert : Value → Except Error Result}
    {finish : Result → Except Error Final} {items : List Value} {results : List Final} :
    (items.mapM convert >>= fun middle => middle.mapM finish) = .ok results ↔
      List.Forall₂ (fun item result => (convert item >>= finish) = .ok result) items results := by
  constructor
  · intro returned
    obtain ⟨middle, converted, finished⟩ := except_bind_ok_cases returned
    have first := map_m_ok_iff.mp converted
    have second := map_m_ok_iff.mp finished
    clear returned converted finished
    induction first generalizing results with
    | nil =>
        rw [List.forall₂_nil_left_iff] at second
        rw [second]
        exact .nil
    | cons head _ induction =>
        obtain ⟨result, others, finished, rest, rfl⟩ := List.forall₂_cons_left_iff.mp second
        refine .cons ?_ (induction rest)
        rw [head]
        exact finished
  · intro each
    have middle : ∃ middle, List.Forall₂ (fun item result => convert item = .ok result) items
        middle ∧ List.Forall₂ (fun item result => finish item = .ok result) middle results := by
      induction each with
      | nil => exact ⟨[], .nil, .nil⟩
      | cons head _ induction =>
          obtain ⟨others, first, second⟩ := induction
          obtain ⟨value, converted, finished⟩ := except_bind_ok_cases head
          exact ⟨value :: others, .cons converted first, .cons finished second⟩
    obtain ⟨middle, first, second⟩ := middle
    rw [map_m_ok_iff.mpr first]
    exact map_m_ok_iff.mpr second

theorem except_map_ok_cases {result : Except Error Value} {change : Value → Result}
    {returns : Result} (returned : result.map change = .ok returns) :
    ∃ value, result = .ok value ∧ returns = change value := by
  cases result with
  | ok value => exact ⟨value, rfl, (Except.ok.inj returned).symm⟩
  | error error => cases returned

theorem exists_of_forall₂ {relation : Value → Result → Prop} {items : List Value}
    {results : List Result} (each : List.Forall₂ relation items results) {item : Value}
    (member : item ∈ items) : ∃ result ∈ results, relation item result := by
  induction each with
  | nil => cases member
  | cons head _ induction =>
      rcases List.mem_cons.mp member with rfl | later
      · exact ⟨_, List.mem_cons_self, head⟩
      · obtain ⟨result, listed, related⟩ := induction later
        exact ⟨result, List.mem_cons_of_mem _ listed, related⟩

theorem forall₂_comp_of_mem {Final : Type u} {first : Value → Result → Prop}
    {second : Result → Final → Prop} {whole : Value → Final → Prop} {items : List Value}
    {middle : List Result} {results : List Final} (earlier : List.Forall₂ first items middle)
    (later : List.Forall₂ second middle results)
    (composed : ∀ item ∈ items, ∀ value result, first item value → second value result →
      whole item result) : List.Forall₂ whole items results := by
  induction earlier generalizing results with
  | nil =>
      rw [List.forall₂_nil_left_iff] at later
      rw [later]
      exact .nil
  | cons head _ induction =>
      obtain ⟨result, others, own, rest, rfl⟩ := List.forall₂_cons_left_iff.mp later
      rw [List.forall_mem_cons] at composed
      exact .cons (composed.1 _ _ head own) (induction rest composed.2)

theorem map_m_returns {convert : Value → Except Error Result} {items : List Value}
    (each : ∀ item ∈ items, ∃ result, convert item = .ok result) :
    ∃ results, items.mapM convert = .ok results := by
  induction items with
  | nil => exact ⟨[], rfl⟩
  | cons item rest induction =>
      rw [List.forall_mem_cons] at each
      obtain ⟨result, converted⟩ := each.1
      obtain ⟨results, convertedRest⟩ := induction each.2
      refine ⟨result :: results, ?_⟩
      rw [List.mapM_cons, converted, convertedRest]
      rfl

/-- A conversion of every item, with a relation of the items to what they are converted to. -/
theorem map_m_related_iff {convert : Value → Except Error Result}
    {relation : Value → Result → Prop} {items : List Value} :
    (∃ results, items.mapM convert = .ok results ∧ List.Forall₂ relation items results) ↔
      ∀ item ∈ items, ∃ result, convert item = .ok result ∧ relation item result := by
  constructor
  · rintro ⟨results, converted, related⟩
    have each := map_m_ok_iff.mp converted
    clear converted
    induction each with
    | nil => exact fun _ member => by cases member
    | cons head _ induction =>
        rw [List.forall₂_cons] at related
        exact List.forall_mem_cons.mpr ⟨⟨_, head, related.1⟩, induction related.2⟩
  · intro each
    induction items with
    | nil => exact ⟨[], rfl, .nil⟩
    | cons item rest induction =>
        rw [List.forall_mem_cons] at each
        obtain ⟨result, converted, own⟩ := each.1
        obtain ⟨results, convertedRest, others⟩ := induction each.2
        refine ⟨result :: results, ?_, .cons own others⟩
        rw [List.mapM_cons, converted, convertedRest]
        rfl

theorem mem_of_map_m {convert : Value → Except Error Result} {items : List Value}
    {results : List Result} (returned : items.mapM convert = .ok results) {result : Result}
    (member : result ∈ results) : ∃ item ∈ items, convert item = .ok result := by
  have each := map_m_ok_iff.mp returned
  clear returned
  induction each with
  | nil => cases member
  | cons head _ induction =>
      rcases List.mem_cons.mp member with rfl | later
      · exact ⟨_, List.mem_cons_self, head⟩
      · obtain ⟨item, listed, converted⟩ := induction later
        exact ⟨item, List.mem_cons_of_mem _ listed, converted⟩

/-- What holds of the value and state of a computation that returns, and of the error and
state of one that raises. -/
def Ends (raises : Error → State → Prop) (post : Value → State → Prop) :
    EStateM.Result Error State Value → Prop
  | .ok value state => post value state
  | .error error state => raises error state

section Ends

variable {raises : Error → State → Prop}

theorem ends_bind {first : EStateM Error State Value} {next : Value → EStateM Error State Result}
    {state : State} {middle : Value → State → Prop} {post : Result → State → Prop}
    (earlier : Ends raises middle (first state))
    (later : ∀ value after, middle value after → Ends raises post (next value after)) :
    Ends raises post ((first >>= next) state) := by
  rw [bind_apply]
  cases outcome : first state with
  | ok value after =>
      rw [outcome] at earlier
      exact later value after earlier
  | error error after =>
      rw [outcome] at earlier
      exact earlier

theorem ends_of_except {result : Except Error Value} {state : State}
    {post : Value → State → Prop} (failed : ∀ error, result = .error error → raises error state)
    (returned : ∀ value, result = .ok value → post value state) :
    Ends raises post ((ofExcept result : EStateM Error State Value) state) := by
  cases result with
  | ok value => exact returned value rfl
  | error error => exact failed error rfl

theorem ends_mono {result : EStateM.Result Error State Value}
    {others : Error → State → Prop} {first second : Value → State → Prop}
    (ends : Ends raises first result)
    (raised : ∀ error state, raises error state → others error state)
    (returned : ∀ value state, first value state → second value state) :
    Ends others second result := by
  cases result with
  | ok value state => exact returned value state ends
  | error error state => exact raised error state ends

end Ends

section Preserves

variable (invariant : State → Prop)

/-- A computation that keeps an invariant of the state, whether it returns or raises. -/
def Preserves (computation : EStateM Error State Value) : Prop :=
  ∀ state, invariant state →
    Ends (fun _ after => invariant after) (fun _ after => invariant after) (computation state)

variable {invariant}

theorem preserves_bind {first : EStateM Error State Value}
    {next : Value → EStateM Error State Result} (earlier : Preserves invariant first)
    (later : ∀ value, Preserves invariant (next value)) :
    Preserves invariant (first >>= next) := fun state holds =>
  ends_bind (earlier state holds) fun value after kept => later value after kept

theorem preserves_pure (value : Value) :
    Preserves invariant (pure value : EStateM Error State Value) := fun _ holds => holds

theorem preserves_throw (error : Error) :
    Preserves invariant (throw error : EStateM Error State Value) := fun _ holds => holds

theorem preserves_of_except (result : Except Error Value) :
    Preserves invariant (ofExcept result : EStateM Error State Value) := by
  cases result with
  | ok value => exact preserves_pure value
  | error error => exact preserves_throw error

theorem preserves_set {next : State} (holds : invariant next) :
    Preserves invariant (set next : EStateM Error State PUnit) := fun _ _ => holds

theorem preserves_get_bind {next : State → EStateM Error State Result}
    (later : ∀ state, invariant state → Preserves invariant (next state)) :
    Preserves invariant (get >>= next) := fun state holds => later state holds state holds

theorem preserves_ite {condition : Prop} [Decidable condition]
    {first second : EStateM Error State Value} (whenTrue : Preserves invariant first)
    (whenFalse : Preserves invariant second) :
    Preserves invariant (if condition then first else second) := by
  split
  · exact whenTrue
  · exact whenFalse

end Preserves

section Projection

variable {Refined : Type u} (project : Refined → State)

def projectResult : EStateM.Result Error Refined Value → EStateM.Result Error State Value
  | .ok value state => .ok value (project state)
  | .error error state => .error error (project state)

/-- A computation that does on a refined state what another does on its projection. -/
def Over (refined : EStateM Error Refined Value) (plain : EStateM Error State Value) : Prop :=
  ∀ state, projectResult project (refined state) = plain (project state)

theorem over_id (computation : EStateM Error State Value) : Over id computation computation := by
  intro state
  rw [id_eq]
  cases computation state with
  | ok value after => rfl
  | error error after => rfl

variable {project}

theorem over_pure (value : Value) :
    Over project (pure value : EStateM Error Refined Value) (pure value) := fun _ => rfl

theorem over_throw (error : Error) :
    Over project (throw error : EStateM Error Refined Value) (throw error) := fun _ => rfl

theorem over_of_except (result : Except Error Value) :
    Over project (ofExcept result : EStateM Error Refined Value) (ofExcept result) := by
  cases result with
  | ok value => exact over_pure value
  | error error => exact over_throw error

theorem over_bind {first : EStateM Error Refined Value} {plain : EStateM Error State Value}
    {next : Value → EStateM Error Refined Result} {later : Value → EStateM Error State Result}
    (earlier : Over project first plain) (rest : ∀ value, Over project (next value) (later value)) :
    Over project (first >>= next) (plain >>= later) := by
  intro state
  have same := earlier state
  rw [bind_apply, bind_apply, ← same]
  cases first state with
  | ok value after => exact rest value after
  | error error after => rfl

theorem over_get_bind {next : Refined → EStateM Error Refined Result}
    {later : State → EStateM Error State Result}
    (rest : ∀ state, Over project (next state) (later (project state))) :
    Over project (get >>= next) (get >>= later) := fun state => rest state state

theorem over_modify {change : Refined → Refined} {plain : State → State}
    (same : ∀ state, project (change state) = plain (project state)) :
    Over project (modify change : EStateM Error Refined PUnit) (modify plain) := by
  intro state
  change EStateM.Result.ok PUnit.unit (project (change state)) = .ok PUnit.unit (plain (project state))
  rw [same]

theorem over_ite {condition : Prop} [Decidable condition]
    {first second : EStateM Error Refined Value} {plain other : EStateM Error State Value}
    (whenTrue : Over project first plain) (whenFalse : Over project second other) :
    Over project (if condition then first else second)
      (if condition then plain else other) := by
  split
  · exact whenTrue
  · exact whenFalse

end Projection

end Foundation.Effect
