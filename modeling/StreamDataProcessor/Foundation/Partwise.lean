import StreamDataProcessor.Foundation.Effect
import Mathlib.Data.List.Forall2

/-!
# Steps that act on each part of a list

A step over a list of parts returns what an effect returns on each of them. Steps of this kind
compose, and so do the loops made of them, whichever part an error comes from.
-/

namespace Foundation

open Effect

set_option autoImplicit false

variable {Part Item Key Error : Type}

def Returns (effect : Part → Except Error Part) (parts results : List Part) : Prop :=
  List.Forall₂ (fun part result => effect part = .ok result) parts results

/-- A step over lists that are valid returns just what the effect returns on the parts. -/
structure Partwise (Valid : List Part → Prop) (step : List Part → Except Error (List Part))
    (effect : Part → Except Error Part) : Prop where
  returns : ∀ {parts results : List Part}, Valid parts →
    (step parts = .ok results ↔ Returns effect parts results)
  keeps : ∀ {parts results : List Part}, Valid parts → Returns effect parts results →
    Valid results

namespace Partwise

theorem returns_pure (change : Part → Part) {parts results : List Part} :
    Returns (fun part => (.ok (change part) : Except Error Part)) parts results ↔
      parts.map change = results := by
  unfold Returns
  simp only [Except.ok.injEq]
  rw [← List.forall₂_map_left_iff (f := change) (R := Eq), List.forall₂_eq_eq_eq]

theorem returns_bind {first second : Part → Except Error Part} {parts results : List Part} :
    Returns (fun part => first part >>= second) parts results ↔
      ∃ middle, Returns first parts middle ∧ Returns second middle results := by
  constructor
  · intro both
    induction both with
    | nil => exact ⟨[], .nil, .nil⟩
    | cons head _ induction =>
        obtain ⟨value, own, next⟩ := except_bind_ok_cases head
        obtain ⟨middle, firsts, seconds⟩ := induction
        exact ⟨value :: middle, .cons own firsts, .cons next seconds⟩
  · rintro ⟨middle, firsts, seconds⟩
    induction firsts generalizing results with
    | nil =>
        cases seconds
        exact .nil
    | cons own _ induction =>
        cases seconds with
        | cons next rest =>
            refine .cons ?_ (induction rest)
            show first _ >>= second = _
            rw [own]
            exact next

theorem returns_congr {effect other : Part → Except Error Part} {parts results : List Part}
    (same : ∀ part ∈ parts, effect part = other part) :
    Returns effect parts results ↔ Returns other parts results := by
  induction parts generalizing results with
  | nil => rw [Returns, Returns, List.forall₂_nil_left_iff, List.forall₂_nil_left_iff]
  | cons part rest induction =>
      rw [List.forall_mem_cons] at same
      unfold Returns at induction ⊢
      rw [List.forall₂_cons_left_iff, List.forall₂_cons_left_iff]
      simp only [same.1, induction same.2]

variable {Valid : List Part → Prop}

theorem of_map {change : Part → Part}
    (keeps : ∀ parts, Valid parts → Valid (parts.map change)) :
    Partwise Valid (fun parts => (.ok (parts.map change) : Except Error (List Part)))
      (fun part => .ok (change part)) where
  returns := by
    intro parts results _
    rw [returns_pure, Except.ok.injEq]
  keeps := by
    intro parts results valid returned
    rw [← (returns_pure change).mp returned]
    exact keeps parts valid

theorem bind {step next : List Part → Except Error (List Part)}
    {effect effectNext : Part → Except Error Part} (first : Partwise Valid step effect)
    (second : Partwise Valid next effectNext) :
    Partwise Valid (fun parts => step parts >>= next) (fun part => effect part >>= effectNext) where
  returns := by
    intro parts results valid
    rw [returns_bind]
    constructor
    · intro returned
      obtain ⟨middle, stepped, returned⟩ := except_bind_ok_cases returned
      have own := (first.returns valid).mp stepped
      exact ⟨middle, own, (second.returns (first.keeps valid own)).mp returned⟩
    · rintro ⟨middle, own, rest⟩
      rw [(first.returns valid).mpr own]
      exact (second.returns (first.keeps valid own)).mpr rest
  keeps := by
    intro parts results valid returned
    obtain ⟨middle, own, rest⟩ := returns_bind.mp returned
    exact second.keeps (first.keeps valid own) rest

theorem fold {step : List Part → Item → Except Error (List Part)}
    {effect : Part → Item → Except Error Part} {items : List Item}
    (each : ∀ item ∈ items, Partwise Valid (fun parts => step parts item)
      (fun part => effect part item)) :
    Partwise Valid (fun parts => items.foldlM step parts)
      (fun part => items.foldlM effect part) := by
  induction items with
  | nil =>
      have whole : ∀ {parts results : List Part},
          Returns (fun part => (.ok part : Except Error Part)) parts results ↔
            parts = results := by
        intro parts results
        rw [returns_pure (fun part => part), List.map_id']
      constructor
      · intro parts results _
        exact Except.ok.injEq parts results ▸ whole.symm
      · intro parts results valid returned
        rw [← whole.mp returned]
        exact valid
  | cons item rest induction =>
      rw [List.forall_mem_cons] at each
      exact bind each.1 (induction each.2)

section Keyed

variable [DecidableEq Key] {key : Part → Key} {effect : Part → Except Error Part}

theorem map_of_apart {own : Key} {result : Part} {parts : List Part}
    (apart : own ∉ parts.map key) :
    (parts.map fun part => if key part = own then result else part) = parts := by
  refine (List.map_congr_left fun part member => ?_).trans (List.map_id' parts)
  rw [if_neg]
  intro same
  exact apart (same ▸ List.mem_map_of_mem member)

theorem returns_of_apart {own : Key} {parts results : List Part} (apart : own ∉ parts.map key) :
    Returns (fun part => if key part = own then effect part else .ok part) parts results ↔
      results = parts := by
  induction parts generalizing results with
  | nil => exact List.forall₂_nil_left_iff
  | cons part rest induction =>
      rw [List.map_cons, List.mem_cons, not_or] at apart
      unfold Returns
      rw [List.forall₂_cons_left_iff]
      simp only [if_neg (Ne.symm apart.1), Except.ok.injEq]
      constructor
      · rintro ⟨_, others, rfl, own, rfl⟩
        rw [(induction apart.2).mp own]
      · rintro rfl
        exact ⟨part, rest, rfl, (induction apart.2).mpr rfl, rfl⟩

theorem returns_keyed {parts results : List Part} {part : Part}
    (distinct : (parts.map key).Nodup) (listed : part ∈ parts) :
    Returns (fun own => if key own = key part then effect own else .ok own) parts results ↔
      ∃ result, effect part = .ok result ∧
        results = parts.map fun own => if key own = key part then result else own := by
  induction parts generalizing results with
  | nil => cases listed
  | cons own rest induction =>
      rw [List.map_cons, List.nodup_cons] at distinct
      unfold Returns
      rw [List.forall₂_cons_left_iff]
      by_cases same : key own = key part
      · have isPart : own = part := by
          rcases List.mem_cons.mp listed with here | inRest
          · exact here.symm
          · exact absurd (same ▸ List.mem_map_of_mem inRest) distinct.1
        subst isPart
        simp only [if_pos, List.map_cons, map_of_apart distinct.1]
        constructor
        · rintro ⟨result, others, returned, own, rfl⟩
          exact ⟨result, returned, by rw [(returns_of_apart distinct.1).mp own]⟩
        · rintro ⟨result, returned, rfl⟩
          exact ⟨result, rest, returned, (returns_of_apart distinct.1).mpr rfl, rfl⟩
      · have inRest : part ∈ rest := by
          rcases List.mem_cons.mp listed with here | inRest
          · exact absurd (congrArg key here.symm) same
          · exact inRest
        simp only [if_neg same, List.map_cons, Except.ok.injEq]
        constructor
        · rintro ⟨_, others, rfl, own, rfl⟩
          obtain ⟨result, returned, isMap⟩ := (induction distinct.2 inRest).mp own
          exact ⟨result, returned, by rw [isMap]⟩
        · rintro ⟨result, returned, rfl⟩
          exact ⟨own, _, rfl, (induction distinct.2 inRest).mpr ⟨result, returned, rfl⟩, rfl⟩

end Keyed

end Partwise

end Foundation
