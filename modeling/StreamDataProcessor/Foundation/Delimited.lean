import Mathlib.Data.List.Basic

/-!
# Labelled texts behind each other

Texts are written one after the other, each behind its label and before a stop that the texts
may hold themselves. Two rows of texts look the same when they are the same, and when a text
of one of them goes on with a stop and with what the other one writes next.
-/

namespace Foundation.Delimited

set_option autoImplicit false

variable {Symbol : Type}

def encode (stop : Symbol) : List (List Symbol) → List (List Symbol) → List Symbol
  | label :: labels, text :: texts => label ++ (text ++ stop :: encode stop labels texts)
  | _, _ => []

/-- In the first column where the texts differ, the text of the longer row goes on with a stop
and, up to its own stop, with what is left of the shorter row. -/
def Shifts (stop : Symbol) :
    List (List Symbol) → List (List Symbol) → List (List Symbol) → Prop
  | _ :: labels, short :: shorts, long :: longs =>
      (short = long ∧ Shifts stop labels shorts longs) ∨
        ∃ surplus, long = short ++ stop :: surplus ∧
          encode stop labels shorts = surplus ++ stop :: encode stop labels longs
  | _, _, _ => False

theorem append_stop_eq_iff {stop : Symbol} {left right rest others : List Symbol} :
    left ++ stop :: rest = right ++ stop :: others ↔
      (left = right ∧ rest = others) ∨
        (∃ surplus, right = left ++ stop :: surplus ∧ rest = surplus ++ stop :: others) ∨
          ∃ surplus, left = right ++ stop :: surplus ∧ others = surplus ++ stop :: rest := by
  rw [List.append_eq_append_iff]
  constructor
  · rintro (⟨surplus, longer, same⟩ | ⟨surplus, longer, same⟩)
    · cases surplus with
      | nil =>
          rw [List.append_nil] at longer
          rw [List.nil_append, List.cons.injEq] at same
          exact .inl ⟨longer.symm, same.2⟩
      | cons symbol surplus =>
          rw [List.cons_append, List.cons.injEq] at same
          obtain ⟨rfl, same⟩ := same
          exact .inr (.inl ⟨surplus, longer, same⟩)
    · cases surplus with
      | nil =>
          rw [List.append_nil] at longer
          rw [List.nil_append, List.cons.injEq] at same
          exact .inl ⟨longer, same.2.symm⟩
      | cons symbol surplus =>
          rw [List.cons_append, List.cons.injEq] at same
          obtain ⟨rfl, same⟩ := same
          exact .inr (.inr ⟨surplus, longer, same⟩)
  · rintro (⟨rfl, rfl⟩ | ⟨surplus, rfl, rfl⟩ | ⟨surplus, rfl, rfl⟩)
    · exact .inl ⟨[], (List.append_nil _).symm, rfl⟩
    · exact .inl ⟨stop :: surplus, rfl, rfl⟩
    · exact .inr ⟨stop :: surplus, rfl, rfl⟩

/-- Rows of texts look the same just when they are the same or one shifts into the other. -/
theorem encode_eq_iff {stop : Symbol} {labels left right : List (List Symbol)}
    (leftLength : left.length = labels.length) (rightLength : right.length = labels.length) :
    encode stop labels left = encode stop labels right ↔
      left = right ∨ Shifts stop labels left right ∨ Shifts stop labels right left := by
  induction labels generalizing left right with
  | nil =>
      rw [List.length_nil, List.length_eq_zero_iff] at leftLength rightLength
      subst leftLength
      subst rightLength
      exact ⟨fun _ => .inl rfl, fun _ => rfl⟩
  | cons label labels induction =>
      obtain ⟨text, texts, rfl⟩ := List.exists_cons_of_length_eq_add_one leftLength
      obtain ⟨other, others, rfl⟩ := List.exists_cons_of_length_eq_add_one rightLength
      rw [List.length_cons, List.length_cons, Nat.add_right_cancel_iff] at leftLength rightLength
      rw [encode, encode, List.append_cancel_left_eq, append_stop_eq_iff,
        induction leftLength rightLength, Shifts, Shifts, List.cons.injEq]
      constructor
      · rintro (⟨rfl, rfl | shifts | shifts⟩ | ahead | ahead)
        · exact .inl ⟨rfl, rfl⟩
        · exact .inr (.inl (.inl ⟨rfl, shifts⟩))
        · exact .inr (.inr (.inl ⟨rfl, shifts⟩))
        · exact .inr (.inl (.inr ahead))
        · exact .inr (.inr (.inr ahead))
      · rintro (⟨rfl, rfl⟩ | (⟨rfl, shifts⟩ | ahead) | (⟨rfl, shifts⟩ | ahead))
        · exact .inl ⟨rfl, .inl rfl⟩
        · exact .inl ⟨rfl, .inr (.inl shifts)⟩
        · exact .inr (.inl ahead)
        · exact .inl ⟨rfl, .inr (.inr shifts)⟩
        · exact .inr (.inr ahead)

end Foundation.Delimited
