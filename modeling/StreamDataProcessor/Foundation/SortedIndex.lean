import Mathlib.Data.List.Sort
import Mathlib.Data.List.Induction
import Mathlib.Data.List.Dedup
import Mathlib.Data.List.Nodup

/-!
# Indices of sorted values

A map from keys to sorted lists of values, filled entry by entry. Whatever the order of the
entries, each of their keys has the values that came with it, in order.
-/

namespace Foundation.SortedIndex

set_option autoImplicit false

variable {Key Value : Type} [DecidableEq Key]

section Insert

variable (order : Value → Value → Prop) [DecidableRel order]

def insert (index : List (Key × List Value)) (key : Key) (value : Value) :
    List (Key × List Value) :=
  if key ∈ index.map Prod.fst then
    index.map fun entry =>
      if entry.1 = key then (entry.1, entry.2.orderedInsert order value) else entry
  else index ++ [(key, [value])]

def valuesOf (entries : List (Key × Value)) (key : Key) : List Value :=
  ((entries.filter fun entry => entry.1 = key).map Prod.snd).insertionSort order

structure Holds (entries : List (Key × Value)) (index : List (Key × List Value)) : Prop where
  distinct : (index.map Prod.fst).Nodup
  keys : ∀ key, key ∈ index.map Prod.fst ↔ key ∈ entries.map Prod.fst
  values : ∀ entry ∈ index, entry.2 = valuesOf order entries entry.1

variable {order}

theorem values_of_append_other {entries : List (Key × Value)} {key other : Key} {value : Value}
    (apart : key ≠ other) :
    valuesOf order (entries ++ [(key, value)]) other = valuesOf order entries other := by
  have last : [(key, value)].filter (fun entry => entry.1 = other) = [] := by simpa using apart
  unfold valuesOf
  rw [List.filter_append, last, List.append_nil]

theorem values_of_append_new {entries : List (Key × Value)} {key : Key} {value : Value}
    (missing : key ∉ entries.map Prod.fst) :
    valuesOf order (entries ++ [(key, value)]) key = [value] := by
  have others : entries.filter (fun entry => entry.1 = key) = [] := by
    rw [List.filter_eq_nil_iff]
    intro entry member same
    exact missing (List.mem_map.mpr ⟨entry, member, by simpa using same⟩)
  have last : [(key, value)].filter (fun entry => entry.1 = key) = [(key, value)] := by simp
  unfold valuesOf
  rw [List.filter_append, others, List.nil_append, last]
  rfl

theorem insert_keys (index : List (Key × List Value)) (key : Key) (value : Value) :
    (insert order index key value).map Prod.fst =
      if key ∈ index.map Prod.fst then index.map Prod.fst else index.map Prod.fst ++ [key] := by
  unfold insert
  split
  · rw [List.map_map]
    apply List.map_congr_left
    intro entry _
    show (if entry.1 = key then _ else entry).1 = entry.1
    split
    · rfl
    · rfl
  · rw [List.map_append, List.map_singleton]

theorem mem_values_of {entries : List (Key × Value)} {key : Key} {value : Value} :
    value ∈ valuesOf order entries key ↔ (key, value) ∈ entries := by
  unfold valuesOf
  rw [List.mem_insertionSort, List.mem_map]
  constructor
  · rintro ⟨⟨own, _⟩, member, rfl⟩
    obtain ⟨listed, same⟩ := List.mem_filter.mp member
    rwa [← of_decide_eq_true same]
  · intro listed
    exact ⟨(key, value), List.mem_filter.mpr ⟨listed, decide_eq_true rfl⟩, rfl⟩

theorem values_nonempty {entries : List (Key × Value)} {index : List (Key × List Value)}
    (holds : Holds order entries index) : ∀ entry ∈ index, entry.2 ≠ [] := by
  intro entry member
  obtain ⟨⟨key, value⟩, listed, same⟩ := List.mem_map.mp
    ((holds.keys entry.1).mp (List.mem_map_of_mem member))
  rw [holds.values entry member, ← show key = entry.1 from same]
  exact List.ne_nil_of_mem (mem_values_of.mpr listed)

/-- An index is determined by its entries, up to the order of its keys. -/
theorem holds_perm {entries : List (Key × Value)} {index : List (Key × List Value)}
    (holds : Holds order entries index) :
    index.Perm ((entries.map Prod.fst).dedup.map fun key => (key, valuesOf order entries key)) := by
  have own : index = (index.map Prod.fst).map fun key => (key, valuesOf order entries key) := by
    rw [List.map_map]
    conv_lhs => rw [← List.map_id index]
    apply List.map_congr_left
    intro entry member
    exact Prod.ext rfl (holds.values entry member)
  rw [own]
  apply List.Perm.map
  apply (List.perm_ext_iff_of_nodup holds.distinct (List.nodup_dedup _)).mpr
  intro key
  rw [holds.keys, List.mem_dedup]

variable [Std.Total order] [IsTrans Value order] [Std.Antisymm order]

theorem values_of_append_own (entries : List (Key × Value)) (key : Key) (value : Value) :
    valuesOf order (entries ++ [(key, value)]) key =
      (valuesOf order entries key).orderedInsert order value := by
  have last : [(key, value)].filter (fun entry => entry.1 = key) = [(key, value)] := by simp
  unfold valuesOf
  rw [List.filter_append, last, List.map_append]
  apply List.Perm.eq_of_pairwise' (List.pairwise_insertionSort order _)
    ((List.pairwise_insertionSort order _).orderedInsert _ _)
  have own := List.perm_insertionSort order
    ((entries.filter fun entry => entry.1 = key).map Prod.snd)
  apply (List.perm_insertionSort order _).trans
  apply (List.perm_append_singleton value _).trans
  exact (own.symm.cons value).trans (List.perm_orderedInsert order value _).symm

theorem holds_insert {entries : List (Key × Value)} {index : List (Key × List Value)}
    (holds : Holds order entries index) (key : Key) (value : Value) :
    Holds order (entries ++ [(key, value)]) (insert order index key value) where
  distinct := by
    rw [insert_keys]
    split
    · exact holds.distinct
    · next absent =>
      apply List.nodup_append'.mpr
      exact ⟨holds.distinct, List.nodup_singleton key, by simpa using absent⟩
  keys := by
    intro other
    rw [insert_keys, List.map_append, List.mem_append, ← holds.keys other, List.map_singleton,
      List.mem_singleton]
    split
    · next present =>
      constructor
      · exact .inl
      · rintro (listed | rfl)
        · exact listed
        · exact present
    · rw [List.mem_append, List.mem_singleton]
  values := by
    intro entry member
    unfold insert at member
    split at member
    · obtain ⟨own, listed, rfl⟩ := List.mem_map.mp member
      by_cases same : own.1 = key
      · rw [if_pos same, holds.values own listed, same, values_of_append_own]
      · rw [if_neg same, holds.values own listed, values_of_append_other (Ne.symm same)]
    · next absent =>
      rcases List.mem_append.mp member with listed | new
      · have apart : key ≠ entry.1 := by
          intro same
          exact absent (same ▸ List.mem_map_of_mem listed)
        rw [holds.values entry listed, values_of_append_other apart]
      · rw [List.mem_singleton.mp new, values_of_append_new]
        rwa [← holds.keys]

def build (order : Value → Value → Prop) [DecidableRel order] (entries : List (Key × Value)) :
    List (Key × List Value) :=
  entries.foldl (fun index entry => insert order index entry.1 entry.2) []

theorem holds_build (entries : List (Key × Value)) :
    Holds order entries (build order entries) := by
  induction entries using List.reverseRecOn with
  | nil => exact ⟨List.nodup_nil, fun _ => Iff.rfl, fun _ member => by cases member⟩
  | append_singleton earlier entry induction =>
      rw [build, List.foldl_append]
      exact holds_insert induction entry.1 entry.2

end Insert

end Foundation.SortedIndex
