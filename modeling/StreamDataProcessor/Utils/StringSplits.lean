import Mathlib.Data.List.Basic
import Mathlib.Data.List.Infix
import StreamDataProcessor.Utils.StringUtils

/-!
# Splitting and joining

With a delimiter of one character, splitting undoes joining where no part holds the character,
and joining undoes splitting. A longer delimiter leaves all but its first character in the parts.
-/

namespace StreamDataProcessor.Utils.StringUtils

set_option autoImplicit false

theorem split_from_eq (char : Char) (part text : List Char) :
    splitFrom [char] part text = text.splitOnPPrepend (· == char) part.reverse := by
  induction text generalizing part with
  | nil => rw [splitFrom, List.splitOnPPrepend_nil, List.reverse_reverse]
  | cons first rest induction =>
      rw [splitFrom, List.splitOnPPrepend_cons_eq_if]
      by_cases same : first = char
      · simp [same, induction]
      · have other : char ≠ first := fun equal => same equal.symm
        simp [same, other, induction]

section Cuts

variable {delimiter : List Char}

theorem split_from_ne_nil (delimiter part text : List Char) :
    splitFrom delimiter part text ≠ [] := by
  induction text generalizing part with
  | nil => exact List.cons_ne_nil _ _
  | cons first rest induction =>
      rw [splitFrom]
      split
      · exact List.cons_ne_nil _ _
      · exact induction _

theorem split_from_uncut {part text : List Char} (missing : ¬delimiter <:+: text) :
    splitFrom delimiter part text = [part ++ text] := by
  induction text generalizing part with
  | nil => rw [splitFrom, List.append_nil]
  | cons first rest induction =>
      rw [List.infix_cons_iff, not_or] at missing
      rw [splitFrom, if_neg (fun found => missing.1 (List.isPrefixOf_iff_prefix.mp found)),
        induction missing.2, List.append_assoc]
      rfl

theorem split_from_cut {part text : List Char} (nonempty : delimiter ≠ [])
    (found : delimiter <:+: text) : 1 < (splitFrom delimiter part text).length := by
  induction text generalizing part with
  | nil => exact absurd (List.infix_nil.mp found) nonempty
  | cons first rest induction =>
      rw [splitFrom]
      split
      · rw [List.length_cons]
        exact Nat.succ_lt_succ (List.length_pos_of_ne_nil (split_from_ne_nil _ _ _))
      · next elsewhere =>
        rw [List.isPrefixOf_iff_prefix] at elsewhere
        exact induction ((List.infix_cons_iff.mp found).resolve_left elsewhere)

/-- Each cut takes one character out, and joining puts a delimiter in. -/
theorem joined_split_from_length (delimiter part text : List Char) :
    (delimiter.intercalate (splitFrom delimiter part text)).length +
        ((splitFrom delimiter part text).length - 1) =
      part.length + text.length +
        ((splitFrom delimiter part text).length - 1) * delimiter.length := by
  induction text generalizing part with
  | nil => simp [splitFrom]
  | cons first rest induction =>
      rw [splitFrom]
      split
      · have later := induction []
        have counted := List.length_pos_of_ne_nil (split_from_ne_nil delimiter [] rest)
        rw [List.length_nil] at later
        rw [List.intercalate_cons_of_ne_nil (split_from_ne_nil _ _ _), List.length_append,
          List.length_append, List.length_cons, List.length_cons, Nat.add_sub_cancel]
        obtain ⟨cuts, count⟩ := Nat.exists_eq_add_of_lt counted
        rw [count, Nat.zero_add, Nat.add_sub_cancel] at later
        rw [count, Nat.zero_add, Nat.add_mul, Nat.one_mul]
        omega
      · have later := induction (part ++ [first])
        rw [List.length_append, List.length_singleton] at later
        rw [List.length_cons]
        omega

theorem joined_split_from_eq_iff {text : List Char} (nonempty : delimiter ≠ []) :
    delimiter.intercalate (splitFrom delimiter [] text) = text ↔
      delimiter.length = 1 ∨ ¬delimiter <:+: text := by
  constructor
  · intro same
    by_contra longer
    rw [not_or, not_not] at longer
    have cut := @split_from_cut _ [] _ nonempty longer.2
    have length := joined_split_from_length delimiter [] text
    have positive := List.length_pos_of_ne_nil nonempty
    rw [same, List.length_nil, Nat.zero_add, Nat.add_left_cancel_iff] at length
    have one := Nat.eq_of_mul_eq_mul_left (m := 1) (by omega) ((Nat.mul_one _).trans length)
    exact longer.1 one.symm
  · intro harmless
    rcases harmless with one | missing
    · obtain ⟨char, rfl⟩ := List.length_eq_one_iff.mp one
      rw [split_from_eq, List.reverse_nil]
      exact List.intercalate_splitOn char
    · rw [split_from_uncut missing, List.nil_append, List.intercalate_singleton]

end Cuts

variable {delimiter : String} {char : Char}

theorem split_eq (one : delimiter.toList = [char]) {text : String} (nonempty : text ≠ "") :
    split text delimiter = (text.toList.splitOn char).map String.ofList := by
  have isEmpty : text.isEmpty = false := by simpa using nonempty
  rw [split, isEmpty, one, split_from_eq]
  rfl

theorem split_joined (one : delimiter.toList = [char]) {parts : List String}
    (clean : ∀ part ∈ parts, char ∉ part.toList) (nonempty : delimiter.intercalate parts ≠ "") :
    split (delimiter.intercalate parts) delimiter = parts := by
  rw [split_eq one nonempty, String.toList_intercalate, one, List.splitOn_intercalate]
  · simp
  · intro text listed
    obtain ⟨part, member, rfl⟩ := List.mem_map.mp listed
    exact clean part member
  · intro none
    rw [List.map_eq_nil_iff] at none
    exact nonempty (by rw [none]; rfl)

theorem mem_split_from {part text found : List Char} (clean : char ∉ part)
    (listed : found ∈ splitFrom [char] part text) :
    char ∉ found ∧ ∀ other ∈ found, other ∈ part ++ text := by
  induction text generalizing part with
  | nil =>
      cases List.mem_singleton.mp listed
      exact ⟨clean, fun other member => List.mem_append_left _ member⟩
  | cons first rest induction =>
      rw [splitFrom] at listed
      split at listed
      · rcases List.mem_cons.mp listed with rfl | later
        · exact ⟨clean, fun other member => List.mem_append_left _ member⟩
        · have parts := induction List.not_mem_nil later
          refine ⟨parts.1, fun other member => ?_⟩
          exact List.mem_append_right _ (List.mem_cons_of_mem _ (parts.2 other member))
      · next differs =>
        have other : char ∉ part ++ [first] := by
          rw [List.mem_append, List.mem_singleton, not_or]
          refine ⟨clean, ?_⟩
          rintro rfl
          simp at differs
        have parts := induction other listed
        rw [List.append_assoc] at parts
        exact parts

theorem mem_split (one : delimiter.toList = [char]) {text part : String}
    (listed : part ∈ split text delimiter) :
    char ∉ part.toList ∧ ∀ other ∈ part.toList, other ∈ text.toList := by
  unfold split at listed
  split at listed
  · cases listed
  · obtain ⟨found, member, rfl⟩ := List.mem_map.mp listed
    rw [one] at member
    rw [String.toList_ofList]
    exact mem_split_from List.not_mem_nil member

theorem to_list_ne_nil {text : String} (nonempty : text ≠ "") : text.toList ≠ [] := by
  intro nothing
  apply nonempty
  rw [← String.ofList_toList (s := text), nothing]

/-- Joining the parts of a text gives it back when the delimiter is one character or is not in
the text, and exactly then, since a longer one makes the text longer. -/
theorem joined_split_iff (nonempty : delimiter ≠ "") (str : String) :
    concatenateStrings (split str delimiter) delimiter = str ↔
      delimiter.length = 1 ∨ ¬delimiter.toList <:+: str.toList := by
  have long := to_list_ne_nil nonempty
  unfold concatenateStrings split
  split
  · next empty =>
    have nothing : str = "" := by simpa using empty
    subst nothing
    have missing : ¬delimiter.toList <:+: "".toList := fun found => long (List.infix_nil.mp found)
    exact ⟨fun _ => .inr missing, fun _ => rfl⟩
  · rw [← String.toList_inj, String.toList_intercalate, List.map_map]
    have lists : (String.toList ∘ String.ofList) = id := by
      funext text
      exact String.toList_ofList
    rw [lists, List.map_id, joined_split_from_eq_iff long, String.length_toList]

theorem parts_without_delimiter (str : String)
    (harmless : delimiter.length = 1 ∨ ¬delimiter.toList <:+: str.toList) :
    ∀ part ∈ split str delimiter, ¬delimiter.toList <:+: part.toList := by
  intro part listed
  rcases harmless with one | missing
  · obtain ⟨char, single⟩ := List.length_eq_one_iff.mp (String.length_toList ▸ one)
    rw [single, List.singleton_infix_iff]
    exact (mem_split single listed).1
  · unfold split at listed
    split at listed
    · cases listed
    · rw [split_from_uncut missing, List.nil_append, List.map_singleton, String.ofList_toList,
        List.mem_singleton] at listed
      rw [listed]
      exact missing

theorem joined_ne_empty {parts : List String} (nonempty : parts ≠ []) (single : parts ≠ [""])
    (present : delimiter ≠ "") : delimiter.intercalate parts ≠ "" := by
  intro empty
  cases parts with
  | nil => exact nonempty rfl
  | cons part rest =>
      cases rest with
      | nil =>
          rw [String.intercalate_singleton] at empty
          exact single (by rw [empty])
      | cons next others =>
          have lengths := congrArg String.length empty
          rw [String.intercalate_cons_cons, String.length_append, String.length_append] at lengths
          have positive := List.length_pos_of_ne_nil (to_list_ne_nil present)
          rw [String.length_toList] at positive
          have none : "".length = 0 := rfl
          omega

/-- Joining undoes splitting for the delimiters of one character and for those that are not in
the text. Splitting undoes joining for every delimiter of one character. -/
theorem split_inverse_iff (nonempty : delimiter ≠ "") :
    (∀ str, (concatenateStrings (split str delimiter) delimiter = str ∧
        ∀ part ∈ split str delimiter, ¬delimiter.toList <:+: part.toList) ↔
      (delimiter.length = 1 ∨ ¬delimiter.toList <:+: str.toList)) ∧
    (delimiter.length = 1 → ∀ parts, parts ≠ [] → parts ≠ [""] →
      (∀ part ∈ parts, ¬delimiter.toList <:+: part.toList) →
        split (concatenateStrings parts delimiter) delimiter = parts) := by
  constructor
  · intro str
    constructor
    · intro inverse
      exact (joined_split_iff nonempty str).mp inverse.1
    · intro harmless
      exact ⟨(joined_split_iff nonempty str).mpr harmless, parts_without_delimiter str harmless⟩
  · intro one parts listed single clean
    obtain ⟨char, isChar⟩ := List.length_eq_one_iff.mp (String.length_toList ▸ one)
    have apart : ∀ part ∈ parts, char ∉ part.toList := by
      intro part member
      rw [← List.singleton_infix_iff, ← isChar]
      exact clean part member
    exact split_joined isChar apart (joined_ne_empty listed single nonempty)

theorem split_inverse_comma :
    (∀ str, (concatenateStrings (split str ",") "," = str ∧
        ∀ part ∈ split str ",", ¬",".toList <:+: part.toList) ↔
      (",".length = 1 ∨ ¬",".toList <:+: str.toList)) ∧
    (",".length = 1 → ∀ parts, parts ≠ [] → parts ≠ [""] →
      (∀ part ∈ parts, ¬",".toList <:+: part.toList) →
        split (concatenateStrings parts ",") "," = parts) :=
  split_inverse_iff (by decide)

/-- The second character of the delimiter stays in front of the next part. -/
theorem longer_delimiter_doubled :
    concatenateStrings (split "a==b" "==") "==" ≠ "a==b" := by decide

end StreamDataProcessor.Utils.StringUtils
