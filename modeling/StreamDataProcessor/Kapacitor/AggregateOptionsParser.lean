import StreamDataProcessor.Handlers.AggregateHandler
import StreamDataProcessor.Kapacitor.DynamicWindowRequestHandler
import Mathlib.Data.List.TakeWhile

/-!
# The options of the aggregate UDFs

`AggregateOptionsParser`. The regular expression of an aggregate is matched by cutting the
text at its white space; that this is the match is `match_aggregate_iff`.
-/

namespace StreamDataProcessor.Kapacitor.AggregateOptionsParser

open Handlers.Aggregate DynamicWindowRequestHandler

set_option autoImplicit false

def functionNamesToTypes : List (String × AggregateFunctionEnumType) :=
  [("min", .min), ("max", .max), ("first", .first), ("last", .last), ("mean", .mean)]

/-- `\s`. -/
def isSpace (char : Char) : Bool := char ∈ [' ', '\t', '\n', '\x0b', '\x0c', '\r']

/-- `\S`. -/
def isText (char : Char) : Bool := !isSpace char

/-- `\w`. -/
def isWord (char : Char) : Bool := char.isAlphanum || char = '_'

/-- `(\S+)\((\w+)\)` on a text without white space: the function and the column. -/
def matchCall (call : List Char) : Option (List Char × List Char) :=
  match call.reverse with
  | ')' :: inner =>
      match inner.dropWhile isWord with
      | '(' :: function =>
          if function ≠ [] ∧ inner.takeWhile isWord ≠ [] then
            some (function.reverse, (inner.takeWhile isWord).reverse)
          else none
      | _ => none
  | _ => none

/-- `AGGREGATE_STRING_REGEX` with its three groups. -/
def matchAggregate (text : List Char) : Option (List Char × List Char × List Char) := do
  let rest := text.dropWhile isText
  let conjunction := rest.dropWhile isSpace
  let rest' := conjunction.dropWhile isText
  let name := rest'.dropWhile isSpace
  let (function, column) ← matchCall (text.takeWhile isText)
  if conjunction.takeWhile isText = ['a', 's'] ∧ rest' ≠ [] ∧ name ≠ [] ∧ name.all isText then
    some (function, column, name)
  else none

def pushAggregate (columnName : String) (aggregateCase : AggregateCase) :
    List (String × List AggregateCase) → List (String × List AggregateCase)
  | [] => [(columnName, [aggregateCase])]
  | (name, aggregateCases) :: rest =>
      if name = columnName then (name, aggregateCases ++ [aggregateCase]) :: rest
      else (name, aggregateCases) :: pushAggregate columnName aggregateCase rest

def functionNamed (name : String) : Parse AggregateFunctionEnumType :=
  match functionNamesToTypes.lookup name with
  | none => .error s!"Invalid aggregate function name: {name}"
  | some aggregateFunction => .ok aggregateFunction

def parseAggregate (options : AggregateOptions) (value : OptionValue) : Parse AggregateOptions :=
  match matchAggregate value.stringValue.toList with
  | none => .error s!"Invalid option value: {value.stringValue}"
  | some (function, column, name) => do
      let aggregateFunction ← functionNamed (String.ofList function)
      let aggregateCase := { aggregateFunction, resultColumnName := String.ofList name }
      let aggregateColumns :=
        pushAggregate (String.ofList column) aggregateCase options.aggregateColumns
      return { options with aggregateColumns }

def parseAggregates (options : AggregateOptions) (requestOption : RequestOption) :
    Parse AggregateOptions :=
  requestOption.values.foldlM parseAggregate options

def parseTimeAggregateRule (options : AggregateOptions) (requestOption : RequestOption) :
    Parse AggregateOptions :=
  match requestOption.values with
  | [value] => do
      let aggregateFunction ← functionNamed value.stringValue
      return { options with
        resultTimeColumnRule := { options.resultTimeColumnRule with aggregateFunction } }
  | _ => .error "timeAggregateRule option should accept exactly one argument"

def parseOption (options : AggregateOptions) (requestOption : RequestOption) :
    Parse AggregateOptions :=
  if requestOption.name = "aggregate" then parseAggregates options requestOption
  else if requestOption.name = "timeAggregateRule" then
    parseTimeAggregateRule options requestOption
  else .ok options

def parseOptions (requestOptions : List RequestOption) : Parse AggregateOptions :=
  requestOptions.foldlM parseOption {}

section Match

variable {test : Char → Bool} {earlier later text function column name : List Char}

theorem cut_at_first (passes : ∀ char ∈ earlier, test char = true)
    (fails : ∀ char ∈ later.head?, test char = false) :
    (earlier ++ later).takeWhile test = earlier ∧ (earlier ++ later).dropWhile test = later := by
  rw [List.takeWhile_append_of_pos passes, List.dropWhile_append_of_pos passes]
  cases later with
  | nil => simp
  | cons char rest =>
      have stops : test char = false := fails char rfl
      simp [stops]

theorem cut_cases (test : Char → Bool) (text : List Char) :
    text.takeWhile test ++ text.dropWhile test = text ∧
      (∀ char ∈ text.takeWhile test, test char = true) ∧
      ∀ char ∈ (text.dropWhile test).head?, test char = false := by
  refine ⟨List.takeWhile_append_dropWhile, fun _ => List.mem_takeWhile_imp, ?_⟩
  induction text with
  | nil => simp
  | cons char rest induction =>
      cases tested : test char with
      | true => simpa [tested] using induction
      | false => simp [tested]

theorem match_call_iff : matchCall text = some (function, column) ↔
    text = function ++ '(' :: (column ++ [')']) ∧ function ≠ [] ∧ column ≠ [] ∧
      ∀ char ∈ column, isWord char = true := by
  constructor
  · intro matched
    unfold matchCall at matched
    split at matched
    · next inner reversed =>
      split at matched
      · next rest opened =>
        split at matched
        · next nonempty =>
          obtain ⟨whole, words, _⟩ := cut_cases isWord inner
          simp only [Option.some.injEq, Prod.mk.injEq] at matched
          obtain ⟨rfl, rfl⟩ := matched
          refine ⟨?_, by simpa using nonempty.1, by simpa using nonempty.2, ?_⟩
          · rw [opened] at whole
            calc text = (')' :: inner).reverse := by rw [← reversed, List.reverse_reverse]
              _ = (')' :: (inner.takeWhile isWord ++ '(' :: rest)).reverse := by rw [whole]
              _ = rest.reverse ++ '(' :: ((inner.takeWhile isWord).reverse ++ [')']) := by simp
          · intro char member
            exact words char (List.mem_reverse.mp member)
        · cases matched
      · cases matched
    · cases matched
  · rintro ⟨rfl, some_function, some_column, words⟩
    have reversed : (function ++ '(' :: (column ++ [')'])).reverse =
        ')' :: (column.reverse ++ '(' :: function.reverse) := by simp
    obtain ⟨taken, dropped⟩ := @cut_at_first isWord column.reverse ('(' :: function.reverse)
      (fun char member => words char (List.mem_reverse.mp member)) (by simp [isWord])
    simp only [matchCall, reversed, dropped, taken]
    simp [some_function, some_column]

theorem space_is_not_text {char : Char} : isText char = false ↔ isSpace char = true := by
  rw [isText, Bool.not_eq_false']

theorem text_is_not_space {char : Char} : isText char = true ↔ isSpace char = false := by
  rw [isText, Bool.not_eq_true']

theorem word_is_text {char : Char} (word : isWord char = true) : isText char = true := by
  rw [text_is_not_space]
  by_contra space
  rw [Bool.not_eq_false, isSpace, decide_eq_true_iff] at space
  simp only [List.mem_cons, List.not_mem_nil, or_false] at space
  rcases space with rfl | rfl | rfl | rfl | rfl | rfl <;> cases word

theorem gap_after_text (nonempty : text.dropWhile isText ≠ []) :
    (text.dropWhile isText).takeWhile isSpace ≠ [] := by
  have stops := (cut_cases isText text).2.2
  cases shape : text.dropWhile isText with
  | nil => exact absurd shape nonempty
  | cons char rest =>
      rw [shape] at stops
      have space : isSpace char = true := space_is_not_text.mp (stops char rfl)
      simp [space]

theorem as_is_text : ∀ char ∈ ['a', 's'], isText char = true := by
  intro char member
  simp only [List.mem_cons, List.not_mem_nil, or_false] at member
  rcases member with rfl | rfl
  · rfl
  · rfl

/-- `matchAggregate` gives the groups of the only match of the expression. -/
theorem match_aggregate_iff : matchAggregate text = some (function, column, name) ↔
    ∃ gap gap', text = (function ++ '(' :: (column ++ [')'])) ++
        (gap ++ (['a', 's'] ++ (gap' ++ name))) ∧
      (function ≠ [] ∧ ∀ char ∈ function, isText char = true) ∧
      (column ≠ [] ∧ ∀ char ∈ column, isWord char = true) ∧
      (gap ≠ [] ∧ ∀ char ∈ gap, isSpace char = true) ∧
      (gap' ≠ [] ∧ ∀ char ∈ gap', isSpace char = true) ∧
      name ≠ [] ∧ ∀ char ∈ name, isText char = true := by
  constructor
  · intro matched
    obtain ⟨⟨own, ownColumn⟩, isCall, rest⟩ := Option.bind_eq_some_iff.mp matched
    obtain ⟨⟨conjunction, goesOn, some_name, named⟩, same⟩ :=
      Option.ite_none_right_eq_some.mp rest
    simp only [Option.some.injEq, Prod.mk.injEq] at same
    obtain ⟨rfl, rfl, rfl⟩ := same
    obtain ⟨call, some_function, some_column, words⟩ := match_call_iff.mp isCall
    obtain ⟨whole, texts, _⟩ := cut_cases isText text
    obtain ⟨afterCall, spaces, _⟩ := cut_cases isSpace (text.dropWhile isText)
    obtain ⟨afterGap, _, _⟩ := cut_cases isText ((text.dropWhile isText).dropWhile isSpace)
    obtain ⟨afterWord, spaces', _⟩ := cut_cases isSpace
      (((text.dropWhile isText).dropWhile isSpace).dropWhile isText)
    refine ⟨_, _, ?_, ⟨some_function, ?_⟩, ⟨some_column, words⟩, ⟨gap_after_text ?_, spaces⟩,
      ⟨gap_after_text goesOn, spaces'⟩, some_name, List.all_eq_true.mp named⟩
    · rw [← call, afterWord, ← conjunction, afterGap, afterCall, whole]
    · intro char member
      apply texts char
      rw [call]
      exact List.mem_append_left _ member
    · intro none
      rw [none] at conjunction
      cases conjunction
  · rintro ⟨gap, gap', rfl, ⟨some_function, functions⟩, ⟨some_column, words⟩, ⟨some_gap, spaces⟩,
      ⟨some_gap', spaces'⟩, some_name, names⟩
    have texts : ∀ char ∈ function ++ '(' :: (column ++ [')']), isText char = true := by
      intro char member
      simp only [List.mem_append, List.mem_cons, List.not_mem_nil, or_false] at member
      rcases member with inFunction | rfl | inColumn | rfl
      · exact functions char inFunction
      · rfl
      · exact word_is_text (words char inColumn)
      · rfl
    have heads : ∀ {gap later : List Char}, gap ≠ [] → (∀ char ∈ gap, isSpace char = true) →
        ∀ char ∈ (gap ++ later).head?, isText char = false := by
      intro gap later nonempty spaces char first
      cases gap with
      | nil => exact absurd rfl nonempty
      | cons own rest =>
          cases first
          exact space_is_not_text.mpr (spaces _ (by simp))
    obtain ⟨call, afterCall⟩ := @cut_at_first isText _ (gap ++ (['a', 's'] ++ (gap' ++ name))) texts
      (heads some_gap spaces)
    obtain ⟨_, afterGap⟩ := @cut_at_first isSpace gap (['a', 's'] ++ (gap' ++ name)) spaces (by
      intro char first
      cases first
      rfl)
    obtain ⟨word, afterWord⟩ := @cut_at_first isText ['a', 's'] (gap' ++ name) as_is_text
      (heads some_gap' spaces')
    obtain ⟨_, afterGap'⟩ := @cut_at_first isSpace gap' name spaces' (by
      intro char first
      exact text_is_not_space.mp (names char (List.mem_of_mem_head? first)))
    have isCall : matchCall (function ++ '(' :: (column ++ [')'])) = some (function, column) :=
      match_call_iff.mpr ⟨rfl, some_function, some_column, words⟩
    simp only [matchAggregate, call, afterCall, afterGap, afterWord, afterGap', word, isCall, bind,
      Option.bind]
    rw [if_pos ⟨trivial, by simp [some_gap'], some_name, List.all_eq_true.mpr names⟩]

end Match

example : matchAggregate "mean(cpu_idle)  as avg(idle)".toList =
    some ("mean".toList, "cpu_idle".toList, "avg(idle)".toList) := by decide

end StreamDataProcessor.Kapacitor.AggregateOptionsParser
