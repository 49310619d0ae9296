import StreamDataProcessor.Parsers.GraphiteRows
import StreamDataProcessor.Foundation.Attempts

/-!
# What the Graphite parser remembers

A call leaves its metrics behind when it fails, and `errno` when a number in its buffer is out
of range. A call that does neither leaves the parser as it found it.
-/

namespace StreamDataProcessor.Parsers.Graphite

open Foundation.Numerals Foundation.Effect Foundation.Machine Foundation.Attempts
open Arrow Metadata Utils.StringUtils

set_option autoImplicit false

section Calls

variable (visitFields : List (String × String) → List (String × String)) (parser : GraphiteParser)

def parserCall (call : Int × String) : Parse (List RecordBatch) :=
  parseRecordBatches visitFields parser call.1 call.2

def metricsOf (buffer : String) : List Metric :=
  (split buffer "\n").foldl (insertLine parser) []

/-- A line of the buffer has a timestamp that is converted and out of range. -/
def anyLate (buffer : String) : Bool :=
  (split buffer "\n").any fun metricString =>
    (lineConversion parser metricString).any Conversion.outOfRange

/-- No number of the buffer that is converted is out of range, and no tag or field of it has the
name of the column of times or of measurements. -/
structure Harmless (buffer : String) : Prop where
  timestamps : ∀ metricString ∈ split buffer "\n",
    (lineConversion parser metricString).any Conversion.outOfRange = false
  values : ∀ metric ∈ metricsOf parser buffer, ∀ field ∈ metric.fields,
    unreadable field.2 = false
  names : metricsOf parser buffer ≠ [] → NamesApart parser (IsColumn (metricsOf parser buffer))

variable {visitFields parser}

theorem harmless_iff (buffer : String) : Harmless parser buffer ↔
    anyLate parser buffer = false ∧ anyUnreadable (metricsOf parser buffer) = false ∧
      (metricsOf parser buffer ≠ [] →
        NamesApart parser (IsColumn (metricsOf parser buffer))) := by
  have late : anyLate parser buffer = false ↔ ∀ metricString ∈ split buffer "\n",
      (lineConversion parser metricString).any Conversion.outOfRange = false := by
    simp [anyLate]
  have values : anyUnreadable (metricsOf parser buffer) = false ↔
      ∀ metric ∈ metricsOf parser buffer, ∀ field ∈ metric.fields,
        unreadable field.2 = false := by
    simp [anyUnreadable]
  rw [late, values]
  constructor
  · exact fun harmless => ⟨harmless.timestamps, harmless.values, harmless.names⟩
  · exact fun parts => ⟨parts.1, parts.2.1, parts.2.2⟩

theorem fresh_iff (metrics : List Metric) (raised : Bool) :
    (⟨metrics, raised⟩ : ParserState) = {} ↔ metrics = [] ∧ raised = false := by
  rw [ParserState.mk.injEq]

theorem call_eq {call : Int × String} (nonempty : split call.2 "\n" ≠ []) :
    parserCall visitFields parser call {} =
      buildRecordBatches visitFields parser call.1
        ⟨metricsOf parser call.2, anyLate parser call.2⟩ := by
  have parsed := @parse_metric_strings_eq parser (split call.2 "\n") {}
  rw [parserCall, parseRecordBatches, if_neg nonempty, bind_of_ok parsed]
  rfl

/-- A call of a fresh parser answers just when no tag or field has the name of the column of times
or of measurements. -/
theorem call_answers_iff (visits : ∀ fields, (visitFields fields).Perm fields) (now : Int)
    {buffer : String} (nonempty : split buffer "\n" ≠ []) :
    (∃ batches after, parserCall visitFields parser (now, buffer) {} = .ok batches after) ↔
      NamesApart parser (IsColumn (metricsOf parser buffer)) := by
  rw [call_eq nonempty, build_record_batches_eq parser visits,
    ← batch_named_iff parser visits (anyLate parser buffer) now]
  dsimp only
  cases nameColumns parser (batchOf visitFields parser (anyLate parser buffer) now
      (metricsOf parser buffer)) with
  | ok named => exact ⟨fun _ => ⟨named, rfl⟩, fun _ => ⟨_, _, rfl⟩⟩
  | error fault => simp

theorem call_returns (visits : ∀ fields, (visitFields fields).Perm fields) {now : Int}
    {buffer : String} (nonempty : split buffer "\n" ≠ []) {batches : List RecordBatch}
    {after : ParserState}
    (returned : parserCall visitFields parser (now, buffer) {} = .ok batches after) :
    let tags := tagNames (metricsOf parser buffer)
    let fieldsTypes := fieldsTypesOf visitFields (anyLate parser buffer) (metricsOf parser buffer)
    ∃ named, batches = [named] ∧
      named.schema.fieldNames = (resultFields parser tags fieldsTypes).map Field.name ∧
      named.schema.types = (resultFields parser tags fieldsTypes).map Field.type ∧
      named.rows = (metricsOf parser buffer).map (rowOf now tags fieldsTypes) := by
  intro tags fieldsTypes
  rw [call_eq nonempty, build_record_batches_eq parser visits] at returned
  dsimp only at returned
  cases isNamed : nameColumns parser (batchOf visitFields parser (anyLate parser buffer) now
      (metricsOf parser buffer)) with
  | error fault =>
      rw [isNamed] at returned
      cases returned
  | ok named =>
      rw [isNamed] at returned
      have kept := name_columns_keeps parser isNamed
      have rows := @batch_rows visitFields parser (anyLate parser buffer) now
        (metricsOf parser buffer)
      cases returned
      exact ⟨named, rfl, kept.2.1, kept.2.2, kept.1.trans rows⟩

/-- A call leaves a fresh parser fresh just when its buffer is harmless. -/
theorem call_keeps_fresh_iff (visits : ∀ fields, (visitFields fields).Perm fields)
    (call : Int × String) :
    (attempt (parserCall visitFields parser) {} call).1 = {} ↔ Harmless parser call.2 := by
  rw [harmless_iff]
  by_cases empty : split call.2 "\n" = []
  · have none : metricsOf parser call.2 = [] := by rw [metricsOf, empty, List.foldl_nil]
    have timely : anyLate parser call.2 = false := by rw [anyLate, empty, List.any_nil]
    have unchanged : parserCall visitFields parser call {} = .ok [] {} := by
      rw [parserCall, parseRecordBatches, if_pos empty]
      rfl
    rw [attempt, unchanged, none]
    exact ⟨fun _ => ⟨timely, rfl, fun some => absurd rfl some⟩, fun _ => rfl⟩
  · have named := batch_named_iff parser visits (anyLate parser call.2) call.1
      (metricsOf parser call.2)
    rw [attempt, call_eq empty, build_record_batches_eq parser visits]
    dsimp only
    cases outcome : nameColumns parser (batchOf visitFields parser (anyLate parser call.2) call.1
        (metricsOf parser call.2)) with
    | ok batch =>
        have apart := named.mp ⟨batch, outcome⟩
        dsimp only [ParserState.flagged]
        rw [fresh_iff, Bool.or_eq_false_iff]
        exact ⟨fun ⟨_, timely, readable⟩ => ⟨timely, readable, fun _ => apart⟩,
          fun ⟨timely, readable, _⟩ => ⟨rfl, timely, readable⟩⟩
    | error fault =>
        have clash : ¬NamesApart parser (IsColumn (metricsOf parser call.2)) := by
          rw [← named]
          rintro ⟨batch, returned⟩
          rw [outcome] at returned
          cases returned
        dsimp only [ParserState.flagged]
        rw [fresh_iff, Bool.or_eq_false_iff]
        constructor
        · rintro ⟨none, timely, readable⟩
          exact ⟨timely, readable, fun some => absurd none some⟩
        · rintro ⟨timely, readable, apart⟩
          exact ⟨not_not.mp fun some => clash (apart some), timely, readable⟩

/-- After calls with harmless buffers a call answers as that of a fresh parser. -/
theorem calls_answer_as_fresh (visits : ∀ fields, (visitFields fields).Perm fields)
    {history : List (Int × String)} (harmless : ∀ earlier ∈ history, Harmless parser earlier.2)
    (call : Int × String) :
    (attempt (parserCall visitFields parser)
        (run (attempt (parserCall visitFields parser)) {} history).1 call).2 =
      (attempt (parserCall visitFields parser) {} call).2 := by
  have fresh : (run (attempt (parserCall visitFields parser)) {} history).1 = {} := by
    induction history with
    | nil => rfl
    | cons earlier rest induction =>
        rw [List.forall_mem_cons] at harmless
        rw [run_cons, (call_keeps_fresh_iff visits earlier).mpr harmless.1]
        exact induction harmless.2
  rw [fresh]

end Calls

def measurementParser : GraphiteParser := { templates := [{ parts := [.measurement] }] }

def answeredTypes : Outcome (List RecordBatch) → Option (List (List DataType))
  | .ok batches => some (batches.map fun batch => batch.schema.types)
  | .error _ => none

theorem seven_after_five :
    (attempt (parserCall id measurementParser)
        (run (attempt (parserCall id measurementParser)) {} [(0, "cpu 5")]).1 (0, "cpu 7")).2 =
      (attempt (parserCall id measurementParser) {} (0, "cpu 7")).2 := by
  have kept : (attempt (parserCall id measurementParser) {} (0, "cpu 5")).1 = {} := by
    rw [fresh_iff]
    decide +kernel
  apply calls_answer_as_fresh fun _ => .refl _
  rw [List.forall_mem_singleton]
  exact (call_keeps_fresh_iff (fun _ => .refl _) _).mp kept

/-- After a number out of range a seven is a string. -/
theorem seven_after_a_number_out_of_range :
    (attempt (parserCall id measurementParser)
        (run (attempt (parserCall id measurementParser)) {}
          [(0, "cpu 99999999999999999999")]).1 (0, "cpu 7")).2 ≠
      (attempt (parserCall id measurementParser) {} (0, "cpu 7")).2 := by
  intro same
  have types := congrArg answeredTypes same
  revert types
  decide +kernel

end StreamDataProcessor.Parsers.Graphite
