import StreamDataProcessor.Parsers.GraphiteParser

/-!
# The lines of a Graphite buffer

What a line gives is decided by the line alone. The words of its name are those that the parts
of its template stand for, so that no error of `buildMetric` is ever reached.
-/

namespace StreamDataProcessor.Parsers.Graphite

open Foundation.Numerals Foundation.Effect Arrow Utils.StringUtils

set_option autoImplicit false

/-- A name with so many words is one that the parts of a template stand for. -/
def Fits (template : MetricTemplate) (descriptionLength : Nat) : Prop :=
  descriptionLength = template.parts.length ∨
    (template.parts.length < descriptionLength ∧ template.multipleLastPart = true)

def sortedParts (template : MetricTemplate) (descriptionParts : List String) : MetricParts :=
  (descriptionParts.drop template.parts.length).foldl
    (fun sorted word => match template.parts.getLast? with
      | some part => sorted.add part word
      | none => sorted)
    ((template.parts.zip descriptionParts).foldl (fun sorted part => sorted.add part.1 part.2) {})

theorem fold_parts {parts : List TemplatePart} {descriptionParts words : List String}
    {start : Nat} (sorted : MetricParts) (count : parts.length ≤ words.length)
    (at_start : descriptionParts.drop start = words) :
    (parts.zipIdx start).foldlM (addParts descriptionParts) sorted =
      .ok ((parts.zip words).foldl (fun sorted part => sorted.add part.1 part.2) sorted) := by
  induction parts generalizing start words sorted with
  | nil => rfl
  | cons part rest induction =>
      cases words with
      | nil =>
          rw [List.length_cons, List.length_nil] at count
          omega
      | cons word others =>
          have found : descriptionParts[start]? = some word := by
            rw [← List.head?_drop, at_start, List.head?_cons]
          have later : descriptionParts.drop (start + 1) = others := by
            rw [← List.tail_drop, at_start, List.tail_cons]
          rw [List.zipIdx_cons, List.foldlM_cons, addParts, found]
          rw [List.length_cons, List.length_cons] at count
          exact induction _ (by omega) later

theorem fold_repeated {template : MetricTemplate} (sorted : MetricParts) (words : List String)
    (multiple : template.multipleLastPart = true) :
    words.foldlM (addRepeated template.parts) sorted =
      .ok (words.foldl (fun sorted word => match template.parts.getLast? with
        | some part => sorted.add part word
        | none => sorted) sorted) := by
  have last := template.repeatable multiple
  induction words generalizing sorted with
  | nil => rfl
  | cons word rest induction =>
      rw [List.foldlM_cons, List.foldl_cons, addRepeated]
      rcases last with last | last
      · rw [last] at induction ⊢
        exact induction (sorted.add .measurement word)
      · rw [last] at induction ⊢
        exact induction (sorted.add .field word)

theorem sort_parts_eq {template : MetricTemplate} {descriptionParts : List String}
    (fits : Fits template descriptionParts.length) :
    sortParts template descriptionParts = .ok (sortedParts template descriptionParts) := by
  have enough : template.parts.length ≤ descriptionParts.length := by
    rcases fits with same | longer
    · omega
    · omega
  have first := @fold_parts template.parts descriptionParts descriptionParts 0 {} enough rfl
  unfold sortParts sortedParts
  rw [first]
  by_cases longer : template.parts.length < descriptionParts.length ∧
      template.multipleLastPart = true
  · have repeated := fold_repeated ((template.parts.zip descriptionParts).foldl
      (fun sorted part => sorted.add part.1 part.2) {})
      (descriptionParts.drop template.parts.length) longer.2
    rw [← repeated]
    simp only [longer.1, longer.2, decide_true, Bool.and_self, if_true, bind, Except.bind]
  · have same : descriptionParts.length = template.parts.length := by
      rcases fits with same | longerOne
      · exact same
      · exact absurd longerOne longer
    rw [List.drop_eq_nil_of_le (Nat.le_of_eq same)]
    simp only [same, Nat.lt_irrefl, decide_false, Bool.false_and, Bool.false_eq_true, if_false,
      bind, Except.bind]
    rfl

def lineTimestamp (metricString : String) : Option (Conversion Int) :=
  match split metricString " " with
  | [_, _, timestamp] => some (strtoll timestamp.toList)
  | _ => none

def metricName (metricString : String) : String := (split metricString " ").getD 0 ""

def metricValue (metricString : String) : String := (split metricString " ").getD 1 ""

def MetricTemplate.metric (template : MetricTemplate) (separator metricString : String) : Metric :=
  { (sortedParts template (split (metricName metricString) ".")).metric template separator
      (metricValue metricString) with
    timestamp := ((lineTimestamp metricString).map Conversion.value).getD (-1) }

theorem build_metric_unmatched {template : MetricTemplate} {metricString : String}
    (separator : String) (state : ParserState)
    (unmatched : template.matchMetric metricString = false) :
    template.buildMetric metricString separator state = .ok none state := by
  rw [MetricTemplate.buildMetric, if_pos unmatched]
  rfl

theorem build_metric_matched {template : MetricTemplate} {metricString : String}
    (separator : String) (state : ParserState)
    (matched : template.matchMetric metricString = true) :
    template.buildMetric metricString separator state =
      .ok (some (template.metric separator metricString))
        (state.flagged ((lineTimestamp metricString).any Conversion.outOfRange)) := by
  unfold MetricTemplate.buildMetric MetricTemplate.metric metricName metricValue lineTimestamp
  rw [if_neg (by rw [matched]; exact Bool.noConfusion)]
  unfold MetricTemplate.matchMetric at matched
  split at matched
  · next name value rest parts =>
    simp only [Bool.and_eq_true, Bool.or_eq_true, decide_eq_true_eq] at matched
    have enough : ¬(split name ".").length < template.parts.length := by
      rcases matched.2 with same | longer
      · omega
      · omega
    rw [parts]
    simp only [if_neg enough, sort_parts_eq matched.2]
    cases rest with
    | nil =>
        rw [Option.any_none, flagged_false]
        rfl
    | cons timestamp others =>
        cases others with
        | nil => rfl
        | cons other others =>
            rw [Option.any_none, flagged_false]
            rfl
  · cases matched

/-- A template that could be constructed builds a metric from every line that it matches and none
from the others: the errors of `buildMetric` and the reads past an end are never reached. -/
theorem constructed_template_builds (compile : String → Outcome (String → Bool))
    (templateString metricString separator : String) (state : ParserState) :
    (∃ fault, MetricTemplate.make compile templateString = .error fault) ∨
      ∃ template metric after, MetricTemplate.make compile templateString = .ok template ∧
        template.buildMetric metricString separator state = .ok metric after ∧
        (metric = none ↔ template.matchMetric metricString = false) := by
  cases constructed : MetricTemplate.make compile templateString with
  | error fault => exact .inl ⟨fault, rfl⟩
  | ok template =>
      right
      cases matched : template.matchMetric metricString with
      | false =>
          have built := build_metric_unmatched separator state matched
          exact ⟨template, none, state, rfl, built, by simp [matched]⟩
      | true =>
          have built := build_metric_matched separator state matched
          exact ⟨template, _, _, rfl, built, by simp [matched]⟩

section Lines

variable (parser : GraphiteParser)

def firstTemplate (metricString : String) : Option MetricTemplate :=
  parser.templates.find? fun metricTemplate => metricTemplate.matchMetric metricString

def lineMetric (metricString : String) : Option Metric :=
  (firstTemplate parser metricString).map fun metricTemplate =>
    metricTemplate.metric parser.separator metricString

def lineConversion (metricString : String) : Option (Conversion Int) :=
  (firstTemplate parser metricString).bind fun _ => lineTimestamp metricString

def insertLine (metrics : List Metric) (metricString : String) : List Metric :=
  match lineMetric parser metricString with
  | some metric => insertMetric metric metrics
  | none => metrics

variable {parser}

theorem build_first_eq (separator metricString : String) (templates : List MetricTemplate)
    (state : ParserState) :
    buildFirst separator metricString templates state =
      let found := templates.find? fun metricTemplate => metricTemplate.matchMetric metricString
      .ok (found.map fun metricTemplate => metricTemplate.metric separator metricString)
        (state.flagged ((found.bind fun _ => lineTimestamp metricString).any Conversion.outOfRange)) := by
  induction templates with
  | nil =>
      show _ = EStateM.Result.ok none (state.flagged false)
      rw [flagged_false]
      rfl
  | cons metricTemplate rest induction =>
      rw [buildFirst]
      cases matched : metricTemplate.matchMetric metricString with
      | true =>
          have found : (metricTemplate :: rest).find? (fun metricTemplate =>
              metricTemplate.matchMetric metricString) = some metricTemplate :=
            List.find?_cons_of_pos matched
          rw [bind_of_ok (build_metric_matched separator state matched), found]
          rfl
      | false =>
          have later : (metricTemplate :: rest).find? (fun metricTemplate =>
              metricTemplate.matchMetric metricString) = rest.find? fun metricTemplate =>
                metricTemplate.matchMetric metricString := by
            apply List.find?_cons_of_neg
            rw [matched]
            exact Bool.noConfusion
          rw [bind_of_ok (build_metric_unmatched separator state matched), later]
          exact induction

theorem parse_metric_string_eq (metricString : String) (state : ParserState) :
    parseMetricString parser metricString state = .ok () {
      parsedMetrics := insertLine parser state.parsedMetrics metricString
      rangeError := state.rangeError ||
        (lineConversion parser metricString).any Conversion.outOfRange } := by
  unfold parseMetricString
  rw [bind_of_ok (build_first_eq parser.separator metricString parser.templates state)]
  unfold insertLine lineMetric lineConversion firstTemplate
  cases parser.templates.find? fun metricTemplate => metricTemplate.matchMetric metricString with
  | none => rfl
  | some metricTemplate => rfl

theorem parse_metric_strings_eq (metricStrings : List String) (state : ParserState) :
    parseMetricStrings parser metricStrings state = .ok () {
      parsedMetrics := metricStrings.foldl (insertLine parser) state.parsedMetrics
      rangeError := state.rangeError || metricStrings.any fun metricString =>
        (lineConversion parser metricString).any Conversion.outOfRange } := by
  unfold parseMetricStrings
  induction metricStrings generalizing state with
  | nil =>
      rw [List.any_nil, Bool.or_false]
      rfl
  | cons metricString rest induction =>
      have first := @parse_metric_string_eq parser metricString state
      show (parseMetricString parser metricString >>= fun _ =>
        rest.forM (parseMetricString parser)) state = _
      rw [bind_of_ok first, induction, List.any_cons, Bool.or_assoc]
      rfl

end Lines

end StreamDataProcessor.Parsers.Graphite
