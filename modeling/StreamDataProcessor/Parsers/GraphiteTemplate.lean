import StreamDataProcessor.Parsers.GraphiteMetric

/-!
# Templates of the Graphite parser

`GraphiteParser::MetricTemplate`. The compilation of a filter's regular expression, which may
throw, is a parameter; a template has the predicate that it gave.
-/

namespace StreamDataProcessor.Parsers.Graphite

open Foundation.Numerals Arrow Utils.StringUtils

set_option autoImplicit false

inductive TemplatePart where
  | measurement
  | tag (id : String)
  | field
  deriving DecidableEq

/-- A template whose last part stands for several words has no tag there. -/
structure MetricTemplate where
  filter : Option (String → Bool) := none
  parts : List TemplatePart := []
  additionalTags : Std.ExtTreeMap String String := ∅
  multipleLastPart : Bool := false
  repeatable : multipleLastPart = true →
    parts.getLast? = some .measurement ∨ parts.getLast? = some .field := by simp

def parserException : Fault := .exception "GraphiteParserException"

def templatePart (partString : String) : TemplatePart :=
  if partString = "measurement" then .measurement
  else if partString = "field" then .field
  else .tag partString

def prepareFilterRegex (filterString : String) : String :=
  String.join (filterString.toList.map fun character =>
    match character with
    | '.' => "\\."
    | '*' => ".+"
    | other => other.toString)

/-- Whether a last part is `measurement*` or `field*`. -/
def isMultiple (lastPart : String) : Bool :=
  lastPart.toList.getLast? = some '*' &&
    (String.ofList lastPart.toList.dropLast = "measurement" ||
      String.ofList lastPart.toList.dropLast = "field")

def lastTemplatePart (lastPart : String) : TemplatePart :=
  templatePart (if isMultiple lastPart then String.ofList lastPart.toList.dropLast else lastPart)

theorem last_template_part_multiple {lastPart : String} (multiple : isMultiple lastPart = true) :
    lastTemplatePart lastPart = .measurement ∨ lastTemplatePart lastPart = .field := by
  rw [lastTemplatePart, if_pos multiple]
  simp only [isMultiple, Bool.and_eq_true, Bool.or_eq_true, decide_eq_true_eq] at multiple
  rcases multiple.2 with same | same
  · rw [same]
    exact Or.inl rfl
  · rw [same]
    exact Or.inr rfl

def prepareTemplateParts (templateString : String) : Outcome MetricTemplate :=
  if templateString.isEmpty then .ok {}
  else match (split templateString ".").getLast? with
    | none => .error parserException
    | some lastPart => .ok {
        parts := (split templateString ".").dropLast.map templatePart ++ [lastTemplatePart lastPart]
        multipleLastPart := isMultiple lastPart
        repeatable := by
          intro multiple
          rw [List.getLast?_concat, Option.some.injEq, Option.some.injEq]
          exact last_template_part_multiple multiple }

def prepareAdditionalTags (additionalTagsString : String) :
    Outcome (Std.ExtTreeMap String String) :=
  (split additionalTagsString ",").foldlM (fun additionalTags part =>
    match split part "=" with
    | [name, value] => .ok (additionalTags.insert name value)
    | _ => .error parserException) ∅

def MetricTemplate.make (compile : String → Outcome (String → Bool)) (templateString : String) :
    Outcome MetricTemplate := do
  let templateStringParts := split templateString " "
  if templateStringParts = [] then return {}
  let filtered := decide (templateStringParts.length = 3) ||
    (decide (templateStringParts.length = 2) &&
      decide ('=' ∉ (templateStringParts.getD 1 "").toList))
  let filter ← if filtered then
      some <$> compile (prepareFilterRegex (templateStringParts.getD 0 ""))
    else pure none
  let partIdx := if filtered then 1 else 0
  let prepared ← prepareTemplateParts (templateStringParts.getD partIdx "")
  let additionalTags ← if partIdx + 1 < templateStringParts.length then
      prepareAdditionalTags (templateStringParts.getD (partIdx + 1) "")
    else pure ∅
  return { prepared with filter := filter, additionalTags := additionalTags }

def MetricTemplate.matchMetric (template : MetricTemplate) (metricString : String) : Bool :=
  match split metricString " " with
  | metricName :: _ :: _ =>
      let descriptionLength := (split metricName ".").length
      (template.filter.all fun accepts => accepts metricName) &&
        (descriptionLength = template.parts.length ||
          (template.parts.length < descriptionLength && template.multipleLastPart))
  | _ => false

structure MetricParts where
  measurementNameParts : List String := []
  tagsParts : Std.ExtTreeMap String (List String) := ∅
  fieldParts : List String := []

def MetricParts.add (sorted : MetricParts) (part : TemplatePart) (word : String) : MetricParts :=
  match part with
  | .measurement => { sorted with measurementNameParts := sorted.measurementNameParts ++ [word] }
  | .field => { sorted with fieldParts := sorted.fieldParts ++ [word] }
  | .tag id => { sorted with
      tagsParts := sorted.tagsParts.insert id (sorted.tagsParts.getD id [] ++ [word]) }

def addParts (descriptionParts : List String) (sorted : MetricParts) (part : TemplatePart × Nat) :
    Outcome MetricParts :=
  match descriptionParts[part.2]? with
  | none => .error (.undefined "metric_description_parts[i] past the end")
  | some word => .ok (sorted.add part.1 word)

/-- A word after those that the parts of a template stand for. -/
def addRepeated (parts : List TemplatePart) (sorted : MetricParts) (word : String) :
    Outcome MetricParts :=
  match parts.getLast? with
  | none => .error (.undefined "back() of no template parts")
  | some .measurement => .ok (sorted.add .measurement word)
  | some .field => .ok (sorted.add .field word)
  | some (.tag _) => .error (.exception "Unexpected multiple template part with type TAG")

def sortParts (template : MetricTemplate) (descriptionParts : List String) :
    Outcome MetricParts := do
  let sorted ← template.parts.zipIdx.foldlM (addParts descriptionParts) {}
  if template.parts.length < descriptionParts.length && template.multipleLastPart then
    (descriptionParts.drop template.parts.length).foldlM (addRepeated template.parts) sorted
  else return sorted

def MetricParts.metric (sorted : MetricParts) (template : MetricTemplate) (separator value : String) :
    Metric where
  measurementName := concatenateStrings sorted.measurementNameParts separator
  tags := template.additionalTags.foldl (fun tags name tag => tags.insertIfNew name tag)
    (sorted.tagsParts.map fun _ words => concatenateStrings words separator)
  fields :=
    [(if sorted.fieldParts = [] then "value" else concatenateStrings sorted.fieldParts separator,
      value)]

def MetricTemplate.buildMetric (template : MetricTemplate) (metricString separator : String) :
    Parse (Option Metric) :=
  if template.matchMetric metricString = false then pure none
  else match split metricString " " with
    | [] => throw parserException
    | [_] => throw (.undefined "metric_parts[1] past the end")
    | metricName :: value :: rest => do
        let descriptionParts := split metricName "."
        if descriptionParts.length < template.parts.length then throw parserException
        let sorted ← ofExcept (sortParts template descriptionParts)
        let metric := sorted.metric template separator value
        match rest with
        | [timestamp] =>
            let conversion ← convert (strtoll timestamp.toList)
            return some { metric with timestamp := conversion.value }
        | _ => return some metric

end StreamDataProcessor.Parsers.Graphite
