import StreamDataProcessor.Foundation.Numerals
import StreamDataProcessor.Foundation.Effect
import StreamDataProcessor.Arrow.Types
import StreamDataProcessor.Utils.StringUtils

/-!
# Metrics of the Graphite parser

`GraphiteParser::Metric`, the order of the set of parsed metrics, and what outlives a call of
the parser: that set, and `errno`, which a conversion sets and nothing resets. The fields of a
metric are kept in the order of their insertion, which decides the order of an unordered map;
the order of the other unordered maps of the parser is not observable.
-/

namespace StreamDataProcessor.Parsers.Graphite

open Foundation.Numerals Arrow Utils.StringUtils

set_option autoImplicit false

structure Metric where
  measurementName : String
  tags : Std.ExtTreeMap String String := ∅
  fields : List (String × String) := []
  timestamp : Int := -1

def Metric.getKeyString (metric : Metric) : String :=
  concatenateStrings
    (metric.measurementName :: metric.tags.toList.map fun tag => tag.1 ++ "=" ++ tag.2) "."

def addField (fields : List (String × String)) (field : String × String) :
    List (String × String) :=
  if field.1 ∈ fields.map Prod.fst then fields else fields ++ [field]

def Metric.mergeWith (metric other : Metric) : Metric :=
  if metric.getKeyString ≠ other.getKeyString then metric
  else { metric with
    fields := other.fields.foldl addField metric.fields
    timestamp := if metric.timestamp = -1 then other.timestamp else metric.timestamp }

/-- `MetricComparator`: the metrics without a timestamp come last. -/
def comesBefore (metric1 metric2 : Metric) : Bool :=
  if metric1.timestamp = metric2.timestamp then
    decide (metric1.getKeyString < metric2.getKeyString)
  else if metric1.timestamp = -1 then false
  else if metric2.timestamp = -1 then true
  else decide (metric1.timestamp < metric2.timestamp)

/-- The set with one more metric, which is merged with one that is there in its place. -/
def insertMetric (metric : Metric) : List Metric → List Metric
  | [] => [metric]
  | parsed :: rest =>
      if comesBefore parsed metric then parsed :: insertMetric metric rest
      else if comesBefore metric parsed then metric :: parsed :: rest
      else parsed.mergeWith metric :: rest

/-- The members of the parser that change, and whether `errno` is `ERANGE`. -/
structure ParserState where
  parsedMetrics : List Metric := []
  rangeError : Bool := false

abbrev Parse := EStateM Fault ParserState

def ParserState.flagged (state : ParserState) (flag : Bool) : ParserState :=
  { state with rangeError := state.rangeError || flag }

def convert {Number : Type} (conversion : Conversion Number) : Parse (Conversion Number) :=
  fun state => .ok conversion (state.flagged conversion.outOfRange)

theorem flagged_false (state : ParserState) : state.flagged false = state := by
  rw [ParserState.flagged, Bool.or_false]

theorem flagged_of_raised {state : ParserState} (raised : state.rangeError = true) (flag : Bool) :
    state.flagged flag = state := by
  rw [ParserState.flagged, raised, Bool.true_or, ← raised]

theorem flagged_flagged (state : ParserState) (first second : Bool) :
    (state.flagged first).flagged second = state.flagged (first || second) := by
  rw [ParserState.flagged, ParserState.flagged, ParserState.flagged, Bool.or_assoc]

end StreamDataProcessor.Parsers.Graphite
