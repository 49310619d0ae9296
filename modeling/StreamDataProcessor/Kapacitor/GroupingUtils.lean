import StreamDataProcessor.Metadata.Access
import StreamDataProcessor.Utils.StringUtils

/-!
# Group strings

`grouping_utils::parse` and `encode`. A group string is the measurement, if it
belongs to the group, on a line of its own, and then the tags as `name=value`.
-/

namespace StreamDataProcessor.Kapacitor.GroupingUtils

open Metadata Utils

set_option autoImplicit false

def parseTagValue (groupMap : Std.ExtTreeMap String String) (tagValueString : String) :
    Option (Std.ExtTreeMap String String) :=
  match StringUtils.split tagValueString "=" with
  | [tag, value] => some (groupMap.insert tag value)
  | _ => none

def parseTagValues (groupMap : Std.ExtTreeMap String String) (tagValuesString : String) :
    Option RecordBatchGroup := do
  let filled ← (StringUtils.split tagValuesString ",").foldlM parseTagValue groupMap
  return constructGroupFromOrderedMap filled

/-- `parse`; there is no group where a `GroupParserException` is thrown. -/
def parse (groupString measurementColumnName : String) : Option RecordBatchGroup :=
  match StringUtils.split groupString "\n" with
  | [] => some {}
  | [tagValues] => parseTagValues ∅ tagValues
  | [measurement, tagValues] =>
      parseTagValues ((∅ : Std.ExtTreeMap String String).insert measurementColumnName measurement)
        tagValues
  | _ => none

def encode (group : RecordBatchGroup) (measurementColumnName : String)
    (columnTypes : List (String × ColumnType)) : String :=
  let columns := group.groupColumnsNames.zip group.groupColumnsValues
  let measurementPrefix := columns.foldl (fun earlier (name, value) =>
    if name = measurementColumnName then value ++ "\n" else earlier) ""
  let tags := columns.filter fun (name, _) =>
    name ≠ measurementColumnName ∧ columnTypes.lookup name = some .tag
  measurementPrefix ++ ",".intercalate (tags.map fun (name, value) => name ++ "=" ++ value)

/-- Only which columns are tags matters to `encode`. -/
theorem encode_congr {group : RecordBatchGroup} {measurementColumnName : String}
    {first second : List (String × ColumnType)}
    (same : ∀ name, name ≠ measurementColumnName →
      (first.lookup name = some .tag ↔ second.lookup name = some .tag)) :
    encode group measurementColumnName first = encode group measurementColumnName second := by
  unfold encode
  dsimp only
  congr 3
  apply List.filter_congr
  rintro ⟨name, value⟩ _
  rw [decide_eq_decide]
  exact and_congr_right (same name)

example : (parse "cpu\nb=2,a=1" "name").map (encode · "name" [("a", .tag), ("b", .tag)]) =
    some "cpu\na=1,b=2" := by decide

end StreamDataProcessor.Kapacitor.GroupingUtils
