import StreamDataProcessor.Foundation.Binary64

/-!
# Points

`agent::Point` of `udf.proto`. The maps of a message are compared as maps.
-/

namespace StreamDataProcessor.Kapacitor

open Foundation.Binary64

set_option autoImplicit false

abbrev FieldMap (T : Type) := Std.ExtTreeMap String T

structure Point where
  time : Int := 0
  name : String := ""
  database : String := ""
  retentionPolicy : String := ""
  group : String := ""
  dimensions : List String := []
  tags : FieldMap String := ∅
  fieldsDouble : FieldMap Double := ∅
  fieldsInt : FieldMap Int := ∅
  fieldsString : FieldMap String := ∅
  fieldsBool : FieldMap Bool := ∅
  byName : Bool := false

end StreamDataProcessor.Kapacitor
