import Mathlib.Tactic.Common

/-!
# What the metadata of fields and schemas can say

The enumerations and the group message are those of `metadata.proto` and
`time_utils.h`. Metadata is kept as a record of the keys the program reads.
Protobuf serialisation of a group is taken to be injective, so the group stands
for its own bytes.
-/

namespace StreamDataProcessor.Metadata

set_option autoImplicit false

inductive ColumnType where
  | unknown
  | time
  | measurement
  | tag
  | field
  deriving DecidableEq, Repr

inductive TimeUnit where
  | nano
  | micro
  | milli
  | second
  | minute
  | hour
  | day
  | week
  deriving DecidableEq, Repr

structure RecordBatchGroup where
  groupColumnsNames : List String := []
  groupColumnsValues : List String := []
  deriving DecidableEq, Repr

structure FieldMetadata where
  columnType : Option ColumnType := none
  timeUnit : Option TimeUnit := none
  deriving DecidableEq, Repr

structure SchemaMetadata where
  group : Option RecordBatchGroup := none
  timeColumnName : Option String := none
  measurementColumnName : Option String := none
  deriving DecidableEq, Repr

end StreamDataProcessor.Metadata
