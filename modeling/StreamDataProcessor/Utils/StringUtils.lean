import Mathlib.Tactic.Common

/-!
# Splitting and joining strings

`string_utils::split` and `concatenateStrings`. After a delimiter the search goes on one
character later, whatever the delimiter's length.
-/

namespace StreamDataProcessor.Utils.StringUtils

set_option autoImplicit false

/-- The parts of what is left of a string, the first of which has begun with `part`. -/
def splitFrom (delimiter : List Char) : List Char → List Char → List (List Char)
  | part, [] => [part]
  | part, character :: rest =>
      if delimiter.isPrefixOf (character :: rest) then part :: splitFrom delimiter [] rest
      else splitFrom delimiter (part ++ [character]) rest

def split (str delimiter : String) : List String :=
  if str.isEmpty then []
  else (splitFrom delimiter.toList [] str.toList).map String.ofList

def concatenateStrings (parts : List String) (delimiter : String) : String :=
  delimiter.intercalate parts

example : split "name\na=1,b=" "\n" = ["name", "a=1,b="] := by decide

end StreamDataProcessor.Utils.StringUtils
