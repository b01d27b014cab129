import RipInterpreter.Location
import RipInterpreter.SortedNames

namespace RipInterpreter.Parsing

/-- Why a text did not match: what was expected at a place and what was found there. -/
structure Failure where
  message : String
  expected : List String
  found : Option String
  location : Option Location
deriving DecidableEq, Inhabited

namespace Failure

/-- How far into the text a failure lies; one without a place counts as lying at the start. -/
def position (failure : Failure) : Nat :=
  match failure.location with
  | some place => place.position
  | none => 0

def expecting (failure : Failure) (alternative : String) : Failure :=
  { failure with expected := failure.expected ++ [alternative] }

/-- The report of a failure on one line. -/
def text (failure : Failure) : String :=
  let place := match failure.location with
    | some place => " at " ++ place.text
    | none => ""
  let expected :=
    if failure.expected.isEmpty then "" else ", expected " ++ " or ".intercalate failure.expected
  let found := match failure.found with
    | some found => ", found " ++ found
    | none => ""
  "parse error: " ++ failure.message ++ place ++ expected ++ found

/-- The furthest failure after one more: a failure further on replaces the one kept, one at the
same position only adds its alternatives. -/
def furthest (kept : Option Failure) (failure : Failure) : Failure :=
  match kept with
  | none => failure
  | some earlier =>
    if earlier.position < failure.position then failure
    else if earlier.position = failure.position then
      { earlier with expected := mergeNames earlier.expected failure.expected }
    else earlier

end Failure

end RipInterpreter.Parsing
