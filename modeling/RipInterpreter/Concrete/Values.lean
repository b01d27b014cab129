import RipInterpreter.Concrete.Numbers
import RipInterpreter.Concrete.Texts

namespace RipInterpreter.Concrete

open Parsing Parser

/-- A literal without parts that are values. -/
def simpleValue (nested : Nested) : Parser Tree :=
  firstOf numeric [character, string nested, regularExpression nested]

/-- The colon and the value that make a pair of the key in front of them, if they stand there. -/
def pairRest (nested : Nested) (key : Tree) : Parser (Option Tree) := do
  let value ← optional do
    let _ ← optional spaces
    let _ ← literal ":"
    let _ ← optional spaces
    nested.operand
  return value.map fun value => .branch "key_value" key.location [key, value]

def keyValue (nested : Nested) : Parser Tree := do
  let key ← simpleValue nested
  match ← pairRest nested key with
  | some pair => return pair
  | none => failFurthest "expected key-value pair"

/-- What a range may start or end with. -/
def rangeable : Parser Tree := firstOf integer [character, reference]

/-- The dots and the end that make a range of the start in front of them, if they stand there. A
third dot excludes the end. -/
def rangeRest (start : Tree) : Parser (Option Tree) := do
  let rest ← optional do
    let _ ← literal ".."
    let exclusive ← optional (literal ".")
    let last ← rangeable
    return (exclusive.isSome, last)
  return rest.map fun (exclusive, last) =>
    .branch (if exclusive then "exclusive_range" else "range") start.location [start, last]

def range : Parser Tree := do
  let start ← rangeable
  match ← rangeRest start with
  | some range => return range
  | none => failFurthest "expected range"

def ledBySimple (nested : Nested) : Parser Tree := do
  let first ← simpleValue nested
  match ← pairRest nested first with
  | some pair => return pair
  | none =>
    if first.label = "integer" || first.label = "character" then
      return (← rangeRest first).getD first
    else return first

def ledByReference : Parser Tree := do
  let first ← reference
  return (← rangeRest first).getD first

/-- Pairs between braces. -/
def map (nested : Nested) : Parser Tree := do
  let opening ← literal "\x7b"
  blanks
  let pairs ← listOf (keyValue nested)
  blanks
  let _ ← literal "\x7d"
  return .branch "map" opening.location pairs

/-- Expressions between brackets. -/
def list (nested : Nested) : Parser Tree := do
  let opening ← literal "["
  blanks
  let items ← listOf nested.expression
  blanks
  let _ ← label "']'" (literal "]")
  return .branch "list" opening.location items

end RipInterpreter.Concrete
