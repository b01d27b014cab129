import RipInterpreter.Concrete.Values

namespace RipInterpreter.Concrete

open Parsing Parser

/-- Items between parentheses as a branch, or an empty branch at `start` where there are none. -/
def optionalList (label : String) (item : Parser Tree) (start : Location) : Parser Tree := do
  match ← optional (parenthesizedList item) with
  | some (opening, items) => return .branch label opening.location items
  | none => return .branch label start []

def classDefinition (nested : Nested) : Parser Tree := do
  let start ← keyword "class"
  blanks
  let ancestors ← optionalList "ancestors" (nested.classDefinition.orElse reference) start.location
  blanks
  let body ← block nested
  return .branch "class" start.location [ancestors, body]

/-- A parameter: a literal to compare with, or a name to bind. -/
def parameter (nested : Nested) : Parser Tree :=
  firstOf numeric [character, string nested, reference]

def lambda (nested : Nested) : Parser Tree := do
  let start ← firstOf (keyword "->") [keyword "lambda", keyword "λ"]
  blanks
  let parameters ← optionalList "parameters" (parameter nested) start.location
  blanks
  let body ← block nested
  return .branch "lambda" start.location [.leaf "keyword" start, parameters, body]

def overloads (nested : Nested) : Parser Tree := do
  let start ← keyword "=>"
  blanks
  let _ ← literal "\x7b"
  blanks
  let first ← label "lambda" (lambda nested)
  blanks
  let rest ← many (keepLeft (lambda nested) blanks)
  let _ ← label "'\x7d'" (literal "\x7d")
  return .branch "overloads" start.location (first :: rest)

def definition (nested : Nested) : Parser Tree :=
  firstOf (classDefinition nested) [lambda nested, overloads nested]

end RipInterpreter.Concrete
