import RipInterpreter.Concrete.Values

namespace RipInterpreter.Concrete

open Parsing Parser

/-- An expression between parentheses. -/
def condition (nested : Nested) : Parser Tree := do
  let _ ← literal "("
  blanks
  let condition ← nested.expression
  blanks
  let _ ← label "')'" (literal ")")
  return condition

/-- The other branch of a conditional: a block, or another conditional. -/
def elseBranch (nested : Nested) : Parser Tree := do
  blanks
  let start ← keyword "else"
  blanks
  let body ← firstOf (block nested) [nested.conditional "if", nested.conditional "unless"]
  return .branch "else" start.location [body]

/-- A conditional introduced by `word`. -/
def conditional (nested : Nested) (word : String) : Parser Tree := do
  let start ← keyword word
  blanks
  let condition ← condition nested
  blanks
  let body ← block nested
  let otherwise ← optional (elseBranch nested)
  return .branch word start.location (condition :: body :: otherwise.toList)

/-- A word followed by a block. -/
def wordAndBlock (nested : Nested) (word : String) : Parser Tree := do
  let start ← keyword word
  blanks
  let body ← block nested
  return .branch word start.location [body]

/-- The values of a case and its block. -/
def case (nested : Nested) : Parser Tree := do
  let start ← keyword "case"
  blanks
  let (opening, matchers) ← parenthesizedList nested.expression
  blanks
  let body ← block nested
  return .branch "case" start.location [.branch "matchers" opening.location matchers, body]

/-- A subject, its cases and the block for all others. -/
def switch (nested : Nested) : Parser Tree := do
  let start ← keyword "switch"
  blanks
  let subject ← condition nested
  blanks
  let _ ← literal "\x7b"
  blanks
  let cases ← many (keepLeft (case nested) blanks)
  let otherwise ← optional (keepLeft (wordAndBlock nested "else") blanks)
  let _ ← label "'\x7d'" (literal "\x7d")
  return .branch "switch" start.location (subject :: cases ++ otherwise.toList)

/-- A handler: the name to bind, after an optional type. -/
def catchBranch (nested : Nested) : Parser Tree := do
  let start ← keyword "catch"
  blanks
  let _ ← literal "("
  blanks
  let first ← reference
  let second ← optional (keepRight spaces reference)
  blanks
  let _ ← label "')'" (literal ")")
  blanks
  let body ← block nested
  return .branch "catch" start.location (first :: second.toList ++ [body])

/-- A body with handlers, a final block or both. -/
def tryBlock (nested : Nested) : Parser Tree := do
  let start ← keyword "try"
  blanks
  let body ← block nested
  let handlers ← many (keepRight blanks (catchBranch nested))
  let cleanup ← optional (keepRight blanks (wordAndBlock nested "finally"))
  if handlers.isEmpty && cleanup.isNone then
    let failure ← failureHere "try without catch or finally"
    refuse ((failure.expecting "catch").expecting "finally")
  else return .branch "try" start.location (body :: handlers ++ cleanup.toList)

def throwing (nested : Nested) : Parser Tree := do
  let start ← keyword "throw"
  spaces
  let payload ← nested.expression
  return .branch "throw" start.location [payload]

/-- A word that ends a body, with an optional result. -/
def leaving (nested : Nested) (word : String) : Parser Tree := do
  let start ← keyword word
  let payload ← optional (keepRight spaces nested.expression)
  return .branch word start.location payload.toList

def construct (nested : Nested) : Parser Tree :=
  firstOf (conditional nested "if") [conditional nested "unless", switch nested, tryBlock nested,
    throwing nested, leaving nested "return", leaving nested "exit"]

end RipInterpreter.Concrete
