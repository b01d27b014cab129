import RipInterpreter.Concrete.Words

/-!
The rules that occur inside other rules, as a record that the grammar is written over. Each use of
one of them stands behind at least one character of the rule it occurs in.
-/

namespace RipInterpreter.Concrete

open Parsing Parser

structure Nested where
  /-- The statements of a block. -/
  lines : Parser (List Tree)
  expression : Parser Tree
  operand : Parser Tree
  classDefinition : Parser Tree
  /-- A conditional, introduced by the given word, that follows an `else`. -/
  conditional : String → Parser Tree

/-- Statements between braces. -/
def block (nested : Nested) : Parser Tree := do
  let opening ← literal "\x7b"
  let statements ← nested.lines
  let _ ← label "'\x7d'" (literal "\x7d")
  return .branch "block" opening.location statements

/-- Items between parentheses, with the opening one. -/
def parenthesizedList (item : Parser Tree) : Parser (Span × List Tree) := do
  let opening ← literal "("
  blanks
  let items ← listOf item
  blanks
  let _ ← label "')'" (literal ")")
  return (opening, items)

end RipInterpreter.Concrete
