import RipInterpreter.Concrete.Control
import RipInterpreter.Concrete.Definitions

namespace RipInterpreter.Concrete

open Parsing Parser

/-- What may follow an operand: a property read from it, or its invocation. -/
inductive Suffix where
  | property (name : Span)
  | invocation (opening : Location) (arguments : List Tree)

/-- The tree of an operand with one more suffix. -/
def Suffix.attach (operand : Tree) : Suffix → Tree
  | .property name => .branch "property" name.location [operand, .leaf "name" name]
  | .invocation opening arguments =>
    .branch "invocation" opening [operand, .branch "arguments" opening arguments]

def suffix (nested : Nested) : Parser Suffix :=
  orElse (Suffix.property <$> keepRight (literal ".") simpleReference) do
    let (opening, arguments) ← parenthesizedList nested.expression
    return .invocation opening.location arguments

/-- An operand with all the suffixes that follow it. -/
def suffixes (nested : Nested) (operand : Tree) : Parser Tree := do
  return (← many (suffix nested)).foldl Suffix.attach operand

/-- An expression between parentheses, which leave no trace. -/
def parenthesized (nested : Nested) : Parser Tree := do
  let _ ← literal "("
  blanks
  let inner ← nested.expression
  blanks
  let _ ← literal ")"
  return inner

def atom (nested : Nested) : Parser Tree :=
  firstOf (construct nested) [definition nested, map nested, list nested, ledBySimple nested,
    parenthesized nested, ledByReference]

/-- An atom and its suffixes. -/
def operand (nested : Nested) : Parser Tree := do
  suffixes nested (← atom nested)

/-- An operator and the operand after it. -/
def operatorLink (nested : Nested) : Parser (List Tree) := do
  spaces
  let operator ← simpleReference
  spaces
  let operand ← nested.operand
  return [.leaf "operator" operator, operand]

/-- Operands with operators between them. -/
def expression (nested : Nested) : Parser Tree := do
  let first ← operand nested
  let links ← many (operatorLink nested)
  if links.isEmpty then return first
  else return .branch "binary" first.location (first :: links.flatten)

/-- A reference or a property that gets a value. -/
def assignment (nested : Nested) : Parser Tree := do
  let target ← suffixes nested (← reference)
  spaces
  let equals ← literal "="
  spaces
  let value ← nested.expression
  return .branch "assignment" equals.location [target, value]

/-- The rest of a line behind a hash that does not open an interpolation. -/
def comment : Parser Tree := do
  let _ ← literal "#"
  notFollowedBy (literal "\x7b") "comment"
  Tree.leaf "comment" <$> capture (many
    (keepRight (notFollowedBy lineEnd "end of line") (charWhere (fun _ => true) "comment text")))

def statement (nested : Nested) : Parser Tree :=
  firstOf comment [assignment nested, expression nested]

/-- Statements with white space or semicolons around them. -/
def lines (nested : Nested) : Parser (List Tree) := do
  let separators := many (charWhere (fun c => Text.isBlank c || c = ';') "separator")
  let _ ← separators
  many (keepLeft (statement nested) separators)

def module (nested : Nested) : Parser Tree := fun source cursor =>
  Parser.bind (lines nested) (fun statements => do
    endOfInput
    return .branch "module" (source.placeOf 0) statements) source cursor

end RipInterpreter.Concrete
