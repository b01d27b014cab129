import RipInterpreter.Concrete.Statements
import RipInterpreter.Error

/-!
The grammar as a whole. The rules are tied together by levels of nesting: each level takes at least
one character, so a source of `n` characters needs at most `n + 1` of them.
-/

namespace RipInterpreter.Concrete

open Parsing Parser

/-- The nested rules with so many levels below them. -/
def Nested.within : (levels : Nat) → Nested
  | 0 =>
    { lines := fun _ _ => .exhausted
      expression := fun _ _ => .exhausted
      operand := fun _ _ => .exhausted
      classDefinition := fun _ _ => .exhausted
      conditional := fun _ _ _ => .exhausted }
  | levels + 1 =>
    { lines := fun source cursor => Concrete.lines (within levels) source cursor
      expression := fun source cursor => Concrete.expression (within levels) source cursor
      operand := fun source cursor => Concrete.operand (within levels) source cursor
      classDefinition := fun source cursor =>
        Concrete.classDefinition (within levels) source cursor
      conditional := fun word source cursor =>
        Concrete.conditional (within levels) word source cursor }

/-- A rule, with as many levels of nesting as the source can need. -/
def complete {α : Type} (rule : Nested → Parser α) : Parser α := fun source cursor =>
  rule (.within (source.size + 1)) source cursor

inductive Rule where
  | character
  | decimal
  | integer
  | numeric
  | regularExpression
  | string
  | keyValue
  | list
  | map
  | range
  | reference
  | block
  | statement
  | comment
  | assignment
  | expression
  | operand
  | module
deriving DecidableEq

/-- The parser of a rule over the nested rules. -/
def Rule.over (nested : Nested) : Rule → Parser Tree
  | .character => Concrete.character
  | .decimal => Concrete.decimal
  | .integer => Concrete.integer
  | .numeric => Concrete.numeric
  | .regularExpression => Concrete.regularExpression nested
  | .string => Concrete.string nested
  | .keyValue => Concrete.keyValue nested
  | .list => Concrete.list nested
  | .map => Concrete.map nested
  | .range => Concrete.range
  | .reference => Concrete.reference
  | .block => Concrete.block nested
  | .statement => Concrete.statement nested
  | .comment => Concrete.comment
  | .assignment => Concrete.assignment nested
  | .expression => Concrete.expression nested
  | .operand => Concrete.operand nested
  | .module => Concrete.module nested

def Rule.parser (rule : Rule) : Parser Tree := complete (fun nested => rule.over nested)

def statements : Parser (List Tree) := complete lines

/-- The value that a reply carries, its failure as an error. -/
def toResult {α : Type} : Reply α → Except Error α
  | .matched value _ => .ok value
  | .failed failure _ => .error (.parse failure)
  | .exhausted => .error (.internal .nestingExhausted)

/-- What a parser reads from a text that it must match to the end. -/
def readWhole {α : Type} (parser : Parser α) (origin text : String) : Except Error α :=
  toResult ((keepLeft parser endOfInput).readAll (.ofText origin text))

def Tree.ofText (origin text : String) : Except Error Tree :=
  toResult (Rule.module.parser.readAll (.ofText origin text))

end RipInterpreter.Concrete
