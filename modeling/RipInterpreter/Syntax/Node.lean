import RipInterpreter.Location

namespace RipInterpreter.Syntax

/-- A name where it is written. -/
structure Name where
  text : String
  location : Location
deriving DecidableEq, Inhabited

/-- A character where it is written. -/
structure Glyph where
  char : Char
  location : Location
deriving DecidableEq, Inhabited

/-- The word that introduces a lambda. -/
inductive LambdaWord where
  | arrow
  | lambda
deriving DecidableEq, Inhabited

mutual

/-- An expression or a statement. -/
inductive Node where
  | comment (text : String) (location : Location)
  | reference (name : Name)
  /-- An integer literal as written. -/
  | integer (digits : String) (location : Location)
  /-- A decimal literal as written. -/
  | decimal (digits : String) (location : Location)
  | character (glyph : Glyph)
  | string (glyphs : List Glyph) (location : Location)
  | regularExpression (glyphs : List Glyph) (location : Location)
  /-- Statements inside a text: the last value, turned into a string. -/
  | interpolation (body : List Node) (location : Location)
  | keyValue (pair : Pair)
  | range (start last : Node) (exclusive : Bool) (location : Location)
  | list (items : List Node) (location : Location)
  | map (pairs : List Pair) (location : Location)
  | assignment (target value : Node) (location : Location)
  | property (object : Node) (key : String) (location : Location)
  | invocation (callable : Node) (arguments : List Node) (location : Location)
  | lambda (definition : Lambda)
  | overloads (definitions : List Lambda) (location : Location)
  | classDefinition (ancestors : List Node) (body : Block) (location : Location)
  | block (body : Block)
  | conditional (condition : Node) (holds fails : Block) (location : Location)
  | switch (subject : Node) (cases : List Case) (otherwise : Option Clause) (location : Location)
  | attempt (body : Block) (handlers : List Handler) (cleanup : Option Clause) (location : Location)
  | throwing (payload : Node) (location : Location)
  | returning (payload : Option Node) (location : Location)
  | exiting (payload : Option Node) (location : Location)

/-- The statements between two braces. -/
structure Block where
  statements : List Node
  location : Location

structure Pair where
  key : Node
  value : Node
  location : Location

/-- One overload. A parameter that is a reference binds its argument; any other is a literal to
compare the argument with. -/
structure Lambda where
  word : LambdaWord
  parameters : List Node
  body : Block
  location : Location

/-- The values of a switch that lead to a block. -/
structure Case where
  matchers : List Node
  body : Block
  location : Location

/-- A handler. Without a matcher it takes everything, otherwise what is of that class, or equal to
that value. -/
structure Handler where
  matcher : Option Name
  binding : Name
  body : Block
  location : Location

/-- A block behind a word of its own. -/
structure Clause where
  body : Block
  location : Location

end

/-- The statements of a source. -/
structure Module where
  statements : List Node
  location : Location

def Block.empty (location : Location) : Block := ⟨[], location⟩

/-- The place of a node. Calls of operators stand at the operator. -/
def Node.location : Node → Location
  | .comment _ place => place
  | .reference name => name.location
  | .integer _ place => place
  | .decimal _ place => place
  | .character glyph => glyph.location
  | .string _ place => place
  | .regularExpression _ place => place
  | .interpolation _ place => place
  | .keyValue pair => pair.location
  | .range _ _ _ place => place
  | .list _ place => place
  | .map _ place => place
  | .assignment _ _ place => place
  | .property _ _ place => place
  | .invocation _ _ place => place
  | .lambda definition => definition.location
  | .overloads _ place => place
  | .classDefinition _ _ place => place
  | .block body => body.location
  | .conditional _ _ _ place => place
  | .switch _ _ _ place => place
  | .attempt _ _ _ place => place
  | .throwing _ place => place
  | .returning _ place => place
  | .exiting _ place => place

def Node.kind : Node → String
  | .comment .. => "Comment"
  | .reference .. => "Reference"
  | .integer .. => "Integer"
  | .decimal .. => "Decimal"
  | .character .. => "Character"
  | .string .. => "String"
  | .regularExpression .. => "RegularExpression"
  | .interpolation .. => "Interpolation"
  | .keyValue .. => "KeyValue"
  | .range .. => "Range"
  | .list .. => "List"
  | .map .. => "Map"
  | .assignment .. => "Assignment"
  | .property .. => "Property"
  | .invocation .. => "Invocation"
  | .lambda .. => "Lambda"
  | .overloads .. => "Overloads"
  | .classDefinition .. => "Class"
  | .block .. => "BlockBody"
  | .conditional .. => "If"
  | .switch .. => "Switch"
  | .attempt .. => "Try"
  | .throwing .. => "Throw"
  | .returning .. => "Return"
  | .exiting .. => "Exit"

def Node.isComment : Node → Bool
  | .comment .. => true
  | _ => false

def spell (glyphs : List Glyph) : String := String.ofList (glyphs.map Glyph.char)

end RipInterpreter.Syntax
