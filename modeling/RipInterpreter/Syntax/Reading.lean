import RipInterpreter.Concrete.Grammar
import RipInterpreter.Syntax.Text

/-!
Syntax trees from concrete trees. A `Reading` is a concrete tree in which every part already knows
the node it reads as, or why it reads as none, so that the node of a whole is put together from its
parts and from theirs. A tree whose shape no rule knows is refused and never dropped.
-/

namespace RipInterpreter.Syntax

open Concrete (Tree)

/-- A concrete tree with the node that each part reads as. -/
structure Reading where
  tree : Tree
  parts : List Reading
  node : Except Error Node

namespace Reading

/-- The fault of a tree that lacks a part. -/
def malformed (tree : Tree) : Error := .compiler (.malformed tree.label) (some tree.location)

def part (tree : Tree) (parts : List Reading) (index : Nat) : Except Error Reading :=
  match parts[index]? with
  | some found => .ok found
  | none => .error (malformed tree)

def requireLabel (tree : Tree) (labels : List String) : Except Error Unit :=
  if labels.contains tree.label then .ok ()
  else .error (.compiler (.mislabelled labels tree.label) (some tree.location))

/-- The nodes of several readings, or the fault of the first that has none. -/
def nodes (readings : List Reading) : Except Error (List Node) := readings.mapM Reading.node

def name (tree : Tree) : Except Error Name := do
  requireLabel tree ["reference"]
  return ⟨tree.content, tree.location⟩

/-- A character: the first of its text. -/
def glyph (tree : Tree) : Except Error Glyph :=
  match tree.content.toList with
  | c :: _ => .ok ⟨c, tree.location⟩
  | [] => .error (malformed tree)

def block (tree : Tree) (parts : List Reading) : Except Error Block := do
  requireLabel tree ["block"]
  return ⟨← nodes parts, tree.location⟩

def blockPart (tree : Tree) (parts : List Reading) (index : Nat) : Except Error Block := do
  let body ← part tree parts index
  block body.tree body.parts

def pair (tree : Tree) (parts : List Reading) : Except Error Pair := do
  requireLabel tree ["key_value"]
  let key ← (← part tree parts 0).node
  let value ← (← part tree parts 1).node
  return ⟨key, value, tree.location⟩

def assignment (tree : Tree) (parts : List Reading) : Except Error Node := do
  let target ← (← part tree parts 0).node
  match target with
  | .reference .. | .property .. =>
    let value ← (← part tree parts 1).node
    return .assignment target value tree.location
  | _ => throw (.compiler (.notAssignable target.kind) (some target.location))

/-- Folds operators and their operands into calls, from the left. -/
def operatorCalls (joined : Node) : List Reading → Except Error Node
  | operator :: operand :: rest => do
    let argument ← operand.node
    operatorCalls (operatorCall joined operator.tree.content operator.tree.location argument) rest
  | _ => .ok joined

/-- A chain of operands with operators between them. -/
def chain (tree : Tree) : List Reading → Except Error Node
  | [] => .error (malformed tree)
  | first :: links => do
    if links.length % 2 = 0 then operatorCalls (← first.node) links
    else throw (malformed tree)

def lambda (tree : Tree) (parts : List Reading) : Except Error Lambda := do
  requireLabel tree ["lambda"]
  let word ← part tree parts 0
  let parameters ← nodes (← part tree parts 1).parts
  let body ← blockPart tree parts 2
  return ⟨if word.tree.content = "->" then .arrow else .lambda, parameters, body, tree.location⟩

/-- The block behind an `else`. A conditional there becomes the only statement of one. -/
def elseBody (tree : Tree) (parts : List Reading) : Except Error Block := do
  requireLabel tree ["else"]
  let body ← part tree parts 0
  if body.tree.label = "block" then block body.tree body.parts
  else return ⟨[← body.node], body.tree.location⟩

/-- A conditional. A missing `else` is an empty block at the place of the other. -/
def conditional (tree : Tree) (parts : List Reading) : Except Error Node := do
  let condition ← (← part tree parts 0).node
  let given ← blockPart tree parts 1
  let otherwise ← match parts[2]? with
    | some branch => elseBody branch.tree branch.parts
    | none => .ok (Block.empty given.location)
  if tree.label = "unless" then return .conditional condition otherwise given tree.location
  else return .conditional condition given otherwise tree.location

/-- A clause whose block is the first part. -/
def clause (tree : Tree) (parts : List Reading) : Except Error Clause := do
  return ⟨← blockPart tree parts 0, tree.location⟩

def case (tree : Tree) (parts : List Reading) : Except Error Case := do
  let matchers ← nodes (← part tree parts 0).parts
  let body ← blockPart tree parts 1
  return ⟨matchers, body, tree.location⟩

/-- The arms of a switch behind those already read; the last `else` counts. -/
def arms (cases : List Case) (otherwise : Option Clause) :
    List Reading → Except Error (List Case × Option Clause)
  | [] => .ok (cases, otherwise)
  | arm :: rest => do
    if arm.tree.label = "case" then
      arms (cases ++ [← case arm.tree arm.parts]) otherwise rest
    else if arm.tree.label = "else" then
      arms cases (some (← clause arm.tree arm.parts)) rest
    else throw (malformed arm.tree)

/-- A switch. The arms are read before the subject. -/
def switch (tree : Tree) : List Reading → Except Error Node
  | [] => .error (malformed tree)
  | subject :: rest => do
    let (cases, otherwise) ← arms [] none rest
    return .switch (← subject.node) cases otherwise tree.location

/-- A handler: a name to bind after an optional type, and a block. -/
def handler (tree : Tree) : List Reading → Except Error Handler
  | [binding, body] => do
    let binding ← name binding.tree
    return ⟨none, binding, ← block body.tree body.parts, tree.location⟩
  | [matcher, binding, body] => do
    let matcher ← name matcher.tree
    let binding ← name binding.tree
    return ⟨some matcher, binding, ← block body.tree body.parts, tree.location⟩
  | _ => .error (malformed tree)

/-- The handlers of a body behind those already read; the last final clause counts. -/
def handlers (found : List Handler) (cleanup : Option Clause) :
    List Reading → Except Error (List Handler × Option Clause)
  | [] => .ok (found, cleanup)
  | branch :: rest => do
    if branch.tree.label = "catch" then
      handlers (found ++ [← handler branch.tree branch.parts]) cleanup rest
    else if branch.tree.label = "finally" then
      handlers found (some (← clause branch.tree branch.parts)) rest
    else throw (malformed branch.tree)

/-- A body with handlers, which are read before it. -/
def attempt (tree : Tree) : List Reading → Except Error Node
  | [] => .error (malformed tree)
  | body :: rest => do
    let (found, cleanup) ← handlers [] none rest
    return .attempt (← block body.tree body.parts) found cleanup tree.location

/-- The statements of an interpolation. -/
def interpolationBody (parts : List Reading) : Except Error (List Node) :=
  nodes (parts.filter fun child => child.tree.label != "interpolation_end")

/-- The pieces that one part of a text gives. -/
def pieces (kind : TextKind) (tree : Tree) (parts : List Reading) : Except Error (List Piece) :=
  if tree.label = "character" then do return [.glyph (← glyph tree)]
  else if tree.label = "escape" then
    match tree.content.toList with
    | _ :: c :: _ => .ok ((kind.escaped c tree.location).map .glyph)
    | _ => .error (malformed tree)
  else if tree.label = "interpolation" then
    match parts.find? (fun child => child.tree.label == "interpolation_end") with
    | some closing => do
      return [.interpolated (← interpolationBody parts) tree.location closing.tree.location]
    | none => .error (malformed tree)
  else .error (malformed tree)

def text (kind : TextKind) (tree : Tree) (parts : List Reading) : Except Error Node := do
  let found ← parts.mapM fun child => pieces kind child.tree child.parts
  return joinFragments kind tree.location (Fragment.gather found.flatten)

def payload (parts : List Reading) : Except Error (Option Node) :=
  match parts with
  | [] => .ok none
  | first :: _ => some <$> first.node

/-- The node that a tree reads as, by its label. -/
def nodeOf (tree : Tree) (parts : List Reading) : Except Error Node :=
  match tree.label with
  | "comment" => .ok (.comment tree.content tree.location)
  | "reference" => .reference <$> name tree
  | "integer" => .ok (.integer tree.content tree.location)
  | "decimal" => .ok (.decimal tree.content tree.location)
  | "character" => .character <$> glyph tree
  | "string" => text .string tree parts
  | "regular_expression" => text .regularExpression tree parts
  | "interpolation" => do return .interpolation (← interpolationBody parts) tree.location
  | "key_value" => .keyValue <$> pair tree parts
  | "range" => range false
  | "exclusive_range" => range true
  | "list" => do return .list (← nodes parts) tree.location
  | "map" => do
    return .map (← parts.mapM fun child => pair child.tree child.parts) tree.location
  | "assignment" => assignment tree parts
  | "property" => do
    let object ← (← part tree parts 0).node
    let key ← part tree parts 1
    return .property object key.tree.content tree.location
  | "invocation" => do
    let callable ← (← part tree parts 0).node
    let arguments ← nodes (← part tree parts 1).parts
    return .invocation callable arguments tree.location
  | "binary" => chain tree parts
  | "lambda" => .lambda <$> lambda tree parts
  | "overloads" => do
    return .overloads (← parts.mapM fun child => lambda child.tree child.parts) tree.location
  | "class" => do
    let ancestors ← nodes (← part tree parts 0).parts
    return .classDefinition ancestors (← blockPart tree parts 1) tree.location
  | "block" => .block <$> block tree parts
  | "if" => conditional tree parts
  | "unless" => conditional tree parts
  | "switch" => switch tree parts
  | "try" => attempt tree parts
  | "throw" => do return .throwing (← (← part tree parts 0).node) tree.location
  | "return" => do return .returning (← payload parts) tree.location
  | "exit" => do return .exiting (← payload parts) tree.location
  | label => .error (.compiler (.unrecognized label) (some tree.location))
where
  /-- A range from the first part to the second. -/
  range (exclusive : Bool) : Except Error Node := do
    let start ← (← part tree parts 0).node
    let last ← (← part tree parts 1).node
    return .range start last exclusive tree.location

mutual
def ofTree : Tree → Reading
  | ⟨label, location, text, children⟩ =>
    let parts := ofTrees children
    ⟨⟨label, location, text, children⟩, parts, nodeOf ⟨label, location, text, children⟩ parts⟩
def ofTrees : List Tree → List Reading
  | [] => []
  | tree :: rest => ofTree tree :: ofTrees rest
end

end Reading

def Node.ofTree (tree : Tree) : Except Error Node := (Reading.ofTree tree).node

def Module.ofTree (tree : Tree) : Except Error Module := do
  Reading.requireLabel tree ["module"]
  return ⟨← Reading.nodes (Reading.ofTrees tree.children), tree.location⟩

def Module.ofText (origin text : String) : Except Error Module := do
  Module.ofTree (← Tree.ofText origin text)

end RipInterpreter.Syntax
