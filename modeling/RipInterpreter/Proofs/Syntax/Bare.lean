import RipInterpreter.Syntax.Node

namespace RipInterpreter

/-- Any place in the same text. -/
def Location.bare (place : Location) : Location := ⟨place.origin, 0, 0, 0⟩

namespace Syntax

def Name.bare (name : Name) : Name := ⟨name.text, name.location.bare⟩

def Glyph.bare (glyph : Glyph) : Glyph := ⟨glyph.char, glyph.location.bare⟩

mutual

def Node.bare : Node → Node
  | .comment text place => .comment text place.bare
  | .reference name => .reference name.bare
  | .integer digits place => .integer digits place.bare
  | .decimal digits place => .decimal digits place.bare
  | .character glyph => .character glyph.bare
  | .string glyphs place => .string (glyphs.map Glyph.bare) place.bare
  | .regularExpression glyphs place => .regularExpression (glyphs.map Glyph.bare) place.bare
  | .interpolation body place => .interpolation (bareStatements body) place.bare
  | .keyValue pair => .keyValue pair.bare
  | .range start last exclusive place => .range start.bare last.bare exclusive place.bare
  | .list items place => .list (bareNodes items) place.bare
  | .map pairs place => .map (barePairs pairs) place.bare
  | .assignment target value place => .assignment target.bare value.bare place.bare
  | .property object key place => .property object.bare key place.bare
  | .invocation callable arguments place =>
    .invocation callable.bare (bareNodes arguments) place.bare
  | .lambda definition => .lambda definition.bare
  | .overloads definitions place => .overloads (bareLambdas definitions) place.bare
  | .classDefinition ancestors body place =>
    .classDefinition (bareNodes ancestors) body.bare place.bare
  | .block body => .block body.bare
  | .conditional condition holds fails place =>
    .conditional condition.bare holds.bare fails.bare place.bare
  | .switch subject cases otherwise place =>
    .switch subject.bare (bareCases cases) (bareClause otherwise) place.bare
  | .attempt body handlers cleanup place =>
    .attempt body.bare (bareHandlers handlers) (bareClause cleanup) place.bare
  | .throwing payload place => .throwing payload.bare place.bare
  | .returning payload place => .returning (barePayload payload) place.bare
  | .exiting payload place => .exiting (barePayload payload) place.bare

def Block.bare : Block → Block
  | ⟨statements, place⟩ => ⟨bareStatements statements, place.bare⟩

def Pair.bare : Pair → Pair
  | ⟨key, value, place⟩ => ⟨key.bare, value.bare, place.bare⟩

def Lambda.bare : Lambda → Lambda
  | ⟨word, parameters, body, place⟩ => ⟨word, bareNodes parameters, body.bare, place.bare⟩

def Case.bare : Case → Case
  | ⟨matchers, body, place⟩ => ⟨bareNodes matchers, body.bare, place.bare⟩

def Handler.bare : Handler → Handler
  | ⟨matcher, binding, body, place⟩ =>
    ⟨matcher.map Name.bare, binding.bare, body.bare, place.bare⟩

def Clause.bare : Clause → Clause
  | ⟨body, place⟩ => ⟨body.bare, place.bare⟩

/-- The statements that are no comments. -/
def bareStatements : List Node → List Node
  | [] => []
  | statement :: rest =>
    if statement.isComment then bareStatements rest else statement.bare :: bareStatements rest

def bareNodes : List Node → List Node
  | [] => []
  | node :: rest => node.bare :: bareNodes rest

def barePairs : List Pair → List Pair
  | [] => []
  | pair :: rest => pair.bare :: barePairs rest

def bareLambdas : List Lambda → List Lambda
  | [] => []
  | definition :: rest => definition.bare :: bareLambdas rest

def bareCases : List Case → List Case
  | [] => []
  | case :: rest => case.bare :: bareCases rest

def bareHandlers : List Handler → List Handler
  | [] => []
  | handler :: rest => handler.bare :: bareHandlers rest

def bareClause : Option Clause → Option Clause
  | none => none
  | some clause => some clause.bare

def barePayload : Option Node → Option Node
  | none => none
  | some node => some node.bare

end

def Module.bare (module : Module) : Module :=
  ⟨bareStatements module.statements, module.location.bare⟩

theorem bareNodes_eq (nodes : List Node) : bareNodes nodes = nodes.map Node.bare := by
  induction nodes with
  | nil => rfl
  | cons node rest ih => rw [bareNodes, ih, List.map_cons]

theorem barePairs_eq (pairs : List Pair) : barePairs pairs = pairs.map Pair.bare := by
  induction pairs with
  | nil => rfl
  | cons pair rest ih => rw [barePairs, ih, List.map_cons]

theorem bareLambdas_eq (definitions : List Lambda) :
    bareLambdas definitions = definitions.map Lambda.bare := by
  induction definitions with
  | nil => rfl
  | cons definition rest ih => rw [bareLambdas, ih, List.map_cons]

theorem location_bare (node : Node) : node.bare.location = node.location.bare := by
  cases node with
  | keyValue pair => cases pair; rfl
  | lambda definition => cases definition; rfl
  | block body => cases body; rfl
  | _ => rfl

theorem kind_bare (node : Node) : node.bare.kind = node.kind := by
  cases node <;> rfl

theorem spell_bare (glyphs : List Glyph) : spell (glyphs.map Glyph.bare) = spell glyphs := by
  unfold spell
  rw [List.map_map]
  rfl

end Syntax

end RipInterpreter
