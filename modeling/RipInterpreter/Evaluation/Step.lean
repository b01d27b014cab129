import RipInterpreter.Evaluation.Methods

/-!
Evaluating a node, given a way to evaluate the nodes inside it and those it calls. `evaluate` ties
the knot with a bound on the depth of nesting.
-/

namespace RipInterpreter

open Syntax

namespace Action

def evaluateAll (evaluator : Evaluator) (scope : Scope) (nodes : List Node) : Action (List Handle) :=
  nodes.mapM (evaluator scope)

def integerLiteral (digits : String) : Action Handle :=
  match Number.readInteger (String.ofList (digits.toList.filter (· != '_'))) with
  | some value => newInteger value
  | none => fault (.integerOutOfRange digits)

def decimalLiteral (digits : String) : Action Handle :=
  match Number.readDecimal (String.ofList (digits.toList.filter (· != '_'))) with
  | some value => newDecimal value
  | none => fault (.invalidDecimal digits)

def evaluatePair (evaluator : Evaluator) (scope : Scope) (pair : Pair) : Action Handle := do
  let key ← evaluator scope pair.key
  let value ← evaluator scope pair.value
  newKeyValue key value

/-- Gives a value to a reference, which names a class without a name, or to a property. -/
def assign (evaluator : Evaluator) (scope : Scope) (target value : Node) : Action Handle := do
  match target with
  | .reference name =>
    let value ← evaluator scope value
    if ← ask fun heap => heap.isClass value then nameClass value name.text
    bindName scope name.text value
    return value
  | .property object key _ =>
    let object ← evaluator scope object
    let value ← evaluator scope value
    set object key value
    return value
  | other => fail (.compiler (.notAssignable other.kind) none)

/-- A parameter: a reference binds, the value of a literal is compared. -/
def evaluateParameter (evaluator : Evaluator) (scope : Scope) : Node → Action Parameter
  | .reference name => return .binding name.text
  | literal => .matcher <$> evaluator scope literal

def evaluateOverload (evaluator : Evaluator) (scope : Scope) (definition : Lambda) :
    Action Overload := do
  let parameters ← definition.parameters.mapM (evaluateParameter evaluator scope)
  return ⟨parameters, .block definition.body⟩

def evaluateParent (evaluator : Evaluator) (scope : Scope) (ancestor : Node) : Action Handle := do
  let parent ← evaluator scope ancestor
  if ← ask fun heap => heap.isClass parent then return parent
  else locate ancestor.location (unexpected "Class" parent)

/-- Makes a class, then runs its body with `self` bound to it and `@` to its prototype. -/
def evaluateClass (evaluator : Evaluator) (scope : Scope) (ancestors : List Node) (body : Block) :
    Action Handle := do
  let parents ← ancestors.mapM (evaluateParent evaluator scope)
  let made ← newClass none parents
  let prototype ← get made "@"
  let inner ← enter scope
  bindName inner "self" made
  bindName inner "@" prototype
  let _ ← run evaluator inner body.statements
  return made

/-- Whether a value asked for its boolean form answers with the true value. -/
def holds (evaluator : Evaluator) (scope : Scope) (value : Handle) : Action Bool := do
  return (← send evaluator value "to_boolean" [] scope) = .trueValue

/-- Whether the value of one of several nodes equals a subject; those behind it are left alone. -/
def matchesAny (evaluator : Evaluator) (scope : Scope) (subject : Handle) : List Node → Action Bool
  | [] => return false
  | matcher :: rest => do
    let candidate ← evaluator scope matcher
    if ← ask fun heap => heap.equal subject candidate then return true
    else matchesAny evaluator scope subject rest

/-- The block of the first case that a subject equals. -/
def findCase (evaluator : Evaluator) (scope : Scope) (subject : Handle) :
    List Case → Action (Option Block)
  | [] => return none
  | case :: rest => do
    if ← matchesAny evaluator scope subject case.matchers then return some case.body
    else findCase evaluator scope subject rest

/-- Runs the case that fits a subject, or the block for all others. -/
def evaluateSwitch (evaluator : Evaluator) (scope : Scope) (subject : Node) (cases : List Case)
    (otherwise : Option Clause) : Action Handle := do
  let subject ← evaluator scope subject
  match ← findCase evaluator scope subject cases with
  | some body => runBlock evaluator scope body
  | none =>
    match otherwise with
    | some clause => runBlock evaluator scope clause.body
    | none =>
      let text ← ask fun heap => heap.inspect subject
      fault (.noMatchingCase text)

/-- Whether a handler with a type takes a value: by its class, or by equality if the type is a
value. -/
def accepts (scope : Scope) (matcher : Name) (value : Handle) : Action Bool := do
  match (← world).frames.lookup scope matcher.text with
  | none => fail (.runtime (.unknownReference matcher.text) (some matcher.location))
  | some expected =>
    if ← ask fun heap => heap.isClass expected then ask fun heap => heap.isA value expected
    else ask fun heap => heap.equal value expected

def findHandler (scope : Scope) (value : Handle) : List Handler → Action (Option Handler)
  | [] => return none
  | handler :: rest => do
    let taken ← match handler.matcher with
      | none => pure true
      | some matcher => accepts scope matcher value
    if taken then return some handler else findHandler scope value rest

/-- The value that handlers get for the end of a body: what was thrown, or an exception for a
runtime error. -/
def caught : Completion Handle → Action (Option Handle)
  | .signal (.thrown value _) => return some value
  | .failure (.runtime reason _) => some <$> newException reason.message
  | _ => return none

/-- Runs a handler with the value bound in a frame of its own. -/
def runHandler (evaluator : Evaluator) (scope : Scope) (handler : Handler) (value : Handle) :
    Action Handle := do
  let frame ← enter scope
  bindName frame handler.binding.text value
  runBlock evaluator frame handler.body

/-- The end of a body with handlers: that of the handler that takes what the body threw, or else
that of the body. -/
def handled (evaluator : Evaluator) (scope : Scope) (body : Block) (handlers : List Handler) :
    Action (Completion Handle) := do
  let completion ← settle (runBlock evaluator scope body)
  match ← caught completion with
  | none => return completion
  | some value =>
    match ← findHandler scope value handlers with
    | none => return completion
    | some handler => settle (runHandler evaluator scope handler value)

/-- Runs a body with its handlers, then the final block. If that block ends with a value, the
earlier end counts, otherwise its own. -/
def attempt (evaluator : Evaluator) (scope : Scope) (body : Block) (handlers : List Handler)
    (cleanup : Option Clause) : Action Handle := do
  let completion ← handled evaluator scope body handlers
  match cleanup with
  | none => completion.resume
  | some clause =>
    let _ ← runBlock evaluator scope clause.body
    completion.resume

def evaluatePayload (evaluator : Evaluator) (scope : Scope) : Option Node → Action Handle
  | none => return .nil
  | some node => evaluator scope node

/-- Evaluates a node, leaving the nodes inside it to `evaluator`. -/
def step (evaluator : Evaluator) (scope : Scope) : Node → Action Handle
  | .comment _ _ => return .nil
  | .reference name => do
    match (← world).frames.lookup scope name.text with
    | some value => return value
    | none => fault (.unknownReference name.text)
  | .integer digits _ => integerLiteral digits
  | .decimal digits _ => decimalLiteral digits
  | .character glyph => newCharacter glyph.char
  | .string glyphs _ => newString (spell glyphs)
  | .regularExpression glyphs _ => newRegularExpression (spell glyphs)
  | .interpolation body _ => do
    let last ← run evaluator (← enter scope) body
    send evaluator last "to_string" [] scope
  | .keyValue pair => evaluatePair evaluator scope pair
  | .range start last exclusive _ => do
    let start ← evaluator scope start
    let last ← evaluator scope last
    newRange start last exclusive
  | .list items _ => do newList (← evaluateAll evaluator scope items)
  | .map pairs _ => do newMap (← pairs.mapM (evaluatePair evaluator scope))
  | .assignment target value _ => assign evaluator scope target value
  | .property object key _ => do get (← evaluator scope object) key
  | .invocation callable arguments _ => do
    let callable ← evaluator scope callable
    let arguments ← evaluateAll evaluator scope arguments
    call evaluator callable arguments scope
  | .lambda definition => do
    newLambda scope [← evaluateOverload evaluator scope definition]
  | .overloads definitions _ => do
    newLambda scope (← definitions.mapM (evaluateOverload evaluator scope))
  | .classDefinition ancestors body _ => evaluateClass evaluator scope ancestors body
  | .block body => runBlock evaluator scope body
  | .conditional condition body otherwise _ => do
    let value ← evaluator scope condition
    if ← holds evaluator scope value then runBlock evaluator scope body
    else runBlock evaluator scope otherwise
  | .switch subject cases otherwise _ => evaluateSwitch evaluator scope subject cases otherwise
  | .attempt body handlers cleanup _ => attempt evaluator scope body handlers cleanup
  | .throwing payload place => do
    raise (.thrown (← evaluator scope payload) place)
  | .returning payload _ => do
    raise (.returned (← evaluatePayload evaluator scope payload))
  | .exiting payload _ => do
    raise (.exited (← evaluatePayload evaluator scope payload))

end Action

/-- Evaluates a node that nests, and calls, at most `depth` levels deep. An error that does not know
its place gets that of the node. -/
def evaluate : (depth : Nat) → Evaluator
  | 0, _, _ => Action.halt .tooDeep
  | depth + 1, scope, node => Action.locate node.location (Action.step (evaluate depth) scope node)

end RipInterpreter
