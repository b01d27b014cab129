import RipInterpreter.Machine.Properties

namespace RipInterpreter

open Syntax

/-- A way to evaluate nodes in a scope. -/
def Evaluator : Type := Scope → Node → Action Handle

/-- How many literals an overload compares with the arguments, if it takes them: there are as many
arguments as parameters, and every literal equals its argument. -/
def Heap.matchParameters (heap : Heap) : List Parameter → List Handle → Except ReadFault (Option Nat)
  | [], [] => .ok (some 0)
  | .binding _ :: parameters, _ :: arguments => heap.matchParameters parameters arguments
  | .matcher expected :: parameters, argument :: arguments => do
    if ← heap.equal expected argument then
      return (← heap.matchParameters parameters arguments).map (· + 1)
    else return none
  | _, _ => .ok none

/-- The best of several overloads for some arguments: the one that compares the most literals, the
first among equals. `best` is the best one so far with its number of literals. -/
def Heap.selectOverload (heap : Heap) (arguments : List Handle) (best : Option (Overload × Nat)) :
    List Overload → Except ReadFault (Option (Overload × Nat))
  | [] => .ok best
  | overload :: rest => do
    let compared ←
      if overload.parameters.length = arguments.length then
        heap.matchParameters overload.parameters arguments
      else .ok none
    let better := match compared, best with
      | none, _ => best
      | some literals, none => some (overload, literals)
      | some literals, some (_, most) => if most < literals then some (overload, literals) else best
    heap.selectOverload arguments better rest

namespace Action

/-- Evaluates statements in order. The last one that is no comment gives the value. -/
def runFrom (evaluator : Evaluator) (scope : Scope) (last : Handle) : List Node → Action Handle
  | [] => return last
  | statement :: rest => do
    let value ← evaluator scope statement
    runFrom evaluator scope (if statement.isComment then last else value) rest

/-- Evaluates statements in order; without any the value is `nil`. -/
def run (evaluator : Evaluator) (scope : Scope) (statements : List Node) : Action Handle :=
  runFrom evaluator scope .nil statements

/-- Evaluates a block in a frame of its own. -/
def runBlock (evaluator : Evaluator) (scope : Scope) (block : Block) : Action Handle := do
  run evaluator (← enter scope) block.statements

/-- Binds the arguments of a call to the parameters that have names. -/
def bindParameters (scope : Scope) : List Parameter → List Handle → Action Unit
  | .binding name :: parameters, argument :: arguments => do
    bindName scope name argument
    bindParameters scope parameters arguments
  | .matcher _ :: parameters, _ :: arguments => bindParameters scope parameters arguments
  | _, _ => return ()

/-- Runs a body written in the language, in a new frame of the scope it was made in. -/
def callBlock (evaluator : Evaluator) (callable : Callable) (parameters : List Parameter)
    (arguments : List Handle) (body : Block) : Action Handle := do
  let frame ← enter callable.closure
  match callable.receiver with
  | some receiver => bindName frame "@" receiver
  | none => pure ()
  bindParameters frame parameters arguments
  catchReturned (run evaluator frame body.statements)

end Action

end RipInterpreter
