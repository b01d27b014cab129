import RipInterpreter.Machine.Lineage
import RipInterpreter.Machine.Equality
import RipInterpreter.Machine.Inspection
import RipInterpreter.Modules.Loader

/-!
The state of a machine, and the steps that a program takes on it. A step ends with a value, with a
signal that unwinds to the code that waits for it, or with an error; the state lives on in all three
cases. A step may also be halted from outside, and then says nothing.
-/

namespace RipInterpreter

/-- Everything that a run can change, and what it asks for modules. -/
structure World where
  heap : Heap
  frames : Frames Handle
  loader : Loader
  searchPaths : List String
  /-- The values of the modules that were run, by the keys of their paths. -/
  loaded : List (List String × Handle)
  /-- The keys of the modules that are being run. -/
  loading : List (List String)
  /-- The number of modules asked for. -/
  requests : Nat
  /-- The number of resolvers of an embedding program that were run. -/
  resolverRuns : Nat

/-- What unwinds a run instead of a value. -/
inductive Signal where
  /-- Leaves the body of a lambda, or a module. -/
  | returned (value : Handle)
  /-- Goes to a handler that accepts the value. -/
  | thrown (value : Handle) (location : Location)
  /-- Leaves everything. -/
  | exited (value : Handle)
deriving DecidableEq, Inhabited

/-- Why a run was halted from outside. -/
inductive Halt where
  /-- It nested deeper than it was allowed to. -/
  | tooDeep
  /-- It depends on a path that was not looked at. -/
  | unseenPath (path : String)
deriving DecidableEq, Inhabited

inductive Outcome (α : Type) where
  | value (result : α) (world : World)
  | signal (raised : Signal) (world : World)
  | failure (error : Error) (world : World)
  | halted (reason : Halt)

/-- A step of a machine. -/
def Action (α : Type) : Type := World → Outcome α

namespace Action

variable {α β : Type}

@[inline] protected def pure (result : α) : Action α := fun world => .value result world

/-- One step after another. Only a value leads on to the second one. -/
@[inline] protected def bind (first : Action α) (next : α → Action β) : Action β := fun world =>
  match first world with
  | .value result after => next result after
  | .signal raised after => .signal raised after
  | .failure error after => .failure error after
  | .halted reason => .halted reason

instance : Monad Action where
  pure := Action.pure
  bind := Action.bind

def fail (error : Error) : Action α := fun world => .failure error world

/-- Ends with a runtime error that does not know its place yet. -/
def fault (fault : RuntimeFault) : Action α := fail (.runtime fault none)

def raise (raised : Signal) : Action α := fun world => .signal raised world

def halt (reason : Halt) : Action α := fun _ => .halted reason

def world : Action World := fun world => .value world world

def change (update : World → World) : Action Unit := fun world => .value () (update world)

/-- Asks a question about the objects. -/
def ask (question : Heap → Except ReadFault α) : Action α := fun world =>
  match question world.heap with
  | .ok result => .value result world
  | .error (.dangling handle) => .failure (.internal (.danglingHandle handle.index)) world
  | .error .tooDeep => .halted .tooDeep

/-- Tells an error where it happened, unless it knows already. -/
def locate (place : Location) (action : Action α) : Action α := fun world =>
  match action world with
  | .failure error after => .failure (error.locate place) after
  | outcome => outcome

end Action

/-- The end of a step that was not halted, without the state. -/
inductive Completion (α : Type) where
  | value (result : α)
  | signal (raised : Signal)
  | failure (error : Error)

/-- Takes a step to its end, whatever that is, and gives it as a value. -/
def Action.settle {α : Type} (action : Action α) : Action (Completion α) := fun world =>
  match action world with
  | .value result after => .value (.value result) after
  | .signal raised after => .value (.signal raised) after
  | .failure error after => .value (.failure error) after
  | .halted reason => .halted reason

def Completion.resume {α : Type} : Completion α → Action α
  | .value result => pure result
  | .signal raised => Action.raise raised
  | .failure error => Action.fail error

/-- Takes the value that was returned for the value of the step. -/
def Action.catchReturned (action : Action Handle) : Action Handle := fun world =>
  match action world with
  | .signal (.returned value) after => .value value after
  | outcome => outcome

end RipInterpreter
