import RipInterpreter.Evaluation.Step

namespace RipInterpreter.Session

/-- The depth of nesting that is allowed where nothing else is asked for. -/
def defaultDepth : Nat := 1000000

/-- The value that a module ends with: that of its last statement, or what it returned or left with.
A thrown value that no handler took is an error. -/
def endModule : Completion Handle → Action Handle
  | .signal (.returned value) => return value
  | .signal (.exited value) => return value
  | .signal (.thrown value place) => Action.uncaught value place
  | completion => completion.resume

def globalContext : Action Scope := Action.enter Kernel.globals

def interpretIn (depth : Nat) (module : Syntax.Module) (scope : Scope) : Action Handle := do
  endModule (← Action.settle (Action.run (evaluate depth) scope module.statements))

def interpret (depth : Nat) (module : Syntax.Module) : Action Handle := do
  interpretIn depth module (← Action.enterFrom Kernel.globals module.location.origin)

end RipInterpreter.Session
