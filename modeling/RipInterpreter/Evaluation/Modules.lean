import RipInterpreter.Evaluation.Calls
import RipInterpreter.Machine.Kernel

namespace RipInterpreter.Action

/-- The directories to search from a scope: first that of the text its code comes from. -/
def searchPathsFrom (world : World) (scope : Scope) : List String :=
  match (world.frames.originOf scope).bind Path.parent with
  | some directory => (if directory = "" then "." else directory) :: world.searchPaths
  | none => world.searchPaths

def requestModule (name : String) (scope : Scope) : Action LoadAnswer := fun world =>
  .value (world.loader.answer world.requests name (searchPathsFrom world scope))
    { world with requests := world.requests + 1 }

/-- Runs the statements of a module. While it runs its path counts as being loaded; the value it
ends with is kept. -/
def runModule (evaluator : Evaluator) (path : String) (module : Syntax.Module) : Action Handle := do
  let key := Path.key path
  change fun world => { world with loading := key :: world.loading }
  let scope ← enterFrom Kernel.globals path
  let completion ← settle (run evaluator scope module.statements)
  change fun world => { world with loading := world.loading.filter (· != key) }
  match completion with
  | .value value | .signal (.returned value) =>
    change fun world => { world with loaded := (key, value) :: world.loaded }
    return value
  | completion => completion.resume

def require (evaluator : Evaluator) (name : String) (scope : Scope) : Action Handle := do
  match ← requestModule name scope with
  | .refused error => fail error
  | .unseen path => halt (.unseenPath path)
  | .found path module =>
    let state ← world
    match state.loaded.lookup (Path.key path) with
    | some value => return value
    | none =>
      if state.loading.contains (Path.key path) then fault (.circularRequire path)
      else runModule evaluator path module

end RipInterpreter.Action
