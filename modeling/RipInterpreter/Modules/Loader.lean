import RipInterpreter.Modules.FileTree
import RipInterpreter.Syntax.Reading

namespace RipInterpreter

/-- The answer to the request for a module: its path and its statements, or an error. A loader that
has not looked at some path yet says which. -/
inductive LoadAnswer where
  | found (path : String) (module : Syntax.Module)
  | refused (error : Error)
  | unseen (path : String)

/-- A loader answers the requests of a machine. They are numbered from zero, so that answers may
change with time. -/
structure Loader where
  answer : (request : Nat) → (name : String) → (searchPaths : List String) → LoadAnswer

namespace Loader

/-- The paths to try for a module, in order: in each directory the name as it is, then with the
extension. -/
def candidates (name : String) (searchPaths : List String) : List String :=
  searchPaths.flatMap fun directory =>
    [Path.join directory name, Path.join directory (name ++ ".rip")]

def read (path : String) (bytes : ByteArray) : LoadAnswer :=
  match decodeText bytes with
  | .error message => .refused (.unreadableModule path message)
  | .ok text =>
    match Syntax.Module.ofText path text with
    | .ok module => .found path module
    | .error error => .refused error

/-- Reads the module from the first path that leads to a regular file. -/
def firstFile (look : String → Look) (missing : Error) : List String → LoadAnswer
  | [] => .refused missing
  | path :: rest =>
    match look path with
    | .file bytes => read path bytes
    | .unreadable message => .refused (.unreadableModule path message)
    | .notFile _ => firstFile look missing rest
    | .unseen => .unseen path

def ofFiles (look : String → Look) : Loader where
  answer _ name searchPaths :=
    firstFile look (.missingModule name searchPaths) (candidates name searchPaths)

end Loader

end RipInterpreter
