import RipInterpreter.About
import RipInterpreter.CommandLine.Command
import RipInterpreter.Evaluation.Session
import RipInterpreter.Syntax.Outline

namespace RipInterpreter

/-- What a command can see: the text of the standard input or why it cannot be read, the files, the
working directory and the list of further directories for modules. -/
structure Surroundings where
  standardInput : Except String String
  look : String → Look
  workingDirectory : String
  moduleDirectories : Option String

structure Report where
  code : Nat
  output : String
  errors : String
deriving DecidableEq, Inhabited

/-- The end of a command, or the path that has to be looked at first. -/
inductive Attempt where
  | finished (report : Report)
  | unseen (path : String)

namespace Report

def success (output : String) : Report := ⟨0, output, ""⟩

def failure (message : String) : Report := ⟨1, "", message ++ "\n"⟩

/-- The report of a refused command line, which leaves its words open. -/
def refusal : Report := ⟨2, "", ""⟩

/-- The report of an error. A failure to match is named with its cause, which reads the same. -/
def ofError (error : Error) : Report :=
  match error with
  | .parse found => failure (found.text ++ ": " ++ found.text)
  | .internal _ =>
    failure ("Unknown exception has occurred. Please open an issue report at " ++
      "github.com/rip-lang/rip/issues\n" ++ error.message)
  | _ => failure error.message

end Report

namespace Surroundings

/-- The directories to search for modules: the working directory and the further ones. -/
def searchPaths (around : Surroundings) : List String :=
  around.workingDirectory ::
    match around.moduleDirectories with
    | some directories => (directories.splitOn ":").filter (· != "")
    | none => []

/-- The name and the text of a source, or the report that it cannot be read. -/
def source (around : Surroundings) (file : Option String) :
    Except Attempt (String × String) :=
  match file with
  | none =>
    match around.standardInput with
    | .ok text => .ok ("-", text)
    | .error message => .error (.finished (.failure ("failed to read standard in: " ++ message)))
  | some path =>
    match around.look path with
    | .unseen => .error (.unseen path)
    | seen =>
      match seen.text with
      | .ok text => .ok (path, text)
      | .error message =>
        .error (.finished (.failure ("failed to read \x60" ++ path ++ "\x60: " ++ message)))

def execute (around : Surroundings) (origin text : String) : Attempt :=
  match Syntax.Module.ofText origin text with
  | .error error => .finished (.ofError error)
  | .ok module =>
    let start := World.fresh (.ofFiles around.look) around.searchPaths
    let shown := do
      let value ← Session.interpret Session.defaultDepth module
      Action.ask fun heap => heap.inspect value
    match shown start with
    | .value line _ => .finished (.success (line ++ "\n"))
    | .failure error _ => .finished (.ofError error)
    | .signal _ _ => .finished (.success "")
    | .halted (.unseenPath path) => .unseen path
    | .halted .tooDeep => .finished (.failure "the program nests too deeply")

def showTree (kind : TreeKind) (origin text : String) : Attempt :=
  let listing : Except Error Listing := match kind with
    | .concrete => (Concrete.Tree.ofText origin text).map (·.listing 0)
    | .normalized => (Syntax.Module.ofText origin text).map (·.outline.listing 0)
  match listing with
  | .ok listing => .finished (.success listing.render)
  | .error error => .finished (.ofError error)

/-- Carries out a command; `none` is a command line that makes no sense. -/
def run (around : Surroundings) : Option Command → Attempt
  | none => .finished .refusal
  | some (.version false) => .finished (.success (About.version false ++ "\n"))
  | some (.version true) =>
    .finished (.success (About.logo ++ "\n\n" ++ About.summary true ++ "\n"))
  | some (.execute file) =>
    match around.source file with
    | .ok (origin, text) => around.execute origin text
    | .error ending => ending
  | some (.showTree kind file) =>
    match around.source file with
    | .ok (origin, text) => showTree kind origin text
    | .error ending => ending

end Surroundings

end RipInterpreter
