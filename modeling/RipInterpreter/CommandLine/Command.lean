namespace RipInterpreter

inductive TreeKind where
  | concrete
  | normalized
deriving DecidableEq, Inhabited

/-- What is asked for. Without a file the source comes from the standard input. -/
inductive Command where
  | execute (file : Option String)
  | showTree (kind : TreeKind) (file : Option String)
  | version (verbose : Bool)
deriving DecidableEq, Inhabited

namespace Command

def treeNamed (name : String) : Option TreeKind :=
  if name = "raw_parse" then some .concrete
  else if name = "syntax" || name = "parse" then some .normalized
  else none

/-- What was found among the arguments of one command. -/
structure Found where
  file : Option String
  tree : Option TreeKind
  verbose : Bool

def Found.nothing : Found := ⟨none, none, false⟩

/-- Takes a word for the file, of which there is at most one. -/
def Found.addFile (found : Found) (word : String) : Option Found :=
  if found.file.isSome || word = "" then none else some { found with file := some word }

/-- Takes a word for the name of a tree, of which there is at most one. -/
def Found.addTree (found : Found) (word : String) : Option Found :=
  if found.tree.isSome then none
  else (treeNamed word).map fun kind => { found with tree := some kind }

/-- Takes the option to say more, which is given at most once. -/
def Found.addVerbose (found : Found) : Option Found :=
  if found.verbose then none else some { found with verbose := true }

inductive Cluster where
  /-- All its options stand alone. -/
  | closed (found : Found)
  /-- Its last option waits for the name of a tree. -/
  | wantsTree (found : Found)
  | refused

/-- Reads a cluster of short options. `takesTree` says whether there is an option for a tree; its
value may follow at once, also behind an equals sign. -/
def cluster (takesTree : Bool) (found : Found) : List Char → Cluster
  | [] => .closed found
  | 'v' :: rest =>
    match found.addVerbose with
    | some found => cluster takesTree found rest
    | none => .refused
  | 't' :: rest =>
    if !takesTree then .refused
    else
      let value := match rest with
        | '=' :: value => value
        | value => value
      if rest.isEmpty then .wantsTree found
      else match found.addTree (String.ofList value) with
        | some found => .closed found
        | none => .refused
  | _ :: _ => .refused

/-- Reads the words behind two dashes. -/
def readFiles (found : Found) (words : List String) : Option Found :=
  words.foldlM Found.addFile found

inductive Word where
  | plain
  | dashes
  | long (name : String)
  | short (letters : List Char)

/-- Tells options from other words; a single dash is no option. -/
def classify (word : String) : Word :=
  match word.toList with
  | ['-', '-'] => .dashes
  | '-' :: '-' :: name => .long (String.ofList name)
  | '-' :: letter :: letters => .short (letter :: letters)
  | _ => .plain

def isValue (word : String) : Bool :=
  match classify word with
  | .plain => true
  | _ => false

/-- Reads the words of one command: options and the file. -/
def readWords (takesTree : Bool) (found : Found) : List String → Option Found
  | [] => some found
  | word :: rest =>
    match classify word with
    | .plain => do readWords takesTree (← found.addFile word) rest
    | .dashes => readFiles found rest
    | .long name =>
      if name = "verbose" then do readWords takesTree (← found.addVerbose) rest
      else if takesTree && name.startsWith "tree=" then do
        readWords takesTree (← found.addTree (name.drop 5).toString) rest
      else if takesTree && name = "tree" then
        match rest with
        | value :: rest =>
          if isValue value then do readWords takesTree (← found.addTree value) rest else none
        | [] => none
      else none
    | .short letters =>
      match cluster takesTree found letters with
      | .closed found => readWords takesTree found rest
      | .wantsTree found =>
        match rest with
        | value :: rest =>
          if isValue value then do readWords takesTree (← found.addTree value) rest else none
        | [] => none
      | .refused => none

/-- The words behind the name of a command that shows a tree. -/
def readShowTree (words : List String) : Option Command := do
  let found ← readWords true .nothing words
  return .showTree (← found.tree) found.file

/-- The words behind the name of the command that tells the version. It takes no file. -/
def readVersion (verbose : Bool) (words : List String) : Option Command := do
  let found ← readWords false .nothing words
  if found.file.isSome then none else return .version (verbose || found.verbose)

/-- Reads the arguments; what makes no sense is refused. -/
def ofWords (found : Found) : List String → Option Command
  | [] => some (.execute found.file)
  | word :: rest =>
    if word = "debug" then readShowTree rest
    else if word = "version" then readVersion found.verbose rest
    else
      match classify word with
      | .plain => do ofWords (← found.addFile word) rest
      | .dashes => do return .execute (← readFiles found rest).file
      | .long name => if name = "verbose" then do ofWords (← found.addVerbose) rest else none
      | .short letters =>
        match cluster false found letters with
        | .closed found => ofWords found rest
        | _ => none

def ofArguments (arguments : List String) : Option Command := ofWords .nothing arguments

def file : Command → Option String
  | .execute file => file
  | .showTree _ file => file
  | .version _ => none

def readsStandardInput : Command → Bool
  | .execute none => true
  | .showTree _ none => true
  | _ => false

end Command

end RipInterpreter
