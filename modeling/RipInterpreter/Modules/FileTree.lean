import RipInterpreter.Modules.Path

namespace RipInterpreter

/-- What lies under a path. What is not a regular file says how reading it fails, and so does a
regular file that cannot be read; of a path not looked at yet nothing is known. -/
inductive Look where
  | file (bytes : ByteArray)
  | unreadable (message : String)
  | notFile (message : String)
  | unseen

def decodeText (bytes : ByteArray) : Except String String :=
  match String.fromUTF8? bytes with
  | some text => .ok text
  | none => .error "stream did not contain valid UTF-8"

/-- The text that lies under a path, or why there is none. -/
def Look.text : Look → Except String String
  | .file bytes => decodeText bytes
  | .unreadable message => .error message
  | .notFile message => .error message
  | .unseen => .error "not looked at"

/-- Files and directories below a working directory, each under the names that lead to it. -/
structure FileTree where
  workingDirectory : String
  files : List (List String × ByteArray)
  directories : List (List String)

namespace FileTree

def empty (workingDirectory : String) : FileTree := ⟨workingDirectory, [], []⟩

/-- Stores a file, with the directories that lead to it, in place of any earlier one. -/
def write (tree : FileTree) (path : String) (bytes : ByteArray) : FileTree :=
  let names := (Path.key path).drop 1
  { tree with
    files := (names, bytes) :: tree.files.filter fun file => file.1 != names
    directories := (List.range names.length).map names.take ++ tree.directories }

def remove (tree : FileTree) (path : String) : FileTree :=
  let names := (Path.key path).drop 1
  { tree with files := tree.files.filter fun file => file.1 != names }

/-- How reading fails where there is no entry. -/
def absent : Look := .notFile "No such file or directory (os error 2)"

/-- Goes from the directory `place` along the parts of a path. -/
def walk (tree : FileTree) (place : List String) : List String → Look
  | [] => .notFile "Is a directory (os error 21)"
  | part :: rest =>
    if Path.isIdle part then tree.walk place rest
    else if part = ".." then
      if place.isEmpty then absent else tree.walk place.dropLast rest
    else
      let next := place ++ [part]
      match tree.files.lookup next with
      | some bytes =>
        if rest.isEmpty then .file bytes else .notFile "Not a directory (os error 20)"
      | none =>
        if tree.directories.contains next then tree.walk next rest
        else if 255 < part.utf8ByteSize then .notFile "File name too long (os error 36)"
        else absent

/-- What lies under a path, relative or below the working directory. -/
def look (tree : FileTree) (path : String) : Look :=
  let (head, parts) := Path.split path
  let top := tree.workingDirectory ++ "/"
  if path = "" then absent
  else if path.startsWith top then tree.walk [] ((path.drop top.length).toString.splitOn "/")
  else if head = "/" then absent
  else tree.walk [] parts

end FileTree

end RipInterpreter
