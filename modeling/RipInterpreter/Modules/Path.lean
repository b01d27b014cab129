/-!
Paths of files as texts. Parts are separated by slashes; empty parts and single dots inside a path
mean nothing, but a dot in front of a relative path is kept.
-/

namespace RipInterpreter.Path

def parts (path : String) : List String := (path.toList.splitOn '/').map String.ofList

/-- Splits a path into its head, a slash or a leading dot or nothing, and the parts behind it. -/
def split (path : String) : String × List String :=
  match parts path with
  | "" :: first :: rest => ("/", first :: rest)
  | "." :: rest => (".", if rest.isEmpty then [] else "" :: rest)
  | parts => ("", parts)

/-- Whether a part behind the head of a path means nothing. -/
def isIdle (part : String) : Bool := part = "" || part = "."

/-- What two texts for the same path have in common: its head and the parts that mean something. -/
def key (path : String) : List String :=
  let (head, parts) := split path
  head :: parts.filter fun part => !isIdle part

/-- The path of the directory that holds a path: everything in front of its last part. The root and
the empty path lie in none. -/
def parent (path : String) : Option String :=
  let (head, parts) := split path
  match parts.reverse.dropWhile isIdle with
  | [] => if head = "." then some "" else none
  | _ :: outer => some (head ++ "/".intercalate (outer.dropWhile isIdle).reverse)

/-- A path that starts from a directory, unless it starts from the root. -/
def join (directory path : String) : String :=
  if path.startsWith "/" then path
  else if directory = "" || directory.endsWith "/" then directory ++ path
  else directory ++ "/" ++ path

end RipInterpreter.Path
