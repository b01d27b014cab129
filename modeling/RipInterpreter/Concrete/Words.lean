import RipInterpreter.Concrete.Tree
import RipInterpreter.Text.Blank

namespace RipInterpreter.Concrete

open Parsing Parser

/-- One or more spaces or tabs on a line. -/
def spaces : Parser Unit := do
  let _ ← manyOne (charWhere (fun c => c = ' ' || c = '\t') "space")

/-- Any white space, line ends included. -/
def blanks : Parser Unit := do
  let _ ← many (charWhere Text.isBlank "whitespace")

def lineEnd : Parser Span := (literal "\r\n").orElse (literal "\n")

/-- Characters that separate references besides white space. -/
def delimiters : List Char := ['.', ',', ';', '#', '(', ')', '[', ']', '{', '}']

def isReferenceChar (c : Char) : Bool := !(Text.isBlank c || delimiters.contains c)

/-- A reserved word, which ends where a reference would. -/
def keyword (word : String) : Parser Span :=
  keepLeft (literal word) (notFollowedBy (charWhere isReferenceChar "identifier") "end of keyword")

/-- Items with commas between them. -/
def listOf (item : Parser Tree) : Parser (List Tree) :=
  separated item (keepLeft (keepRight blanks (literal ",")) blanks)

/-- The text of a reference. Operators are references, too; only the first character must not be a
digit. -/
def simpleReference : Parser Span := do
  let first ← charWhere (fun c => isReferenceChar c && !c.isDigit) "reference"
  let rest ← many (charWhere isReferenceChar "reference")
  return ⟨String.join (first.text :: rest.map Span.text), first.location⟩

def reference : Parser Tree := Tree.leaf "reference" <$> simpleReference

end RipInterpreter.Concrete
