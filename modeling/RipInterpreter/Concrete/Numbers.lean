import RipInterpreter.Concrete.Tree

namespace RipInterpreter.Concrete

open Parsing Parser

def digit : Parser Span := charWhere Char.isDigit "digit"

/-- Groups of digits, a low line allowed between two groups. -/
def digits : Parser Unit := do
  let _ ← manyOne digit
  let _ ← many (keepRight (optional (literal "_")) (manyOne digit))

def sign : Parser (Option Span) := optional ((literal "+").orElse (literal "-"))

/-- Digits with a point, in front of which they may be missing. -/
def decimal : Parser Tree :=
  Tree.leaf "decimal" <$> capture do
    let _ ← sign
    let _ ← optional digits
    let _ ← literal "."
    digits

/-- Digits without a point. -/
def integer : Parser Tree :=
  Tree.leaf "integer" <$> capture (keepRight sign digits)

/-- A decimal, or else an integer: an integer would stop in front of the point. -/
def numeric : Parser Tree := decimal.orElse integer

end RipInterpreter.Concrete
