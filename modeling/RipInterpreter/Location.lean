namespace RipInterpreter

/-- A place in the text named `origin`: the number of characters before it, its line counted from
one and its column counted from zero. -/
structure Location where
  origin : String
  position : Nat
  line : Nat
  column : Nat
deriving DecidableEq, Inhabited

namespace Location

def start (origin : String) : Location := ⟨origin, 0, 1, 0⟩

/-- The place `count` characters further on the same line. -/
def advanceBy (place : Location) (count : Nat) : Location :=
  { place with position := place.position + count, column := place.column + count }

/-- The first place of the next line, one character further. -/
def advanceLine (place : Location) : Location :=
  { place with position := place.position + 1, line := place.line + 1, column := 0 }

def after (place : Location) (c : Char) : Location :=
  if c = '\n' then place.advanceLine else place.advanceBy 1

/-- The places of all characters that follow, and the place after the last. -/
def along (place : Location) : List Char → List Location
  | [] => [place]
  | c :: rest => place :: (place.after c).along rest

/-- The short form `origin:line:column`. -/
def text (place : Location) : String :=
  place.origin ++ ":" ++ toString place.line ++ ":" ++ toString place.column

end Location

end RipInterpreter
