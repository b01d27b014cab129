import RipInterpreter.Location

namespace RipInterpreter.Parsing

/-- A named text. `places` holds the place of every character and the place after the last. -/
structure Source where
  origin : String
  chars : Array Char
  places : Array Location

namespace Source

/-- Prepares a text for matching. -/
def ofText (origin text : String) : Source where
  origin := origin
  chars := text.toList.toArray
  places := ((Location.start origin).along text.toList).toArray

def size (source : Source) : Nat := source.chars.size

/-- The place of the character with the given index; the end of the text for every index beyond. -/
def placeOf (source : Source) (index : Nat) : Location :=
  (source.places[min index source.size]?).getD (Location.start source.origin)

/-- The characters from one index up to another, as far as the text reaches. -/
def slice (source : Source) (first last : Nat) : String :=
  String.ofList (source.chars.extract first last).toList

/-- Whether the text continues with `expected` at an index. -/
def continuesWith (source : Source) (index : Nat) : List Char → Bool
  | [] => true
  | c :: rest => source.chars[index]? == some c && source.continuesWith (index + 1) rest

end Source

end RipInterpreter.Parsing
