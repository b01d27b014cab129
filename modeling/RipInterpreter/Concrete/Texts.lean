import RipInterpreter.Concrete.Nested

namespace RipInterpreter.Concrete

open Parsing Parser

/-- A single character behind a back quote. -/
def character : Parser Tree :=
  Tree.leaf "character" <$>
    keepRight (literal "\x60") (charWhere (fun c => !Text.isBlank c) "character")

/-- Any character of a text. -/
def rawCharacter : Parser Tree := Tree.leaf "character" <$> anyChar

/-- A backslash and the character it applies to. -/
def escape : Parser Tree := Tree.leaf "escape" <$> capture (keepRight (literal "\\") anyChar)

/-- Statements inside a text. The closing brace is kept as the last part. -/
def interpolation (nested : Nested) : Parser Tree := do
  let opening ← literal "#\x7b"
  let statements ← nested.lines
  let closing ← label "'\x7d'" (literal "\x7d")
  return .branch "interpolation" opening.location
    (statements ++ [.leaf "interpolation_end" closing])

/-- A colon and a word of letters and low lines. -/
def symbolString : Parser Tree := do
  let _ ← literal ":"
  let start ← here
  let characters ← manyOne <| Tree.leaf "character" <$>
    charWhere (fun c => c.isAlpha || c = '_') "symbol character"
  return .branch "string" start characters

/-- A string whose characters stand for themselves. -/
def singleQuoted : Parser Tree := do
  let _ ← literal "'"
  let start ← here
  let characters ← many (keepRight (notFollowedBy (literal "'") "'") rawCharacter)
  let _ ← label "closing '" (literal "'")
  return .branch "string" start characters

/-- A text between two equal marks, with interpolations and escapes. -/
def marked (nested : Nested) (kind mark : String) : Parser Tree := do
  let _ ← literal mark
  let start ← here
  let plain := keepRight (notFollowedBy (literal mark) mark) rawCharacter
  let parts ← many (firstOf (interpolation nested) [escape, plain])
  let _ ← label ("closing " ++ mark) (literal mark)
  return .branch kind start parts

/-- Moves the cursor over a text known to stand there. -/
def skipText (text : String) : Parser Unit := fun _ cursor =>
  .matched () (cursor.moveTo (cursor.position + text.length))

/-- A string between two occurrences of a label in capitals; the first one ends its line. The
content ends where the label occurs first, and escapes stand for themselves. -/
def hereDocument (nested : Nested) : Parser Tree := do
  let _ ← literal "<<"
  let terminator ← capture <| manyOne <|
    charWhere (fun c => c.isUpper || c = '_') "here-doc label"
  let _ ← lineEnd
  let start ← here
  let ends (source : Source) (index : Nat) : Bool :=
    source.continuesWith index terminator.text.toList
  let parts ← manyUntil ends <|
    (interpolation nested).orElse (label "here-doc terminator" rawCharacter)
  skipText terminator.text
  return .branch "string" start parts

/-- A string in any of its four forms. -/
def string (nested : Nested) : Parser Tree :=
  firstOf symbolString [singleQuoted, marked nested "string" "\x22", hereDocument nested]

/-- A pattern between slashes. -/
def regularExpression (nested : Nested) : Parser Tree := marked nested "regular_expression" "/"

end RipInterpreter.Concrete
