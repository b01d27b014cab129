import RipInterpreter.Syntax.Node

namespace RipInterpreter.Syntax

/-- The two kinds of text literals. -/
inductive TextKind where
  | string
  | regularExpression
deriving DecidableEq

/-- The smallest parts of a text. An interpolation comes with the place of its closing brace. -/
inductive Piece where
  | glyph (glyph : Glyph)
  | interpolated (body : List Node) (location closing : Location)

/-- A run of characters, or one interpolation with the place of its closing brace. -/
inductive Fragment where
  | literal (glyphs : List Glyph)
  | interpolated (body : List Node) (location closing : Location)

/-- The fragments of a text: neighbouring characters come together. -/
def Fragment.gather : List Piece → List Fragment
  | [] => []
  | .glyph glyph :: rest =>
    match gather rest with
    | .literal glyphs :: more => .literal (glyph :: glyphs) :: more
    | fragments => .literal [glyph] :: fragments
  | .interpolated body location closing :: rest =>
    .interpolated body location closing :: gather rest

/-- A literal of the kind. -/
def TextKind.literal (kind : TextKind) (glyphs : List Glyph) (location : Location) : Node :=
  match kind with
  | .string => .string glyphs location
  | .regularExpression => .regularExpression glyphs location

/-- The first place among glyphs. -/
def firstPlace (glyphs : List Glyph) (otherwise : Location) : Location :=
  match glyphs with
  | glyph :: _ => glyph.location
  | [] => otherwise

/-- The call of an operator: both the property and the invocation stand at it. -/
def operatorCall (receiver : Node) (operator : String) (location : Location) (argument : Node) : Node :=
  .invocation (.property receiver operator location) [argument] location

/-- Appends fragments to what is joined so far. The `+` stands at the closing brace of an
interpolation in front of it, otherwise at the start of what it appends. -/
def appendFragments (kind : TextKind) (place : Location) (joined : Node) (closing : Option Location) :
    List Fragment → Node
  | [] => joined
  | .literal glyphs :: rest =>
    let plus := closing.getD (firstPlace glyphs place)
    let appended := kind.literal glyphs (firstPlace glyphs plus)
    appendFragments kind place (operatorCall joined "+" plus appended) none rest
  | .interpolated body location next :: rest =>
    let plus := closing.getD location
    appendFragments kind place (operatorCall joined "+" plus (.interpolation body location))
      (some next) rest

/-- The node for the fragments of a text at `place`. -/
def joinFragments (kind : TextKind) (place : Location) : List Fragment → Node
  | [] => kind.literal [] place
  | .literal glyphs :: rest =>
    appendFragments kind place (kind.literal glyphs (firstPlace glyphs place)) none rest
  | .interpolated body location closing :: rest =>
    match kind with
    | .string => appendFragments kind place (.interpolation body location) (some closing) rest
    | .regularExpression =>
      -- The first operand decides what `+` makes, so a pattern comes first.
      appendFragments kind place (kind.literal [] place) none
        (.interpolated body location closing :: rest)

/-- What the character behind a backslash stands for in a string. -/
def resolveEscape (c : Char) : Char :=
  match c with
  | 'n' => '\n'
  | 't' => '\t'
  | 'r' => '\r'
  | '0' => '\x00'
  | other => other

/-- The glyphs of an escape at `place`. A regular expression keeps the backslash. -/
def TextKind.escaped (kind : TextKind) (c : Char) (place : Location) : List Glyph :=
  match kind with
  | .string => [⟨resolveEscape c, place⟩]
  | .regularExpression => [⟨'\\', place⟩, ⟨c, place.advanceBy 1⟩]

end RipInterpreter.Syntax
