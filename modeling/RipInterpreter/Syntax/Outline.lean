import RipInterpreter.Syntax.Node
import RipInterpreter.Concrete.Tree

/-!
Outlines: a syntax tree as entries below entries, the same shape for every kind of node. The listing
shows one line for each entry; two syntax trees are the same exactly when their outlines are.
-/

namespace RipInterpreter.Syntax

/-- An entry with the entries below it. The listing shows kind, place and payload; the tokens are
the names and characters with places of their own that the entry was read from. -/
structure Outline where
  kind : String
  payload : Option String
  tokens : List Name
  location : Location
  children : List Outline

namespace Outline

/-- An entry that shows nothing but its kind. -/
def plain (kind : String) (location : Location) (children : List Outline) : Outline :=
  ⟨kind, none, [], location, children⟩

def showing (kind payload : String) (location : Location) (children : List Outline) : Outline :=
  ⟨kind, some payload, [], location, children⟩

/-- The line that stands for an entry without those below it. -/
def headline (outline : Outline) : String :=
  let head := outline.kind ++ "@" ++ outline.location.text
  match outline.payload with
  | some payload => head ++ " (" ++ payload ++ ")"
  | none => head

mutual
/-- One line for each entry, those below an entry one level deeper. -/
def listing (depth : Nat) : Outline → Listing
  | ⟨kind, payload, tokens, location, children⟩ =>
    (depth, headline ⟨kind, payload, tokens, location, children⟩) ::
      listingAll (depth + 1) children
def listingAll (depth : Nat) : List Outline → Listing
  | [] => []
  | outline :: rest => outline.listing depth ++ listingAll depth rest
end

mutual
/-- Whether two outlines agree in everything, places included. -/
def same : Outline → Outline → Bool
  | ⟨kind, payload, tokens, location, children⟩, ⟨kind₁, payload₁, tokens₁, location₁, children₁⟩ =>
    kind == kind₁ && payload == payload₁ && tokens == tokens₁ && location == location₁ &&
      sameAll children children₁
def sameAll : List Outline → List Outline → Bool
  | [], [] => true
  | outline :: rest, outline₁ :: rest₁ => same outline outline₁ && sameAll rest rest₁
  | _, _ => false
end

mutual
def entries : Outline → List Outline
  | ⟨kind, payload, tokens, location, children⟩ =>
    ⟨kind, payload, tokens, location, children⟩ :: entriesAll children
def entriesAll : List Outline → List Outline
  | [] => []
  | outline :: rest => outline.entries ++ entriesAll rest
end

/-- The characters of all strings and regular expressions, in order. -/
def textTokens (outline : Outline) : List Name :=
  outline.entries.flatMap fun entry =>
    if entry.kind = "String" || entry.kind = "RegularExpression" then entry.tokens else []

end Outline

def Glyph.token (glyph : Glyph) : Name := ⟨String.singleton glyph.char, glyph.location⟩

/-- The text that stands for a word that introduces a lambda. -/
def LambdaWord.text : LambdaWord → String
  | .arrow => "->"
  | .lambda => "lambda"

/-- What a handler shows: its type, if it has one, and the name it binds. -/
def handlerText (matcher : Option Name) (binding : Name) : String :=
  match matcher with
  | some name => name.text ++ " " ++ binding.text
  | none => binding.text

mutual

def Node.outline : Node → Outline
  | .comment text place => .showing "Comment" text place []
  | .reference name => .showing "Reference" name.text name.location []
  | .integer digits place => .showing "Integer" digits place []
  | .decimal digits place => .showing "Decimal" digits place []
  | .character glyph => .showing "Character" (String.singleton glyph.char) glyph.location []
  | .string glyphs place => ⟨"String", some (spell glyphs), glyphs.map Glyph.token, place, []⟩
  | .regularExpression glyphs place =>
    ⟨"RegularExpression", some (spell glyphs), glyphs.map Glyph.token, place, []⟩
  | .interpolation body place => .plain "Interpolation" place (outlines body)
  | .keyValue pair => pair.outline
  | .range start last exclusive place =>
    .showing "Range" (if exclusive then "..." else "..") place [start.outline, last.outline]
  | .list items place => .plain "List" place (outlines items)
  | .map pairs place => .plain "Map" place (pairOutlines pairs)
  | .assignment target value place => .plain "Assignment" place [target.outline, value.outline]
  | .property object key place => .showing "Property" key place [object.outline]
  | .invocation callable arguments place =>
    .plain "Invocation" place (callable.outline :: outlines arguments)
  | .lambda definition => definition.outline
  | .overloads definitions place => .plain "Overloads" place (lambdaOutlines definitions)
  | .classDefinition ancestors body place =>
    .plain "Class" place (outlines ancestors ++ [body.outline])
  | .block body => body.outline
  | .conditional condition holds fails place =>
    .plain "If" place [condition.outline, holds.outline, fails.outline]
  | .switch subject cases otherwise place =>
    .plain "Switch" place (subject.outline :: caseOutlines cases ++ clauseOutlines "Else" otherwise)
  | .attempt body handlers cleanup place =>
    .plain "Try" place (body.outline :: handlerOutlines handlers ++ clauseOutlines "Finally" cleanup)
  | .throwing payload place => .plain "Throw" place [payload.outline]
  | .returning payload place => .plain "Return" place (payloadOutlines payload)
  | .exiting payload place => .plain "Exit" place (payloadOutlines payload)

def Block.outline : Block → Outline
  | ⟨statements, place⟩ => .plain "BlockBody" place (outlines statements)

def Pair.outline : Pair → Outline
  | ⟨key, value, place⟩ => .plain "KeyValue" place [key.outline, value.outline]

def Lambda.outline : Lambda → Outline
  | ⟨word, parameters, body, place⟩ =>
    .showing "Lambda" word.text place (outlines parameters ++ [body.outline])

def Case.outline : Case → Outline
  | ⟨matchers, body, place⟩ => .plain "Case" place (outlines matchers ++ [body.outline])

def Handler.outline : Handler → Outline
  | ⟨matcher, binding, body, place⟩ =>
    ⟨"Catch", some (handlerText matcher binding), matcher.toList ++ [binding], place, [body.outline]⟩

def Clause.outline (kind : String) : Clause → Outline
  | ⟨body, place⟩ => .plain kind place [body.outline]

def outlines : List Node → List Outline
  | [] => []
  | node :: rest => node.outline :: outlines rest

def pairOutlines : List Pair → List Outline
  | [] => []
  | pair :: rest => pair.outline :: pairOutlines rest

def lambdaOutlines : List Lambda → List Outline
  | [] => []
  | definition :: rest => definition.outline :: lambdaOutlines rest

def caseOutlines : List Case → List Outline
  | [] => []
  | case :: rest => case.outline :: caseOutlines rest

def handlerOutlines : List Handler → List Outline
  | [] => []
  | handler :: rest => handler.outline :: handlerOutlines rest

def clauseOutlines (kind : String) : Option Clause → List Outline
  | none => []
  | some clause => [clause.outline kind]

def payloadOutlines : Option Node → List Outline
  | none => []
  | some node => [node.outline]

end

def Module.outline (module : Module) : Outline :=
  .plain "Module" module.location (outlines module.statements)

end RipInterpreter.Syntax
